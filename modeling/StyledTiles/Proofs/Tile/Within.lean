import Mathlib.Data.List.Forall2
import StyledTiles.Proofs.Decision
import StyledTiles.Proofs.Tile.Contents

/-!
# Styles that keep more

One style covers another at a zoom when it draws of every source-layer of which the other draws, and when
a feature that stays by the other stays by it. What is left of a tile by a style is then within what is
left by one that covers it: the layers come in the same order among others, and of each of them the
features come in the same order among others.

Whether a feature stays is compared where both styles decide about it, and what is left of a tile where
the covering style decides about all that it looks at.
-/
namespace StyledTiles

open Outcome

/-- The same layer of a tile, with at most more features. -/
structure PreparedLayer.Within (l l' : PreparedLayer) : Prop where
  name : l'.name = l.name
  extent : l'.extent = l.extent
  features : l.features.Sublist l'.features

/-- The second style keeps what the first one keeps. -/
structure Style.CoveredBy (s s' : Style) (z : Zoom) (keepUnknown : Bool) : Prop where
  visible : ∀ name, s.isVisible name z = true → s'.isVisible name z = true
  stays : ∀ name f r r', s.evaluate name z f = .ok r → s'.evaluate name z f = .ok r' →
    r.1.stays keepUnknown = true → r'.1.stays keepUnknown = true

namespace Pruner

variable {s s' : Style} {z : Zoom} {mode : PruningMode} {keepUnknown : Bool} {name : String}
  {f : DecodedFeature}

theorem verdict?_eq_some {r : Decision × Nat} :
    verdict? ⟨some s, .layerFilter, keepUnknown⟩ z name f = some r ↔
      ∃ view, Feature.ofDecoded f = .ok view ∧ s.evaluate name z view = .ok r := by
  simp only [verdict?]
  cases Feature.ofDecoded f with
  | error e => simp
  | ok view =>
    cases hr : s.evaluate name z view with
    | error e => simp [hr, Except.toOption]
    | ok r' => simp [hr, Except.toOption]

theorem keeps_of_verdict {p : Pruner} {r : Decision × Nat} (h : p.verdict? z name f = some r) :
    p.keeps z name f = r.1.stays p.keepUnknown := by
  obtain ⟨d, n⟩ := r
  cases d <;> simp [keeps, h, Decision.stays]

theorem isUnknown_of_verdict {p : Pruner} {r : Decision × Nat} (h : p.verdict? z name f = some r) :
    p.isUnknown z name f = decide (r.1 = .unknown) := by
  obtain ⟨d, n⟩ := r
  cases d <;> simp [isUnknown, h]

theorem keeps_layerFilter : keeps ⟨some s, .layerFilter, keepUnknown⟩ z name f = true ↔
    ∃ view r, Feature.ofDecoded f = .ok view ∧ s.evaluate name z view = .ok r ∧
      r.1.stays keepUnknown = true := by
  simp only [keeps, verdict?]
  cases Feature.ofDecoded f with
  | error e => simp
  | ok view =>
    cases hr : s.evaluate name z view with
    | error e => simp [hr, Except.toOption]
    | ok r =>
      obtain ⟨d, n⟩ := r
      cases d <;> simp [hr, Except.toOption, Decision.stays]

theorem verdict?_layerFilter :
    (verdict? ⟨some s, .layerFilter, keepUnknown⟩ z name f).isSome = true ↔
      ∃ view r, Feature.ofDecoded f = .ok view ∧ s.evaluate name z view = .ok r := by
  rw [Option.isSome_iff_exists]
  simp only [verdict?_eq_some]
  exact exists_comm

theorem keepsLayer_covered (h : s.CoveredBy s' z keepUnknown)
    (hlayer : keepsLayer ⟨some s, mode, keepUnknown⟩ z name = true) :
    keepsLayer ⟨some s', mode, keepUnknown⟩ z name = true := by
  cases mode with
  | none => rfl
  | layer => exact h.visible name hlayer
  | layerFilter => exact h.visible name hlayer

/-- With a verdict on it, a feature that was kept is kept. -/
theorem keeps_covered (h : s.CoveredBy s' z keepUnknown)
    (hkeeps : keeps ⟨some s, mode, keepUnknown⟩ z name f = true)
    (hverdict : (verdict? ⟨some s', mode, keepUnknown⟩ z name f).isSome = true) :
    keeps ⟨some s', mode, keepUnknown⟩ z name f = true := by
  cases mode with
  | none => rfl
  | layer => rfl
  | layerFilter =>
    obtain ⟨view, r, hview, hr, hstays⟩ := keeps_layerFilter.mp hkeeps
    obtain ⟨view', r', hview', hr'⟩ := verdict?_layerFilter.mp hverdict
    obtain rfl : view = view' := Except.ok.inj (hview.symm.trans hview')
    exact keeps_layerFilter.mpr ⟨view, r', hview, hr', h.stays name view r r' hr hr' hstays⟩

theorem keptOf_covered (h : s.CoveredBy s' z keepUnknown) {layer : TileLayer}
    (hverdicts : ∀ f ∈ layer.features,
      (verdict? ⟨some s', mode, keepUnknown⟩ z layer.name f).isSome = true) :
    (keptOf ⟨some s, mode, keepUnknown⟩ z layer).Sublist
      (keptOf ⟨some s', mode, keepUnknown⟩ z layer) := by
  have hboth : keptOf ⟨some s, mode, keepUnknown⟩ z layer =
      (keptOf ⟨some s', mode, keepUnknown⟩ z layer).filter
        (keeps ⟨some s, mode, keepUnknown⟩ z layer.name) := by
    unfold keptOf
    rw [List.filter_filter]
    refine List.filter_congr fun f hf => ?_
    cases hkeeps : keeps ⟨some s, mode, keepUnknown⟩ z layer.name f with
    | true => rw [keeps_covered h hkeeps (hverdicts f hf)]; rfl
    | false => rfl
  rw [hboth]
  exact List.filter_sublist

/-- Of each layer of the tile the first pruner leaves at most what the second one leaves. -/
def LeavesWithin (p p' : Pruner) (z : Zoom) (tile : List TileLayer) : Prop :=
  ∀ layer ∈ tile, p.leaves z layer = true →
    p'.leaves z layer = true ∧ (p.keptOf z layer).Sublist (p'.keptOf z layer)

/-- It is enough to compare which layers are looked at and what is kept of them. -/
theorem leavesWithin {p p' : Pruner} {tile : List TileLayer}
    (looked : ∀ layer ∈ tile, p.keepsLayer z layer.name = true → p'.keepsLayer z layer.name = true)
    (kept : ∀ layer ∈ tile, p.keepsLayer z layer.name = true →
      (p.keptOf z layer).Sublist (p'.keptOf z layer)) : p.LeavesWithin p' z tile := by
  intro layer hlayer hleaves
  obtain ⟨hlooked, hsome⟩ := leaves_iff.mp hleaves
  have hsub := kept layer hlayer hlooked
  have hsome' : p'.keptOf z layer ≠ [] := fun hnone => hsome (List.sublist_nil.mp (hnone ▸ hsub))
  exact ⟨leaves_iff.mpr ⟨looked layer hlayer hlooked, hsome'⟩, hsub⟩

theorem LeavesWithin.remainders {p p' : Pruner} {tile : List TileLayer}
    (h : p.LeavesWithin p' z tile) :
    List.SublistForall₂ PreparedLayer.Within ((tile.filter (p.leaves z)).map (p.remainder z))
      ((tile.filter (p'.leaves z)).map (p'.remainder z)) := by
  induction tile with
  | nil => exact .nil
  | cons layer tile ih =>
    rw [LeavesWithin, List.forall_mem_cons] at h
    have ih := ih h.2
    cases hleaves : p.leaves z layer with
    | false =>
      rw [List.filter_cons_of_neg (by simp [hleaves])]
      cases hleaves' : p'.leaves z layer with
      | false => rwa [List.filter_cons_of_neg (by simp [hleaves'])]
      | true =>
        rw [List.filter_cons_of_pos hleaves', List.map_cons]
        exact .cons_right ih
    | true =>
      obtain ⟨hleaves', hsub⟩ := h.1 hleaves
      rw [List.filter_cons_of_pos hleaves, List.filter_cons_of_pos hleaves', List.map_cons,
        List.map_cons]
      exact .cons ⟨rfl, rfl, hsub.map _⟩ ih

/-- What is left of a tile by a style is within what is left by one that covers it. -/
theorem remainders_covered (h : s.CoveredBy s' z keepUnknown) {tile : List TileLayer}
    (decides : Decides ⟨some s', mode, keepUnknown⟩ z tile) :
    List.SublistForall₂ PreparedLayer.Within
      ((tile.filter (leaves ⟨some s, mode, keepUnknown⟩ z)).map
        (remainder ⟨some s, mode, keepUnknown⟩ z))
      ((tile.filter (leaves ⟨some s', mode, keepUnknown⟩ z)).map
        (remainder ⟨some s', mode, keepUnknown⟩ z)) := by
  refine (leavesWithin (fun _ _ => keepsLayer_covered h) fun layer hlayer hlooked => ?_).remainders
  exact keptOf_covered h (decides layer hlayer (keepsLayer_covered h hlooked))

/-- The remainders of a blob, where it is pruned by both styles. -/
theorem pruneBlob_covered (h : s.CoveredBy s' z keepUnknown) {Blob : Type} {codec : Codec Blob}
    {blob out out' : Blob} {t t' : PrunedTile}
    (ht : pruneBlob ⟨some s, mode, keepUnknown⟩ z codec blob = .ok (out, t))
    (ht' : pruneBlob ⟨some s', mode, keepUnknown⟩ z codec blob = .ok (out', t')) :
    List.SublistForall₂ PreparedLayer.Within t.layers t'.layers := by
  obtain ⟨tile, decoded, pruned, _⟩ := pruneBlob_eq_ok.mp ht
  obtain ⟨pruned', _⟩ := (pruneBlob_of_decoded decoded).mp ht'
  obtain ⟨decides', _, accounts'⟩ := prune_eq_ok.mp pruned'
  rw [(prune_accounts pruned).layers, accounts'.layers]
  exact remainders_covered h decides'

end Pruner

end StyledTiles
