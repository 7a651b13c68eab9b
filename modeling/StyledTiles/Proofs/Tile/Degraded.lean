import StyledTiles.Proofs.Style.Degraded
import StyledTiles.Proofs.Tile.Within

/-!
# Pruning by a degraded style

A pruner that keeps features it cannot tell about keeps, by a degraded style, whatever it keeps by the
style itself, in every mode. With what is known of loading and deciding, this says all that a malformed
rule can do to a style: it never flips a decision.

The two prunings are compared where both return. By a degraded style more layers may be asked about a
feature, so a number out of range can be met that was not looked at before; and a feature that is kept now
may have a geometry that describes no shape.
-/
namespace StyledTiles

open Outcome

/-- With the unknown kept, a degraded style keeps what the style itself keeps. -/
theorem Style.Degraded.coveredBy {s s' : Style} (h : s.Degraded s') (z : Zoom) :
    s.CoveredBy s' z true where
  visible name hvisible := (h.isVisible name z).trans hvisible
  stays name f r r' hr hr' hstays := by
    rcases h.evaluate hr hr' with heq | hunknown
    · rw [heq]
      exact hstays
    · rw [hunknown]
      rfl

/-- What a malformed rule can do: the style loads with the same source-layers and the same layers drawn,
it decides as before or cannot tell, and what it cannot tell about is kept if so asked. Decisions are
compared where both are there, which they are where all numbers are in range; there it is left to the
codec whether a tile that was pruned before is pruned now. -/
theorem degraded_rule_never_flips {j k : Json} {s : Style} {path : Option String}
    (h : j.StyleDegraded k) (hs : (Style.ofJson j path).result = .ok s) :
    ∃ s', (Style.ofJson k path).result = .ok s' ∧
      s'.sourceLayers = s.sourceLayers ∧
      (∀ name z, List.Forall₂ Layer.Degraded
        ((s.layersFor name).filter fun l => l.isDrawn z)
        ((s'.layersFor name).filter fun l => l.isDrawn z)) ∧
      (∀ name z f d d', s.decision name z f = .ok d → s'.decision name z f = .ok d' →
        d' = d ∨ d' = .unknown) ∧
      (∀ name z f, z.Fits → f.Fits →
        ∃ d d', s.decision name z f = .ok d ∧ s'.decision name z f = .ok d') ∧
      ∀ (mode : PruningMode) (z : Zoom) {Blob : Type} (codec : Codec Blob) (blob out : Blob)
          (t : PrunedTile),
        Pruner.pruneBlob ⟨some s, mode, true⟩ z codec blob = .ok (out, t) →
        (∀ out' t', Pruner.pruneBlob ⟨some s', mode, true⟩ z codec blob = .ok (out', t') →
          List.SublistForall₂ PreparedLayer.Within t.layers t'.layers) ∧
        ∀ tile, codec.tileOf blob = .ok tile → z.Fits →
          (∀ layer ∈ tile, ∀ f ∈ layer.features, f.Legible) →
          ((∃ out' t', Pruner.pruneBlob ⟨some s', mode, true⟩ z codec blob = .ok (out', t')) ↔
            Pruner.Writes ⟨some s', mode, true⟩ z codec tile) := by
  obtain ⟨s', hs', degraded⟩ := Style.ofJson_degraded h path path hs
  refine ⟨s', hs', degraded.sourceLayers, degraded.drawn, ?_, ?_, ?_⟩
  · intro name z f d d' hd hd'
    exact degraded.decision hd hd'
  · intro name z f hz hf
    obtain ⟨r, hr⟩ := Style.evaluate_ok hf hz s name
    obtain ⟨r', hr'⟩ := Style.evaluate_ok hf hz s' name
    exact ⟨r.1, r'.1, map_eq_ok.mpr ⟨r, hr, rfl⟩, map_eq_ok.mpr ⟨r', hr', rfl⟩⟩
  · intro mode z Blob codec blob out t ht
    constructor
    · intro out' t' ht'
      exact Pruner.pruneBlob_covered (degraded.coveredBy z) ht ht'
    · intro tile decoded hz legible
      exact Pruner.pruneBlob_isOk_of_legible decoded hz legible

/-! ## A style with one rule -/

/-- A style document with one layer, whose rule is given. -/
def ruleStyle (rule : Json) : Json :=
  .obj [("layers", .arr [.obj [
    ("source", .str "tiles"), ("source-layer", .str "water"), ("filter", rule)]])]

def namedOrDeep : Json :=
  .arr [.str "any", .arr [.str "has", .str "name"],
    .arr [.str "==", .str "depth", .str "deep"]]

/-- The first alternative is misspelt. -/
def misspelt : Json :=
  .arr [.str "any", .arr [.str "hass", .str "name"],
    .arr [.str "==", .str "depth", .str "deep"]]

theorem ruleStyle_degraded : (ruleStyle namedOrDeep).StyleDegraded (ruleStyle misspelt) := by
  have hrule : namedOrDeep.FilterDegraded misspelt :=
    .within .any (.cons (.replaced _ rfl) (.cons (.same _) .nil))
  refine .entries rfl rfl (.cons (.filter ?_ (.inr ⟨?_, ?_, hrule⟩)) .nil)
  · intro key hkey
    have hne : (key == "filter") = false := by simpa using hkey
    simp [Json.member, List.lookup_cons, hne]
  · simp [Json.NoFilter, Json.member, List.lookup_cons, namedOrDeep]
  · simp [Json.NoFilter, Json.member, List.lookup_cons, misspelt]

theorem misspelt_rule_does_not_flip : (ruleStyle namedOrDeep).StyleDegraded (ruleStyle misspelt) ∧
    ∃ s s' d, (Style.ofJson (ruleStyle namedOrDeep) none).result = .ok s ∧
      (Style.ofJson (ruleStyle misspelt) none).result = .ok s' ∧
      s.decision "water" (.int 3) { properties := [("name", .str "Como")] } = .ok .yes ∧
      s'.decision "water" (.int 3) { properties := [("name", .str "Como")] } = .ok d ∧
      (d = .yes ∨ d = .unknown) := by
  have hfits : Feature.Fits { properties := [("name", .str "Como")] } :=
    ⟨by simp, by simp [Json.MembersFit]⟩
  obtain ⟨s', hs', _, _, alike, decides, _⟩ :=
    degraded_rule_never_flips ruleStyle_degraded
      (rfl : (Style.ofJson (ruleStyle namedOrDeep) none).result = .ok _)
  obtain ⟨d, d', hd, hd'⟩ := decides "water" (.int 3) _ (by decide) hfits
  obtain rfl : d = .yes := Except.ok.inj (hd.symm.trans rfl)
  exact ⟨ruleStyle_degraded, _, s', d', rfl, hs', hd, hd', alike _ _ _ _ _ hd hd'⟩

/-- A lake whose depth is out of range. -/
def deepLake : Feature :=
  { properties := [("name", .str "Como"), ("depth", .int (1 <<< 1024))] }

def misspeltStyle : Style :=
  ⟨[("water", [{
    sourceLayer := "water"
    filter := some (.combine .any [.unknown, .compare false (.get "depth") (.string "deep")]) }])]⟩

/-- A decision of the first style does not promise one of the second: where the rule that settled it
was misspelt, the other is asked, and the number it asks for may be out of range. -/
theorem degraded_rule_may_not_decide : ¬ ∀ (j k : Json) (path : Option String) (s s' : Style),
    j.StyleDegraded k → (Style.ofJson j path).result = .ok s →
    (Style.ofJson k path).result = .ok s' → ∀ name z f d, s.decision name z f = .ok d →
    ∃ d', s'.decision name z f = .ok d' ∧ (d' = d ∨ d' = .unknown) := by
  intro always
  obtain ⟨d', hd', _⟩ := always _ _ none _ misspeltStyle ruleStyle_degraded rfl rfl
    "water" (.int 3) deepLake .yes rfl
  have hfails : misspeltStyle.decision "water" (.int 3) deepLake = .error ⟨⟩ := by decide +kernel
  cases hfails.symm.trans hd'

end StyledTiles
