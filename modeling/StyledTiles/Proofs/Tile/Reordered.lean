import StyledTiles.Proofs.Style.Reordered
import StyledTiles.Proofs.Tile.Looser

/-!
# Pruning by a reordered style

Two pruners treat a tile alike when they look at the features of the same layers, keep the same of these
features, and are in doubt about the same. They then leave the same of the tile, and their counts differ
at most in how many layers of the style were in doubt. A style and a reordered one make such pruners,
wherever both prune the tile.

The number of layers in doubt is not compared: it is counted up to the first layer that accepts.
-/
namespace StyledTiles

open Outcome

namespace Pruner

/-- Of the layers of a tile the same are looked at, and of their features the same are kept, and the
same are in doubt. -/
structure TreatsAlike (p p' : Pruner) (z : Zoom) (tile : List TileLayer) : Prop where
  looked : ∀ layer ∈ tile, p'.keepsLayer z layer.name = p.keepsLayer z layer.name
  judged : ∀ layer ∈ tile, p.keepsLayer z layer.name = true → ∀ f ∈ layer.features,
    p'.keeps z layer.name f = p.keeps z layer.name f ∧
    p'.isUnknown z layer.name f = p.isUnknown z layer.name f

namespace TreatsAlike

variable {p p' : Pruner} {z : Zoom} {tile : List TileLayer} {layer : TileLayer}

theorem keptOf (h : p.TreatsAlike p' z tile) (hlayer : layer ∈ tile)
    (hlooked : p.keepsLayer z layer.name = true) : p'.keptOf z layer = p.keptOf z layer :=
  List.filter_congr fun f hf => (h.judged layer hlayer hlooked f hf).1

theorem leaves (h : p.TreatsAlike p' z tile) (hlayer : layer ∈ tile) :
    p'.leaves z layer = p.leaves z layer := by
  rw [Pruner.leaves, Pruner.leaves, h.looked layer hlayer]
  cases hlooked : p.keepsLayer z layer.name with
  | false => rfl
  | true => rw [h.keptOf hlayer hlooked]

theorem remainder (h : p.TreatsAlike p' z tile) (hlayer : layer ∈ tile)
    (hleaves : p.leaves z layer = true) : p'.remainder z layer = p.remainder z layer := by
  rw [Pruner.remainder, Pruner.remainder, h.keptOf hlayer (leaves_iff.mp hleaves).1]

theorem filter_leaves (h : p.TreatsAlike p' z tile) :
    tile.filter (p'.leaves z) = tile.filter (p.leaves z) :=
  List.filter_congr fun _ hlayer => h.leaves hlayer

/-- The same layers are left, with the same features. -/
theorem remainders (h : p.TreatsAlike p' z tile) :
    (tile.filter (p'.leaves z)).map (p'.remainder z) =
      (tile.filter (p.leaves z)).map (p.remainder z) := by
  rw [h.filter_leaves]
  refine List.map_congr_left fun layer hlayer => ?_
  obtain ⟨hmem, hleaves⟩ := List.mem_filter.mp hlayer
  exact h.remainder hmem hleaves

/-- So the codec takes what either leaves, or what neither does. -/
theorem writes_iff (h : p.TreatsAlike p' z tile) {Blob : Type} {codec : Codec Blob} :
    p'.Writes z codec tile ↔ p.Writes z codec tile := by
  have shapes : p'.Shapes z codec tile ↔ p.Shapes z codec tile := by
    refine forall₂_congr fun _ hlayer => ?_
    rw [h.leaves hlayer]
    refine forall_congr' fun hleaves => ?_
    rw [h.keptOf hlayer (leaves_iff.mp hleaves).1]
  constructor
  · rintro ⟨hshapes, hencodes⟩
    exact ⟨shapes.mp hshapes, h.remainders ▸ hencodes⟩
  · rintro ⟨hshapes, hencodes⟩
    exact ⟨shapes.mpr hshapes, h.remainders ▸ hencodes⟩

/-- Of a layer that is not looked at no feature is in doubt. -/
theorem countP_isUnknown (h : p.TreatsAlike p' z tile) (hlayer : layer ∈ tile) :
    layer.features.countP (p'.isUnknown z layer.name) =
      layer.features.countP (p.isUnknown z layer.name) := by
  refine List.countP_congr fun f hf => ?_
  cases hlooked : p.keepsLayer z layer.name with
  | true => rw [(h.judged layer hlayer hlooked f hf).2]
  | false =>
    have hlooked' := (h.looked layer hlayer).trans hlooked
    rw [(counts_nothing_of_not_keepsLayer hlooked f).1,
      (counts_nothing_of_not_keepsLayer hlooked' f).1]

/-- The outcomes are the same but for the number of layers in doubt. -/
theorem outcome (h : p.TreatsAlike p' z tile) {t t' : PrunedTile} (ht : p.Accounts z tile t)
    (ht' : p'.Accounts z tile t') : t' = { t with unknownOccurrences := t'.unknownOccurrences } := by
  have hleft := h.filter_leaves
  have hgone : (tile.filter fun l => !p'.leaves z l) = tile.filter fun l => !p.leaves z l :=
    List.filter_congr fun layer hlayer => by rw [h.leaves hlayer]
  have hlayers : t'.layers = t.layers := by rw [ht.layers, ht'.layers, h.remainders]
  have hkept : t'.featuresKept = t.featuresKept := by
    rw [ht.featuresKept, ht'.featuresKept, hleft]
    refine congrArg List.sum (List.map_congr_left fun layer hlayer => ?_)
    obtain ⟨hin, hleaves⟩ := List.mem_filter.mp hlayer
    rw [h.keptOf hin (leaves_iff.mp hleaves).1]
  have hdropped : t'.featuresDropped = t.featuresDropped := by
    have hfeatures := ht'.features.trans ht.features.symm
    omega
  have hunknown : t'.unknownFeatures = t.unknownFeatures := by
    rw [ht.unknownFeatures, ht'.unknownFeatures]
    exact congrArg List.sum (List.map_congr_left fun layer hlayer => h.countP_isUnknown hlayer)
  rw [PrunedTile.mk.injEq]
  exact ⟨hlayers, by rw [ht.layersKept, ht'.layersKept, hleft],
    by rw [ht.layersDropped, ht'.layersDropped, hgone], hkept, hdropped, hunknown, rfl⟩

end TreatsAlike

variable {s s' : Style} {z : Zoom} {mode : PruningMode} {keepUnknown : Bool}

theorem treatsAlike_of_reordered (h : s.Reordered s') {tile : List TileLayer}
    (decides : Decides ⟨some s, mode, keepUnknown⟩ z tile)
    (decides' : Decides ⟨some s', mode, keepUnknown⟩ z tile) :
    TreatsAlike ⟨some s, mode, keepUnknown⟩ ⟨some s', mode, keepUnknown⟩ z tile := by
  have looked : ∀ name, keepsLayer ⟨some s', mode, keepUnknown⟩ z name =
      keepsLayer ⟨some s, mode, keepUnknown⟩ z name := by
    intro name
    cases mode with
    | none => rfl
    | layer => exact h.isVisible name z
    | layerFilter => exact h.isVisible name z
  refine ⟨fun layer _ => looked layer.name, fun layer hlayer hlooked f hf => ?_⟩
  have hverdict := decides layer hlayer hlooked f hf
  have hverdict' := decides' layer hlayer ((looked layer.name).trans hlooked) f hf
  obtain ⟨r, hr⟩ := Option.isSome_iff_exists.mp hverdict
  obtain ⟨r', hr'⟩ := Option.isSome_iff_exists.mp hverdict'
  have hsame : r'.1 = r.1 := by
    cases mode with
    | none =>
      cases hr
      cases hr'
      rfl
    | layer =>
      cases hr
      cases hr'
      rfl
    | layerFilter =>
      obtain ⟨view, hview, heval⟩ := verdict?_eq_some.mp hr
      obtain ⟨view', hview', heval'⟩ := verdict?_eq_some.mp hr'
      obtain rfl : view = view' := Except.ok.inj (hview.symm.trans hview')
      exact h.evaluate_fst heval heval'
  rw [keeps_of_verdict hr, keeps_of_verdict hr', isUnknown_of_verdict hr, isUnknown_of_verdict hr',
    hsame]
  exact ⟨rfl, rfl⟩

/-- What a blob is pruned to, where it is pruned by both styles. -/
theorem pruneBlob_reordered (h : s.Reordered s') {Blob : Type} {codec : Codec Blob}
    {blob out out' : Blob} {t t' : PrunedTile}
    (ht : pruneBlob ⟨some s, mode, keepUnknown⟩ z codec blob = .ok (out, t))
    (ht' : pruneBlob ⟨some s', mode, keepUnknown⟩ z codec blob = .ok (out', t')) :
    out' = out ∧ t' = { t with unknownOccurrences := t'.unknownOccurrences } := by
  obtain ⟨tile, decoded, pruned, hout⟩ := pruneBlob_eq_ok.mp ht
  obtain ⟨pruned', hout'⟩ := (pruneBlob_of_decoded decoded).mp ht'
  obtain ⟨decides, _, accounts⟩ := prune_eq_ok.mp pruned
  obtain ⟨decides', _, accounts'⟩ := prune_eq_ok.mp pruned'
  have same := (treatsAlike_of_reordered h decides decides').outcome accounts accounts'
  have layers : t'.layers = t.layers := by rw [same]
  rw [layers, hout] at hout'
  exact ⟨(Except.ok.inj hout').symm, same⟩

end Pruner

/-- What reordering a style can do: it loads with the same source-layers and the same of them drawn,
nothing but a yes may be lost of a decision, and then to a number out of range, and a tile is pruned to
the same remainder and with the same counts except that of layers in doubt. Decisions are there where all
numbers are in range. There, and without filters asked anywhere, a tile that decodes is pruned in both
orders or in none: in both exactly if the codec takes what is left. -/
theorem layer_order_does_not_matter {j k : Json} {s : Style} {path : Option String}
    (h : j.StyleReordered k) (hs : (Style.ofJson j path).result = .ok s) :
    ∃ s', (Style.ofJson k path).result = .ok s' ∧
      s'.sourceLayers.Perm s.sourceLayers ∧
      (∀ name z, s'.isVisible name z = s.isVisible name z) ∧
      (∀ name z f d d', s.decision name z f = .ok d → s'.decision name z f = .ok d' → d' = d) ∧
      (∀ name z f d, d ≠ .yes →
        (s'.decision name z f = .ok d ↔ s.decision name z f = .ok d)) ∧
      (∀ name z f, z.Fits → f.Fits →
        ∃ d, s.decision name z f = .ok d ∧ s'.decision name z f = .ok d) ∧
      ∀ (mode : PruningMode) (keepUnknown : Bool) (z : Zoom) {Blob : Type} (codec : Codec Blob)
          (blob : Blob),
        (∀ out out' t t',
          Pruner.pruneBlob ⟨some s, mode, keepUnknown⟩ z codec blob = .ok (out, t) →
          Pruner.pruneBlob ⟨some s', mode, keepUnknown⟩ z codec blob = .ok (out', t') →
          out' = out ∧ t' = { t with unknownOccurrences := t'.unknownOccurrences }) ∧
        ∀ tile, codec.tileOf blob = .ok tile →
          (mode = .layerFilter → z.Fits ∧ ∀ layer ∈ tile, ∀ f ∈ layer.features, f.Legible) →
          ((∃ out t, Pruner.pruneBlob ⟨some s, mode, keepUnknown⟩ z codec blob = .ok (out, t)) ↔
            Pruner.Writes ⟨some s, mode, keepUnknown⟩ z codec tile) ∧
          ((∃ out t, Pruner.pruneBlob ⟨some s', mode, keepUnknown⟩ z codec blob = .ok (out, t)) ↔
            Pruner.Writes ⟨some s, mode, keepUnknown⟩ z codec tile) := by
  obtain ⟨s', hs', reordered⟩ := Style.ofJson_reordered h path path hs
  refine ⟨s', hs', reordered.sourceLayers, reordered.isVisible, ?_, ?_, ?_, ?_⟩
  · intro name z f d d' hd hd'
    exact reordered.decision_eq hd hd'
  · intro name z f d hne
    exact ⟨reordered.symm.decision_of_ne_yes hne, reordered.decision_of_ne_yes hne⟩
  · intro name z f hz hf
    obtain ⟨d, hd⟩ := Style.decision_ok hf hz s name
    obtain ⟨d', hd'⟩ := Style.decision_ok hf hz s' name
    obtain rfl := reordered.decision_eq hd hd'
    exact ⟨d', hd, hd'⟩
  · intro mode keepUnknown z Blob codec blob
    constructor
    · intro out out' t t' ht ht'
      exact Pruner.pruneBlob_reordered reordered ht ht'
    · intro tile decoded asked
      have alike := Pruner.treatsAlike_of_reordered reordered
        (Pruner.decides_of_asked (p := ⟨some s, mode, keepUnknown⟩) asked)
        (Pruner.decides_of_asked (p := ⟨some s', mode, keepUnknown⟩) asked)
      refine ⟨Pruner.pruneBlob_isOk_of_asked decoded asked, ?_⟩
      rw [← alike.writes_iff]
      exact Pruner.pruneBlob_isOk_of_asked decoded asked

/-! ## Two rules for lakes -/

/-- An entry for all lakes. -/
def anyLakes : Json := .obj [("source", .str "tiles"), ("source-layer", .str "water")]

def rulesInOrder (entries : List Json) : Json := .obj [("layers", .arr entries)]

theorem rulesInOrder_swap (j k : Json) :
    (rulesInOrder [j, k]).StyleReordered (rulesInOrder [k, j]) :=
  .entries rfl rfl (.swap k j [])

/-- Asked first, the rule for deep lakes is in doubt about a lake of which no depth is known. -/
theorem order_of_rules_for_lakes :
    (rulesInOrder [deepLakes, anyLakes]).StyleReordered (rulesInOrder [anyLakes, deepLakes]) ∧
    ∃ s s', (Style.ofJson (rulesInOrder [deepLakes, anyLakes]) none).result = .ok s ∧
      (Style.ofJson (rulesInOrder [anyLakes, deepLakes]) none).result = .ok s' ∧
      s'.sourceLayers.Perm s.sourceLayers ∧
      s.decision "water" (.int 3) {} = .ok .yes ∧ s'.decision "water" (.int 3) {} = .ok .yes ∧
      ∃ out t t', Pruner.pruneBlob ⟨some s, .layerFilter, false⟩ (.int 3) .bare (true, lakeTile) =
          .ok (out, t) ∧
        Pruner.pruneBlob ⟨some s', .layerFilter, false⟩ (.int 3) .bare (true, lakeTile) =
          .ok (out, t') ∧
        t' = { t with unknownOccurrences := t'.unknownOccurrences } ∧
        t.unknownOccurrences = 1 ∧ t'.unknownOccurrences = 0 := by
  have hs : (Style.ofJson (rulesInOrder [deepLakes, anyLakes]) none).result = .ok _ := rfl
  obtain ⟨s', hs', sourceLayers, _, _, _, decides, pruned⟩ :=
    layer_order_does_not_matter (rulesInOrder_swap deepLakes anyLakes) hs
  have hz : (Number.int 3).Fits := by decide
  obtain ⟨d, hd, hd'⟩ := decides "water" (.int 3) {} hz ⟨by simp, by simp [Json.MembersFit]⟩
  obtain rfl : d = .yes := Except.ok.inj (hd.symm.trans rfl)
  obtain ⟨same, returns⟩ := pruned .layerFilter false (.int 3) .bare (true, lakeTile)
  have decoded : Codec.bare.tileOf (true, lakeTile) = .ok lakeTile := rfl
  obtain ⟨before, after⟩ := returns lakeTile decoded fun _ => ⟨hz, lakeTile_legible⟩
  obtain ⟨out, t, ht⟩ := before.mpr (lakeTile_writes _ _)
  obtain ⟨out', t', ht'⟩ := after.mpr (lakeTile_writes _ _)
  obtain ⟨rfl, hsame⟩ := same _ _ _ _ ht ht'
  refine ⟨rulesInOrder_swap _ _, _, s', hs, hs', sourceLayers, hd, hd', out', t, t', ht, ht', hsame,
    ?_, ?_⟩
  · obtain ⟨h, _⟩ := (Pruner.pruneBlob_of_decoded decoded).mp ht
    exact (Pruner.prune_accounts h).unknownOccurrences.trans (by decide)
  · cases hs'
    obtain ⟨h, _⟩ := (Pruner.pruneBlob_of_decoded decoded).mp ht'
    exact (Pruner.prune_accounts h).unknownOccurrences.trans (by decide)

/-- The rule for deep lakes last, and first. -/
def anyThenDeep : Style :=
  ⟨[("water", [{ sourceLayer := "water" },
    { sourceLayer := "water", filter := some (.compare false (.get "depth") (.string "deep")) }])]⟩

def deepThenAny : Style :=
  ⟨[("water", [
    { sourceLayer := "water", filter := some (.compare false (.get "depth") (.string "deep")) },
    { sourceLayer := "water" }])]⟩

/-- A yes may be lost: the rule that was not asked after it is asked first, and the number it asks for
may be out of range. -/
theorem reordered_style_may_not_decide :
    ¬ ∀ (j k : Json) (path : Option String) (s s' : Style), j.StyleReordered k →
      (Style.ofJson j path).result = .ok s → (Style.ofJson k path).result = .ok s' →
      ∀ name z f, s'.decision name z f = s.decision name z f := by
  intro always
  have same := always _ _ none anyThenDeep deepThenAny
    (rulesInOrder_swap anyLakes deepLakes) rfl rfl "water" (.int 3) fathomlessLake
  have fails : deepThenAny.decision "water" (.int 3) fathomlessLake = .error ⟨⟩ := by decide +kernel
  have decides : anyThenDeep.decision "water" (.int 3) fathomlessLake = .ok .yes := rfl
  rw [fails, decides] at same
  cases same

end StyledTiles
