import Mathlib.Algebra.BigOperators.Group.List.Basic
import StyledTiles.Proofs.Tile.Looser

/-!
# The pruning modes

A mode takes more of a style into account than the one before it: nothing at all, which source-layers are
drawn, and what the filters of the drawn layers decide. So of a tile it leaves at most what the one before
leaves. Between the last two stands pruning by filters that keeps what these cannot tell about.

Whether that is kept changes no verdict: the same features are in doubt, and just these are kept besides.
Only filters can fail to decide; apart from that it is the codec alone that can fail, and then only at
what a mode leaves.
-/
namespace StyledTiles

namespace Pruner

variable {s : Style} {z : Zoom} {name : String} {tile : List TileLayer} {Blob : Type}
  {codec : Codec Blob} {blob : Blob}

/-! ## Modes that ask no filters -/

/-- Pruning goes by which layers are looked at and by what is judged of their features. -/
theorem pruneBlob_congr {p p' : Pruner}
    (looked : ∀ name, p'.keepsLayer z name = p.keepsLayer z name)
    (judged : ∀ name f, p'.judge z name f = p.judge z name f) :
    p'.pruneBlob z codec blob = p.pruneBlob z codec blob := by
  have tally : ∀ name features, p'.tally z codec name features = p.tally z codec name features := by
    intro name features
    induction features with
    | nil => rfl
    | cons f rest ih => rw [Pruner.tally, Pruner.tally, judged, ih]
  have prune : ∀ tile, p'.prune z codec tile = p.prune z codec tile := by
    intro tile
    induction tile with
    | nil => rfl
    | cons layer rest ih =>
      rw [Pruner.prune, Pruner.prune, pruneLayer, pruneLayer, looked, tally, ih]
  simp only [pruneBlob, prune]

/-- A style that is not used is as good as none. -/
theorem pruneBlob_without_style (s : Style) (mode : PruningMode) (k k' : Bool) :
    pruneBlob ⟨none, mode, k⟩ z codec blob = pruneBlob ⟨some s, .none, k'⟩ z codec blob :=
  pruneBlob_congr (fun _ => rfl) fun _ _ => rfl

/-- Where no filter is asked there is nothing unknown that could be kept. -/
theorem pruneBlob_by_layer (s : Style) (k k' : Bool) :
    pruneBlob ⟨some s, .layer, k⟩ z codec blob = pruneBlob ⟨some s, .layer, k'⟩ z codec blob :=
  pruneBlob_congr (fun _ => rfl) fun _ _ => rfl

/-- All features of a layer that is looked at are kept. -/
theorem keptOf_of_mode {p : Pruner} (hmode : p.mode ≠ .layerFilter) (layer : TileLayer) :
    p.keptOf z layer = layer.features := by
  refine List.filter_eq_self.mpr fun f _ => ?_
  have hverdict : p.verdict? z layer.name f = some (.yes, 0) := by
    unfold verdict?
    split
    next => exact absurd ‹p.mode = .layerFilter› hmode
    next => rfl
  rw [keeps_of_verdict hverdict]
  rfl

/-! ## Filters with and without the unknown -/

/-- The verdicts do not depend on what is to be done with the unknown. -/
theorem decides_keepUnknown (k k' : Bool) :
    Decides ⟨some s, .layerFilter, k'⟩ z tile ↔ Decides ⟨some s, .layerFilter, k⟩ z tile := Iff.rfl

theorem keeps_strict {f : DecodedFeature} (h : keeps ⟨some s, .layerFilter, false⟩ z name f = true) :
    keeps ⟨some s, .layerFilter, true⟩ z name f = true := by
  obtain ⟨view, ⟨d, n⟩, hview, hr, hstays⟩ := keeps_layerFilter.mp h
  refine keeps_layerFilter.mpr ⟨view, (d, n), hview, hr, ?_⟩
  cases d with
  | yes => rfl
  | unknown => rfl
  | no => exact hstays

/-- With the unknown kept, the features that are kept are those kept anyway and those in doubt. -/
theorem countP_keeps_unknown (features : List DecodedFeature) :
    features.countP (keeps ⟨some s, .layerFilter, true⟩ z name) =
      features.countP (keeps ⟨some s, .layerFilter, false⟩ z name) +
        features.countP (isUnknown ⟨some s, .layerFilter, false⟩ z name) := by
  induction features with
  | nil => rfl
  | cons f rest ih =>
    have one : (if keeps ⟨some s, .layerFilter, true⟩ z name f = true then 1 else 0) =
        (if keeps ⟨some s, .layerFilter, false⟩ z name f = true then 1 else 0) +
          (if isUnknown ⟨some s, .layerFilter, false⟩ z name f = true then 1 else 0) := by
      cases hverdict : verdict? ⟨some s, .layerFilter, false⟩ z name f with
      | none =>
        have hverdict' : verdict? ⟨some s, .layerFilter, true⟩ z name f = none := hverdict
        simp [keeps, isUnknown, hverdict, hverdict']
      | some r =>
        have hverdict' : verdict? ⟨some s, .layerFilter, true⟩ z name f = some r := hverdict
        rw [keeps_of_verdict hverdict, keeps_of_verdict hverdict', isUnknown_of_verdict hverdict]
        cases r.1 <;> simp [Decision.stays]
    rw [List.countP_cons, List.countP_cons, List.countP_cons, ih, one]
    omega

/-- Filters keep nothing of a layer that they would not be asked about. -/
theorem keptOf_of_not_keepsLayer {k : Bool} {layer : TileLayer}
    (h : keepsLayer ⟨some s, .layerFilter, k⟩ z layer.name = false) :
    keptOf ⟨some s, .layerFilter, k⟩ z layer = [] := by
  refine List.filter_eq_nil_iff.mpr fun f _ hkeeps => ?_
  obtain ⟨view, r, _, hr, hstays⟩ := keeps_layerFilter.mp hkeeps
  rw [Style.evaluate_of_not_visible h] at hr
  cases hr
  cases hstays

/-- The kept features can be counted over all layers of the tile. -/
theorem featuresKept_eq_sum {k : Bool} {t : PrunedTile}
    (h : Accounts ⟨some s, .layerFilter, k⟩ z tile t) : t.featuresKept =
      (tile.map fun l => l.features.countP (keeps ⟨some s, .layerFilter, k⟩ z l.name)).sum := by
  have length : ∀ l : TileLayer, (keptOf ⟨some s, .layerFilter, k⟩ z l).length =
      l.features.countP (keeps ⟨some s, .layerFilter, k⟩ z l.name) :=
    fun l => List.countP_eq_length_filter.symm
  simp only [h.featuresKept, ← length]
  refine sum_map_filter fun layer _ hleaves => ?_
  rcases not_leaves_iff.mp hleaves with hhidden | hempty
  · rw [keptOf_of_not_keepsLayer hhidden]
    rfl
  · rw [hempty]
    rfl

theorem featuresKept_unknown {strict lenient : PrunedTile}
    (hstrict : Accounts ⟨some s, .layerFilter, false⟩ z tile strict)
    (hlenient : Accounts ⟨some s, .layerFilter, true⟩ z tile lenient) :
    lenient.featuresKept = strict.featuresKept + strict.unknownFeatures := by
  rw [featuresKept_eq_sum hlenient, featuresKept_eq_sum hstrict, hstrict.unknownFeatures,
    ← List.sum_map_add]
  simp only [countP_keeps_unknown]

/-! ## The chain -/

theorem byLayer_within_whole (k k' : Bool) :
    LeavesWithin ⟨some s, .layer, k⟩ ⟨some s, .none, k'⟩ z tile := by
  refine leavesWithin (fun _ _ _ => rfl) fun layer _ _ => ?_
  rw [keptOf_of_mode (by simp), keptOf_of_mode (by simp)]

theorem byFilter_within_byLayer (k k' : Bool) :
    LeavesWithin ⟨some s, .layerFilter, k⟩ ⟨some s, .layer, k'⟩ z tile := by
  refine leavesWithin (fun _ _ h => h) fun layer _ _ => ?_
  rw [keptOf_of_mode (p := ⟨some s, .layer, k'⟩) (by simp)]
  exact List.filter_sublist

theorem strict_within_lenient :
    LeavesWithin ⟨some s, .layerFilter, false⟩ ⟨some s, .layerFilter, true⟩ z tile :=
  leavesWithin (fun _ _ h => h) fun layer _ _ =>
    List.monotone_filter_right layer.features fun _ => keeps_strict

/-- Without a style a blob is pruned as it is by a style that is not used, and by layers it is pruned
alike whatever is to be done with the unknown. Of each layer, what filters leave without the unknown is
within what they leave with it, this is within what is left by layers, and this within the whole; and
where filters prune the blob with and without the unknown, the counts differ by the features in doubt.
Where the blob is pruned by filters in one of these ways, and where all numbers are in range or no filters
are asked, it is the codec alone that decides whether it is pruned. -/
theorem modes_form_a_chain (s : Style) (z : Zoom) {Blob : Type} (codec : Codec Blob) {blob : Blob}
    {tile : List TileLayer} (decoded : codec.tileOf blob = .ok tile) :
    (∀ mode k out t, pruneBlob ⟨some s, mode, k⟩ z codec blob = .ok (out, t) →
      Accounts ⟨some s, mode, k⟩ z tile t ∧
        codec.blobOf (codec.isPacked blob) t.layers = .ok out) ∧
    (∀ mode k k', pruneBlob ⟨none, mode, k⟩ z codec blob =
      pruneBlob ⟨some s, .none, k'⟩ z codec blob) ∧
    (∀ k k', pruneBlob ⟨some s, .layer, k⟩ z codec blob =
      pruneBlob ⟨some s, .layer, k'⟩ z codec blob) ∧
    LeavesWithin ⟨some s, .layerFilter, false⟩ ⟨some s, .layerFilter, true⟩ z tile ∧
    (∀ k k', LeavesWithin ⟨some s, .layerFilter, k⟩ ⟨some s, .layer, k'⟩ z tile) ∧
    (∀ k k', LeavesWithin ⟨some s, .layer, k⟩ ⟨some s, .none, k'⟩ z tile) ∧
    (∀ out out' strict lenient,
      pruneBlob ⟨some s, .layerFilter, false⟩ z codec blob = .ok (out, strict) →
      pruneBlob ⟨some s, .layerFilter, true⟩ z codec blob = .ok (out', lenient) →
      lenient.unknownFeatures = strict.unknownFeatures ∧
      lenient.unknownOccurrences = strict.unknownOccurrences ∧
      lenient.featuresKept = strict.featuresKept + strict.unknownFeatures) ∧
    (∀ k k', (∃ out t, pruneBlob ⟨some s, .layerFilter, k⟩ z codec blob = .ok (out, t)) →
      ((∃ out t, pruneBlob ⟨some s, .layerFilter, k'⟩ z codec blob = .ok (out, t)) ↔
        Writes ⟨some s, .layerFilter, k'⟩ z codec tile)) ∧
    ∀ mode k, (mode = .layerFilter → z.Fits ∧ ∀ layer ∈ tile, ∀ f ∈ layer.features, f.Legible) →
      ((∃ out t, pruneBlob ⟨some s, mode, k⟩ z codec blob = .ok (out, t)) ↔
        Writes ⟨some s, mode, k⟩ z codec tile) := by
  have accounts : ∀ {p : Pruner} {out : Blob} {t : PrunedTile},
      p.pruneBlob z codec blob = .ok (out, t) → p.Accounts z tile t :=
    fun h => prune_accounts ((pruneBlob_of_decoded decoded).mp h).1
  refine ⟨?_, pruneBlob_without_style s, pruneBlob_by_layer s, strict_within_lenient,
    byFilter_within_byLayer, byLayer_within_whole, ?_, ?_, ?_⟩
  · intro mode k out t h
    exact ⟨accounts h, ((pruneBlob_of_decoded decoded).mp h).2⟩
  · intro out out' strict lenient hstrict hlenient
    have strictAccounts := accounts hstrict
    have lenientAccounts := accounts hlenient
    exact ⟨lenientAccounts.unknownFeatures.trans strictAccounts.unknownFeatures.symm,
      lenientAccounts.unknownOccurrences.trans strictAccounts.unknownOccurrences.symm,
      featuresKept_unknown strictAccounts lenientAccounts⟩
  · intro k k' hpruned
    obtain ⟨decides, _⟩ := (pruneBlob_isOk decoded).mp hpruned
    rw [pruneBlob_isOk decoded]
    exact and_iff_right ((decides_keepUnknown k k').mpr decides)
  · intro mode k asked
    exact pruneBlob_isOk_of_asked decoded asked

end Pruner

/-! ## Lakes in four prunings -/

def deepStyle : Style :=
  ⟨[("water", [
    { sourceLayer := "water", filter := some (.compare false (.get "depth") (.string "deep")) }])]⟩

/-- Whole, the tile has three features; two of them are lakes, and one lake is known to be deep. -/
theorem modes_for_lakes : Codec.bare.tileOf (true, lakeTile) = .ok lakeTile ∧
    ∃ (byLayer whole strict lenient : PrunedTile) (a b c d : Bool × List TileLayer),
      Pruner.pruneBlob ⟨some deepStyle, .layerFilter, false⟩ (.int 3) .bare (true, lakeTile) =
        .ok (a, strict) ∧
      Pruner.pruneBlob ⟨some deepStyle, .layerFilter, true⟩ (.int 3) .bare (true, lakeTile) =
        .ok (b, lenient) ∧
      Pruner.pruneBlob ⟨some deepStyle, .layer, true⟩ (.int 3) .bare (true, lakeTile) =
        .ok (c, byLayer) ∧
      Pruner.pruneBlob ⟨none, .layer, true⟩ (.int 3) .bare (true, lakeTile) = .ok (d, whole) ∧
      List.SublistForall₂ PreparedLayer.Within strict.layers lenient.layers ∧
      strict.featuresKept = 1 ∧ strict.unknownFeatures = 1 ∧ lenient.featuresKept = 2 ∧
      byLayer.featuresKept = 2 ∧ whole.featuresKept = 3 := by
  have decoded : Codec.bare.tileOf (true, lakeTile) = .ok lakeTile := rfl
  have hz : (Number.int 3).Fits := by decide
  obtain ⟨accounts, without, _, inside, _, _, counts, _, returns⟩ :=
    Pruner.modes_form_a_chain deepStyle (.int 3) .bare decoded
  have pruned : ∀ mode k, ∃ out t,
      Pruner.pruneBlob ⟨some deepStyle, mode, k⟩ (.int 3) .bare (true, lakeTile) = .ok (out, t) :=
    fun mode k => (returns mode k fun _ => ⟨hz, lakeTile_legible⟩).mpr (lakeTile_writes _ _)
  obtain ⟨a, strict, hstrict⟩ := pruned .layerFilter false
  obtain ⟨b, lenient, hlenient⟩ := pruned .layerFilter true
  obtain ⟨c, byLayer, hbyLayer⟩ := pruned .layer true
  obtain ⟨d, whole, hwhole⟩ := pruned .none true
  have within : List.SublistForall₂ PreparedLayer.Within strict.layers lenient.layers := by
    rw [(accounts _ _ _ _ hstrict).1.layers, (accounts _ _ _ _ hlenient).1.layers]
    exact inside.remainders
  have kept : strict.featuresKept = 1 :=
    (accounts _ _ _ _ hstrict).1.featuresKept.trans (by decide)
  have unknown : strict.unknownFeatures = 1 :=
    (accounts _ _ _ _ hstrict).1.unknownFeatures.trans (by decide)
  have lakes : byLayer.featuresKept = 2 :=
    (accounts _ _ _ _ hbyLayer).1.featuresKept.trans (by decide)
  have all : whole.featuresKept = 3 := (accounts _ _ _ _ hwhole).1.featuresKept.trans (by decide)
  obtain ⟨_, _, more⟩ := counts _ _ _ _ hstrict hlenient
  exact ⟨decoded, byLayer, whole, strict, lenient, a, b, c, d, hstrict, hlenient, hbyLayer,
    (without .layer true true).trans hwhole, within, kept, unknown, by omega, lakes, all⟩

end StyledTiles
