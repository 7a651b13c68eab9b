import StyledTiles.Proofs.Pairing
import StyledTiles.Proofs.Tile.Modes

/-!
# Pruning what was pruned

A pruned tile that is pruned again by the same pruner at the same zoom stays as it is. What is left of a
feature has the geometry, the properties and the identifier that the verdict on it was given by, so the
verdict is the same as before: what was kept is kept, and what was in doubt is in doubt. Every layer that
was left has such a feature, so it is left again. What had a shape has it again, and the encoder is given
the same layers, so the codec takes them.

Of the codec it is assumed only that it gives back the layers that were left. Nothing is assumed of the
type member of features, which is not encoded; it does not count for a feature with a GeoJSON geometry.
-/
namespace StyledTiles

/-! ## What a codec gives back -/

/-- The feature has the geometry, the properties and the identifier that were encoded. -/
structure PreparedFeature.ReadBack (e : PreparedFeature) (f : DecodedFeature) : Prop where
  geometry : f.geometry = e.geometry
  properties : f.properties.getD [] = e.properties
  id : f.id = e.id.getD .null

structure PreparedLayer.ReadBack (e : PreparedLayer) (layer : TileLayer) : Prop where
  name : layer.name = e.name
  extent : layer.extent = e.extent
  features : List.Forall₂ PreparedFeature.ReadBack e.features layer.features

/-- The tile has the layers that were encoded, in order. -/
def ReadBack (layers : List PreparedLayer) (tile : List TileLayer) : Prop :=
  List.Forall₂ PreparedLayer.ReadBack layers tile

/-! ## One feature -/

/-- The geometry is a GeoJSON object. -/
def DecodedFeature.HasGeoJson (f : DecodedFeature) : Prop := ∃ members, f.geometry = .document members

/-- The features present themselves alike to filters, and the same is left of both. -/
structure DecodedFeature.SameForPruning (f f' : DecodedFeature) : Prop where
  view : Feature.ofDecoded f' = Feature.ofDecoded f
  left : f'.unchanged = f.unchanged

theorem DecodedFeature.sameForPruning {f f' : DecodedFeature} (hf : f.HasGeoJson)
    (h : f.unchanged.ReadBack f') : f.SameForPruning f' := by
  obtain ⟨geometry, type, properties, id⟩ := f
  obtain ⟨members, rfl⟩ := hf
  obtain ⟨geometry', type', properties', id'⟩ := f'
  obtain ⟨hgeometry, hproperties, hid⟩ := h
  obtain rfl : geometry' = .document members := hgeometry
  have hproperties' : properties'.getD [] = properties.getD [] := by
    refine hproperties.trans ?_
    cases properties <;> rfl
  have hid' : id' = id := by
    refine hid.trans ?_
    cases id <;> rfl
  subst hid'
  constructor
  · rw [Feature.ofDecoded, Feature.ofDecoded, hproperties']
    rfl
  · rw [unchanged, unchanged, PreparedFeature.mk.injEq]
    refine ⟨rfl, ?_, rfl⟩
    cases properties' <;> cases properties <;> exact hproperties'

theorem Codec.shapes_of_unchanged_eq {Blob : Type} {codec : Codec Blob} {f f' : DecodedFeature}
    (h : f'.unchanged = f.unchanged) (hf : codec.Shapes f) : codec.Shapes f' := by
  have geometry : f'.geometry = f.geometry := congrArg PreparedFeature.geometry h
  rw [Shapes, geometry]
  exact hf

namespace Pruner

variable {p : Pruner} {z : Zoom}

section Features

variable {name : String} {f f' : DecodedFeature}

theorem verdict?_same (h : f.SameForPruning f') : p.verdict? z name f' = p.verdict? z name f := by
  unfold verdict?
  rw [h.view]

theorem keeps_same (h : f.SameForPruning f') : p.keeps z name f' = p.keeps z name f := by
  rw [keeps, keeps, verdict?_same h]

theorem isUnknown_same (h : f.SameForPruning f') : p.isUnknown z name f' = p.isUnknown z name f := by
  rw [isUnknown, isUnknown, verdict?_same h]

theorem verdict?_of_keeps (h : p.keeps z name f = true) : (p.verdict? z name f).isSome = true := by
  cases hverdict : p.verdict? z name f with
  | none => simp [keeps, hverdict] at h
  | some r => rfl

/-- A feature in doubt is kept exactly if the unknown is. -/
theorem keeps_of_isUnknown (h : p.isUnknown z name f = true) :
    p.keeps z name f = p.keepUnknown := by
  cases hverdict : p.verdict? z name f with
  | none => simp [isUnknown, hverdict] at h
  | some r =>
    rw [isUnknown_of_verdict hverdict, decide_eq_true_eq] at h
    rw [keeps_of_verdict hverdict, h]
    rfl

end Features

/-! ## One layer -/

/-- Among the kept features those in doubt are all of them if the unknown is kept, and none if not. -/
theorem countP_isUnknown_keptOf (layer : TileLayer) :
    (p.keptOf z layer).countP (p.isUnknown z layer.name) =
      if p.keepUnknown then layer.features.countP (p.isUnknown z layer.name) else 0 := by
  unfold keptOf
  rw [List.countP_filter]
  cases hkeep : p.keepUnknown with
  | true =>
    refine List.countP_congr fun f _ => ?_
    rw [Bool.and_eq_true]
    exact ⟨And.left, fun h => ⟨h, (keeps_of_isUnknown h).trans hkeep⟩⟩
  | false =>
    refine List.countP_eq_zero.mpr fun f _ hf => ?_
    rw [Bool.and_eq_true] at hf
    have hkeeps := (keeps_of_isUnknown hf.1).trans hkeep
    rw [hf.2] at hkeeps
    cases hkeeps

/-- The second layer is left whole, as what was left of the first. -/
structure LeftAgain (p : Pruner) (z : Zoom) (layer layer' : TileLayer) : Prop where
  name : layer'.name = layer.name
  remainder : p.remainder z layer' = p.remainder z layer
  leaves : p.leaves z layer' = true
  kept : p.keptOf z layer' = layer'.features
  length : (p.keptOf z layer').length = (p.keptOf z layer).length
  unknown : layer'.features.countP (p.isUnknown z layer'.name) =
    (p.keptOf z layer).countP (p.isUnknown z layer.name)

theorem leftAgain {layer layer' : TileLayer} (hleaves : p.leaves z layer = true)
    (hgeometry : ∀ f ∈ layer.features, f.HasGeoJson)
    (h : (p.remainder z layer).ReadBack layer') : p.LeftAgain z layer layer' := by
  obtain ⟨name', extent', features'⟩ := layer'
  obtain ⟨hname, hextent, hfeatures⟩ := h
  obtain rfl : name' = layer.name := hname
  obtain rfl : extent' = layer.extent := hextent
  obtain ⟨hlooked, hsome⟩ := leaves_iff.mp hleaves
  have same : List.Forall₂ (fun f f' => p.keeps z layer.name f = true ∧ f.SameForPruning f')
      (p.keptOf z layer) features' := by
    have hkept : ∀ f ∈ p.keptOf z layer, p.keeps z layer.name f = true ∧ f.HasGeoJson := by
      intro f hf
      obtain ⟨hmem, hkeeps⟩ := List.mem_filter.mp hf
      exact ⟨hkeeps, hgeometry f hmem⟩
    have hread := List.forall₂_map_left_iff.mp hfeatures
    refine ((List.forall₂_and_left _ _).mpr ⟨hkept, hread⟩).imp fun f f' hf => ?_
    exact ⟨hf.1.1, DecodedFeature.sameForPruning hf.1.2 hf.2⟩
  have allKept : ∀ f' ∈ features', p.keeps z layer.name f' = true :=
    forall_mem_of_forall₂ same fun f f' h => (keeps_same h.2).trans h.1
  have kept : p.keptOf z ⟨layer.name, layer.extent, features'⟩ = features' :=
    List.filter_eq_self.mpr allKept
  have length : features'.length = (p.keptOf z layer).length := same.length_eq.symm
  refine ⟨rfl, ?_, ?_, kept, by rw [kept, length], ?_⟩
  · rw [Pruner.remainder, Pruner.remainder, kept]
    rw [map_eq_of_forall₂ same fun f f' h => h.2.left]
  · refine leaves_iff.mpr ⟨hlooked, ?_⟩
    rw [kept, ← List.length_pos_iff, length, List.length_pos_iff]
    exact hsome
  · have hmap : features'.map (p.isUnknown z layer.name) =
        (p.keptOf z layer).map (p.isUnknown z layer.name) :=
      map_eq_of_forall₂ same fun f f' h => isUnknown_same h.2
    have hcount := congrArg (List.countP id) hmap
    rw [List.countP_map, List.countP_map] at hcount
    exact hcount

/-- Where the geometries that were left had shapes, those that are left again have them. -/
theorem LeftAgain.shapes {layer layer' : TileLayer} {Blob : Type} {codec : Codec Blob}
    (h : p.LeftAgain z layer layer') (shapes : ∀ f ∈ p.keptOf z layer, codec.Shapes f) :
    ∀ f ∈ p.keptOf z layer', codec.Shapes f := by
  have same : (p.keptOf z layer').map DecodedFeature.unchanged =
      (p.keptOf z layer).map DecodedFeature.unchanged := congrArg PreparedLayer.features h.remainder
  intro f' hf'
  obtain ⟨f, hf, heq⟩ := List.mem_map.mp (same ▸ List.mem_map_of_mem hf')
  exact Codec.shapes_of_unchanged_eq heq.symm (shapes f hf)

/-! ## The tile -/

/-- Of the layers that leave nothing no feature that is kept is in doubt. -/
theorem sum_isUnknown_left (tile : List TileLayer) :
    ((tile.filter (p.leaves z)).map fun l => (p.keptOf z l).countP (p.isUnknown z l.name)).sum =
      (tile.map fun l => (p.keptOf z l).countP (p.isUnknown z l.name)).sum := by
  refine sum_map_filter fun layer _ hleaves => ?_
  rcases not_leaves_iff.mp hleaves with hhidden | hempty
  · refine List.countP_eq_zero.mpr fun f _ => ?_
    rw [(counts_nothing_of_not_keepsLayer hhidden f).1]
    exact Bool.false_ne_true
  · rw [hempty]
    rfl

/-- What was left of a tile is left again, and all of it: nothing is dropped, and the features in doubt
are those that were in doubt and kept. -/
theorem prune_leftAgain {Blob : Type} {codec : Codec Blob} {tile tile' : List TileLayer}
    {t : PrunedTile} (ht : p.Accounts z tile t) (shapes : p.Shapes z codec tile)
    (h : List.Forall₂ (p.LeftAgain z) (tile.filter (p.leaves z)) tile') :
    ∃ t', p.prune z codec tile' = .ok t' ∧ t'.layers = t.layers ∧ t'.layersKept = t.layersKept ∧
      t'.layersDropped = [] ∧ t'.featuresKept = t.featuresKept ∧ t'.featuresDropped = 0 ∧
      t'.unknownFeatures = if p.keepUnknown then t.unknownFeatures else 0 := by
  have left : ∀ layer' ∈ tile', p.leaves z layer' = true ∧ p.keptOf z layer' = layer'.features :=
    forall_mem_of_forall₂ h fun layer layer' hagain => ⟨hagain.leaves, hagain.kept⟩
  have decides : p.Decides z tile' := by
    intro layer' hlayer' _ f hf
    rw [← (left layer' hlayer').2] at hf
    exact verdict?_of_keeps (List.mem_filter.mp hf).2
  have shapes' : p.Shapes z codec tile' := by
    intro layer' hlayer' _
    obtain ⟨layer, hlayer, again⟩ := exists_partner_right h layer' hlayer'
    obtain ⟨hmem, hleaves⟩ := List.mem_filter.mp hlayer
    exact again.shapes (shapes layer hmem hleaves)
  obtain ⟨t', hpruned⟩ := prune_ok_iff.mpr ⟨decides, shapes'⟩
  have ht' := prune_accounts hpruned
  have hall : tile'.filter (p.leaves z) = tile' :=
    List.filter_eq_self.mpr fun layer' hlayer' => (left layer' hlayer').1
  have hnone : (tile'.filter fun l => !p.leaves z l) = [] := by
    refine List.filter_eq_nil_iff.mpr fun layer' hlayer' => ?_
    rw [(left layer' hlayer').1]
    exact Bool.false_ne_true
  have hkept : t'.featuresKept = t.featuresKept := by
    rw [ht'.featuresKept, hall, ht.featuresKept]
    exact congrArg List.sum (map_eq_of_forall₂ h fun _ _ hagain => hagain.length)
  have hfeatures : t'.featuresKept = (tile'.map fun l => l.features.length).sum := by
    rw [ht'.featuresKept, hall]
    refine congrArg List.sum (List.map_congr_left fun layer' hlayer' => ?_)
    rw [(left layer' hlayer').2]
  have htotal := ht'.features
  refine ⟨t', hpruned, ?_, ?_, by rw [ht'.layersDropped, hnone]; rfl, hkept, by omega, ?_⟩
  · rw [ht'.layers, hall, ht.layers]
    exact map_eq_of_forall₂ h fun _ _ hagain => hagain.remainder
  · rw [ht'.layersKept, hall, ht.layersKept]
    exact map_eq_of_forall₂ h fun _ _ hagain => hagain.name
  · rw [ht'.unknownFeatures, ht.unknownFeatures,
      map_eq_of_forall₂ h fun _ _ hagain => hagain.unknown, sum_isUnknown_left]
    cases hkeep : p.keepUnknown with
    | true => simp [countP_isUnknown_keptOf, hkeep]
    | false => simp [countP_isUnknown_keptOf, hkeep]

/-- A pruned blob that is pruned again leaves the same layers, and nothing is dropped: the features in doubt
are those that were in doubt before, if they were kept. The blob is the same if it is packed as before. -/
theorem pruning_is_idempotent {p : Pruner} {z : Zoom} {Blob : Type} {codec : Codec Blob}
    {blob out : Blob} {t : PrunedTile} {tile tile' : List TileLayer}
    (decoded : codec.tileOf blob = .ok tile)
    (geometries : ∀ layer ∈ tile, ∀ f ∈ layer.features, f.HasGeoJson)
    (pruned : p.pruneBlob z codec blob = .ok (out, t))
    (decoded' : codec.tileOf out = .ok tile') (readBack : ReadBack t.layers tile') :
    codec.blobOf (codec.isPacked blob) t.layers = .ok out ∧
    ∃ out' t', p.pruneBlob z codec out = .ok (out', t') ∧
      codec.blobOf (codec.isPacked out) t.layers = .ok out' ∧
      (codec.isPacked out = codec.isPacked blob → out' = out) ∧
      t'.layers = t.layers ∧ t'.layersKept = t.layersKept ∧ t'.layersDropped = [] ∧
      t'.featuresKept = t.featuresKept ∧ t'.featuresDropped = 0 ∧
      t'.unknownFeatures = if p.keepUnknown then t.unknownFeatures else 0 := by
  obtain ⟨hprune, hout⟩ := (pruneBlob_of_decoded decoded).mp pruned
  obtain ⟨_, shapes, accounts⟩ := prune_eq_ok.mp hprune
  have left : ∀ layer ∈ tile.filter (p.leaves z),
      p.leaves z layer = true ∧ ∀ f ∈ layer.features, f.HasGeoJson := by
    intro layer hlayer
    obtain ⟨hmem, hleaves⟩ := List.mem_filter.mp hlayer
    exact ⟨hleaves, geometries layer hmem⟩
  rw [ReadBack, accounts.layers, List.forall₂_map_left_iff] at readBack
  have leftAgain : List.Forall₂ (p.LeftAgain z) (tile.filter (p.leaves z)) tile' :=
    ((List.forall₂_and_left _ _).mpr ⟨left, readBack⟩).imp
      fun layer layer' h => Pruner.leftAgain h.1.1 h.1.2 h.2
  obtain ⟨t', hagain, layers, rest⟩ := prune_leftAgain accounts shapes leftAgain
  -- The encoder took these layers before, and packing does not fail.
  obtain ⟨out', hout'⟩ : ∃ out', codec.blobOf (codec.isPacked out) t.layers = .ok out' :=
    Codec.blobOf_isOk.mpr (Codec.blobOf_isOk.mp ⟨out, hout⟩)
  refine ⟨hout, out', t', (pruneBlob_of_decoded decoded').mpr ⟨hagain, ?_⟩, hout', ?_, layers, rest⟩
  · rw [layers]
    exact hout'
  · intro same
    rw [same, hout] at hout'
    exact (Except.ok.inj hout').symm

end Pruner

/-! ## Lakes pruned twice -/

theorem readBack_bare (layers : List PreparedLayer) : ReadBack layers (readBackBare layers) := by
  refine List.forall₂_map_right_iff.mpr (List.forall₂_same.mpr fun layer _ => ?_)
  exact ⟨rfl, rfl, List.forall₂_map_right_iff.mpr
    (List.forall₂_same.mpr fun f _ => ⟨rfl, rfl, rfl⟩)⟩

/-- A deep lake, a shallow one and one without a depth, and a road. -/
def soundedTile : List TileLayer := [
  ⟨"water", 4096, [
    { geometry := lakeOutline, properties := some [("depth", .str "deep")], id := .int 7 },
    { geometry := lakeOutline, properties := some [("depth", .str "shallow")] },
    { geometry := lakeOutline }]⟩,
  ⟨"roads", 4096, [{ geometry := roadLine }]⟩]

theorem soundedTile_hasGeoJson : ∀ layer ∈ soundedTile, ∀ f ∈ layer.features, f.HasGeoJson := by
  simp [soundedTile, lakeOutline, roadLine, DecodedFeature.HasGeoJson]

/-- The shallow lake and the road go at once; the lake in doubt stays in doubt. -/
theorem lakes_pruned_twice : Codec.bare.tileOf (true, soundedTile) = .ok soundedTile ∧
    (∀ layer ∈ soundedTile, ∀ f ∈ layer.features, f.HasGeoJson) ∧
    ∃ out t t',
      Pruner.pruneBlob ⟨some deepStyle, .layerFilter, true⟩ (.int 3) .bare (true, soundedTile) =
        .ok (out, t) ∧
      Codec.bare.tileOf out = .ok (readBackBare t.layers) ∧
      ReadBack t.layers (readBackBare t.layers) ∧
      Pruner.pruneBlob ⟨some deepStyle, .layerFilter, true⟩ (.int 3) .bare out = .ok (out, t') ∧
      t'.layers = t.layers ∧ t.layersDropped = ["roads"] ∧ t'.layersDropped = [] ∧
      t.featuresDropped = 2 ∧ t'.featuresKept = 2 ∧ t'.unknownFeatures = 1 := by
  have decoded : Codec.bare.tileOf (true, soundedTile) = .ok soundedTile := rfl
  obtain ⟨out, t, pruned, decoded', packed, dropped, kept, gone, unknown⟩ : ∃ out t,
      Pruner.pruneBlob ⟨some deepStyle, .layerFilter, true⟩ (.int 3) .bare (true, soundedTile) =
        .ok (out, t) ∧ Codec.bare.tileOf out = .ok (readBackBare t.layers) ∧
        Codec.bare.isPacked out = Codec.bare.isPacked (true, soundedTile) ∧
        t.layersDropped = ["roads"] ∧ t.featuresKept = 2 ∧ t.featuresDropped = 2 ∧
        t.unknownFeatures = 1 := ⟨_, _, rfl, rfl, rfl, rfl, rfl, rfl, rfl⟩
  have readBack := readBack_bare t.layers
  obtain ⟨_, out', t', again, _, same, layers, _, dropped', kept', _, unknown'⟩ :=
    Pruner.pruning_is_idempotent decoded soundedTile_hasGeoJson pruned decoded' readBack
  rw [same packed] at again
  exact ⟨decoded, soundedTile_hasGeoJson, out, t, t', pruned, decoded', readBack, again, layers, dropped,
    dropped', gone, kept'.trans kept, unknown'.trans unknown⟩

end StyledTiles
