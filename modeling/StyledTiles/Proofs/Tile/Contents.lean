import Mathlib.Algebra.Ring.Nat
import StyledTiles.Proofs.Style.Deciding
import StyledTiles.Tile.Pruning

/-!
# What is left of a tile

`Pruner.verdict?` is what is decided about one feature, taken by itself. From the verdicts follows which
features of a layer are kept and which layers of a tile leave something, and `Pruner.Accounts` says that
the remainder of a tile and all its counts are the ones that follow. Pruning gives exactly the remainder
that accounts for the tile, whenever there is a verdict on each feature that is looked at and the codec
takes what is left.

The verdicts are not required to be those of a particular style, and nothing is said about the octets
that a codec makes of the remainder.
-/
namespace StyledTiles

open Outcome

/-- There is a view of the feature, and its numbers are in range. -/
def DecodedFeature.Legible (f : DecodedFeature) : Prop :=
  ∃ view, Feature.ofDecoded f = .ok view ∧ view.Fits

/-- The feature with its geometry, its properties, which may be none, and its identifier unless null. -/
def DecodedFeature.unchanged (f : DecodedFeature) : PreparedFeature where
  geometry := f.geometry
  properties := match f.properties with
    | some properties => properties
    | none => []
  id := match f.id with
    | .null => none
    | id => some id

namespace Codec

variable {Blob : Type} (codec : Codec Blob)

/-- If the geometry is a GeoJSON object, it describes a shape. -/
def Shapes (f : DecodedFeature) : Prop :=
  ∀ members, f.geometry = .document members → codec.shape members = .ok ()

/-- The encoder takes the layers, if there are any. -/
def Encodes (layers : List PreparedLayer) : Prop :=
  layers ≠ [] → ∃ blob, codec.encode layers = .ok blob

variable {codec}

/-- Preparing a feature changes nothing of it, and fails only for want of a shape. -/
theorem prepare_eq_ok {f : DecodedFeature} {e : PreparedFeature} :
    codec.prepare f = .ok e ↔ codec.Shapes f ∧ f.unchanged = e := by
  obtain ⟨geometry, type, properties, id⟩ := f
  have same : PreparedFeature.mk geometry (properties.getD []) (if id.isNull then none else some id) =
      DecodedFeature.unchanged ⟨geometry, type, properties, id⟩ := by
    rw [DecodedFeature.unchanged, PreparedFeature.mk.injEq]
    refine ⟨rfl, ?_, ?_⟩
    · cases properties <;> rfl
    · cases id <;> rfl
  rw [prepare]
  simp only [same]
  cases geometry with
  | document members =>
    cases h : codec.shape members with
    | ok => simp [Shapes, h, bind, Except.bind, pure, Except.pure]
    | error message => simp [Shapes, h, bind, Except.bind]
  | shape name => simp [Shapes, pure, Except.pure]
  | other => simp [Shapes, pure, Except.pure]

theorem blobOf_isOk {packed : Bool} {layers : List PreparedLayer} :
    (∃ out, codec.blobOf packed layers = .ok out) ↔ codec.Encodes layers := by
  cases layers with
  | nil => simp [blobOf, Encodes, bind, Except.bind, pure, Except.pure]
  | cons layer rest =>
    cases h : codec.encode (layer :: rest) with
    | ok blob => simp [blobOf, Encodes, h, bind, Except.bind, pure, Except.pure]
    | error message => simp [blobOf, Encodes, h, bind, Except.bind]

end Codec

namespace Pruner

variable (p : Pruner) (z : Zoom)

/-- The decision on a feature and the number of layers in doubt: those of the style where its filters
are asked, and yes without a doubt elsewhere. There is none where the style fails to decide. -/
def verdict? (name : String) (f : DecodedFeature) : Option (Decision × Nat) :=
  match p.style, p.mode with
  | some style, .layerFilter =>
    match Feature.ofDecoded f with
    | .ok view => (style.evaluate name z view).toOption
    | .error _ => none
  | _, _ => some (.yes, 0)

/-- A feature is kept if the verdict is yes, or unknown and such features are to be kept. -/
def keeps (name : String) (f : DecodedFeature) : Bool :=
  match p.verdict? z name f with
  | some (.yes, _) => true
  | some (.unknown, _) => p.keepUnknown
  | _ => false

def isUnknown (name : String) (f : DecodedFeature) : Bool :=
  match p.verdict? z name f with
  | some (.unknown, _) => true
  | _ => false

def occurrences (name : String) (f : DecodedFeature) : Nat :=
  match p.verdict? z name f with
  | some (_, n) => n
  | none => 0

def keptOf (layer : TileLayer) : List DecodedFeature := layer.features.filter (p.keeps z layer.name)

/-- Whether something is left of a layer: it passes the layer check and has a kept feature. -/
def leaves (layer : TileLayer) : Bool := p.keepsLayer z layer.name && !(p.keptOf z layer).isEmpty

/-- What is left of a layer that leaves something. -/
def remainder (layer : TileLayer) : PreparedLayer :=
  ⟨layer.name, layer.extent, (p.keptOf z layer).map DecodedFeature.unchanged⟩

/-- There is a verdict on each feature of a layer that passes the layer check. -/
def Decides (layers : List TileLayer) : Prop :=
  ∀ layer ∈ layers, p.keepsLayer z layer.name = true →
    ∀ f ∈ layer.features, (p.verdict? z layer.name f).isSome = true

variable {Blob : Type} (codec : Codec Blob)

/-- The geometries of the features that are left describe shapes. -/
def Shapes (layers : List TileLayer) : Prop :=
  ∀ layer ∈ layers, p.leaves z layer = true → ∀ f ∈ p.keptOf z layer, codec.Shapes f

/-- The codec takes what is left of a tile. -/
structure Writes (tile : List TileLayer) : Prop where
  shapes : p.Shapes z codec tile
  encodes : codec.Encodes ((tile.filter (p.leaves z)).map (p.remainder z))

/-- The outcome is the one that follows from the layers of the tile and the verdicts. -/
structure Accounts (tile : List TileLayer) (t : PrunedTile) : Prop where
  layers : t.layers = (tile.filter (p.leaves z)).map (p.remainder z)
  layersKept : t.layersKept = (tile.filter (p.leaves z)).map TileLayer.name
  layersDropped : t.layersDropped = (tile.filter fun l => !p.leaves z l).map TileLayer.name
  featuresKept : t.featuresKept =
    ((tile.filter (p.leaves z)).map fun l => (p.keptOf z l).length).sum
  features : t.featuresKept + t.featuresDropped = (tile.map fun l => l.features.length).sum
  unknownFeatures : t.unknownFeatures =
    (tile.map fun l => l.features.countP (p.isUnknown z l.name)).sum
  unknownOccurrences : t.unknownOccurrences =
    (tile.map fun l => (l.features.map (p.occurrences z l.name)).sum).sum

variable {p z codec}

/-! ## One feature -/

theorem judge_eq_ok {name : String} {f : DecodedFeature} {j : Judgement} :
    p.judge z name f = .ok j ↔
      ∃ d, p.verdict? z name f = some d ∧ judgementOf p.keepUnknown d = j := by
  unfold judge verdict?
  cases p.style with
  | none => simp [judgementOf]
  | some style =>
    cases p.mode with
    | none => simp [judgementOf]
    | layer => simp [judgementOf]
    | layerFilter =>
      cases Feature.ofDecoded f with
      | error e => simp
      | ok view =>
        cases h : style.evaluate name z view with
        | error e => simp [h, Except.toOption]
        | ok d => simp [h, Except.toOption]

/-- The judgement on a feature says whether it is kept and what it counts for. -/
theorem judge_eq_of_ok {name : String} {f : DecodedFeature} {j : Judgement}
    (h : p.judge z name f = .ok j) :
    j = ⟨p.keeps z name f, p.isUnknown z name f, p.occurrences z name f⟩ := by
  obtain ⟨⟨d, n⟩, hd, rfl⟩ := judge_eq_ok.mp h
  cases d with
  | yes => simp [judgementOf, keeps, isUnknown, occurrences, hd]
  | unknown => simp [judgementOf, keeps, isUnknown, occurrences, hd]
  | no => simp [judgementOf, keeps, isUnknown, occurrences, hd]

theorem judge_ok_iff {name : String} {f : DecodedFeature} :
    (∃ j, p.judge z name f = .ok j) ↔ (p.verdict? z name f).isSome = true := by
  rw [Option.isSome_iff_exists]
  constructor
  · rintro ⟨j, hj⟩
    obtain ⟨d, hd, -⟩ := judge_eq_ok.mp hj
    exact ⟨d, hd⟩
  · rintro ⟨d, hd⟩
    exact ⟨_, judge_eq_ok.mpr ⟨d, hd, rfl⟩⟩

theorem verdict?_isSome (name : String) {f : DecodedFeature} (hz : z.Fits) (hf : f.Legible) :
    (p.verdict? z name f).isSome = true := by
  obtain ⟨view, hview, fits⟩ := hf
  unfold verdict?
  split
  next style _ _ =>
    obtain ⟨d, hd⟩ := Style.evaluate_ok fits hz style name
    simp [hview, hd, Except.toOption]
  next => rfl

/-- What is kept is prepared without a change. -/
theorem prepareIf_eq_ok {keep : Bool} {f : DecodedFeature} {stays : Option PreparedFeature} :
    prepareIf codec keep f = .ok stays ↔ (keep = true → codec.Shapes f) ∧
      (if keep then some f.unchanged else none) = stays := by
  cases keep with
  | true =>
    rw [prepareIf, if_pos rfl, mapError_eq_ok, map_eq_ok]
    simp only [Codec.prepare_eq_ok, and_assoc, exists_eq_left', exists_and_left, forall_const, if_true]
  | false => simp [prepareIf]

/-- A layer that fails the layer check has no feature that counts as unknown. -/
theorem counts_nothing_of_not_keepsLayer {name : String} (h : p.keepsLayer z name = false)
    (f : DecodedFeature) : p.isUnknown z name f = false ∧ p.occurrences z name f = 0 := by
  have hv : p.verdict? z name f = none ∨ ∃ d, d ≠ .unknown ∧ p.verdict? z name f = some (d, 0) := by
    unfold verdict?
    split
    next style hstyle hmode =>
      have hidden : style.isVisible name z = false := by simpa [keepsLayer, hstyle, hmode] using h
      cases Feature.ofDecoded f with
      | error e => exact .inl rfl
      | ok view =>
        refine .inr ⟨.no, by decide, ?_⟩
        simp [Style.evaluate_of_not_visible hidden, Except.toOption]
    next => exact .inr ⟨.yes, by decide, rfl⟩
  rcases hv with hv | ⟨d, hd, hv⟩
  · simp [isUnknown, occurrences, hv]
  · cases d with
    | yes => simp [isUnknown, occurrences, hv]
    | unknown => exact absurd rfl hd
    | no => simp [isUnknown, occurrences, hv]

/-! ## One layer -/

theorem leaves_iff {layer : TileLayer} : p.leaves z layer = true ↔
    p.keepsLayer z layer.name = true ∧ p.keptOf z layer ≠ [] := by
  rw [leaves, Bool.and_eq_true, Bool.not_eq_true', List.isEmpty_eq_false_iff]

theorem not_leaves_iff {layer : TileLayer} : p.leaves z layer = false ↔
    p.keepsLayer z layer.name = false ∨ p.keptOf z layer = [] := by
  rw [leaves, Bool.and_eq_false_iff, Bool.not_eq_false', List.isEmpty_iff]

/-- The tally of a layer's features: the kept ones in order, and counts over all of them. -/
theorem tally_says {name : String} {features : List DecodedFeature} {t : FeatureTally}
    (h : p.tally z codec name features = .ok t) :
    t.kept = (features.filter (p.keeps z name)).map DecodedFeature.unchanged ∧
      t.kept.length + t.dropped = features.length ∧
      t.unknownFeatures = features.countP (p.isUnknown z name) ∧
      t.unknownOccurrences = (features.map (p.occurrences z name)).sum := by
  induction features generalizing t with
  | nil =>
    obtain rfl : {} = t := by simpa [tally] using h
    simp
  | cons f rest ih =>
    rw [tally, bind_eq_ok] at h
    obtain ⟨j, hj, h⟩ := h
    obtain ⟨stays, hstays, h⟩ := bind_eq_ok.mp h
    obtain ⟨s, hs, h⟩ := bind_eq_ok.mp h
    obtain rfl := pure_eq_ok.mp h
    obtain ⟨kept, balance, unknown, occurrences⟩ := ih hs
    obtain rfl := judge_eq_of_ok hj
    obtain ⟨-, rfl⟩ := prepareIf_eq_ok.mp hstays
    cases hk : p.keeps z name f with
    | true =>
      refine ⟨?_, ?_, ?_, ?_⟩
      · simp [FeatureTally.push, hk, kept]
      · simp only [FeatureTally.push, if_true, Option.toList_some, List.singleton_append,
          List.length_cons]
        omega
      · simp [FeatureTally.push, unknown, List.countP_cons, Nat.add_comm]
      · simp [FeatureTally.push, occurrences]
    | false =>
      refine ⟨?_, ?_, ?_, ?_⟩
      · simp [FeatureTally.push, hk, kept]
      · simp only [FeatureTally.push, Bool.false_eq_true, if_false, Option.toList_none,
          List.nil_append, List.length_cons]
        omega
      · simp [FeatureTally.push, unknown, List.countP_cons, Nat.add_comm]
      · simp [FeatureTally.push, occurrences]

/-- A tally is taken where there is a verdict on each feature, and a shape of each that is kept. -/
theorem tally_ok_iff {name : String} {features : List DecodedFeature} :
    (∃ t, p.tally z codec name features = .ok t) ↔
      (∀ f ∈ features, (p.verdict? z name f).isSome = true) ∧
        ∀ f ∈ features.filter (p.keeps z name), codec.Shapes f := by
  induction features with
  | nil => simp [tally]
  | cons f rest ih =>
    have split : (∃ t, p.tally z codec name (f :: rest) = .ok t) ↔
        ((∃ j, p.judge z name f = .ok j) ∧ (p.keeps z name f = true → codec.Shapes f)) ∧
          ∃ t, p.tally z codec name rest = .ok t := by
      constructor
      · rintro ⟨t, ht⟩
        rw [tally, bind_eq_ok] at ht
        obtain ⟨j, hj, ht⟩ := ht
        obtain ⟨stays, hstays, ht⟩ := bind_eq_ok.mp ht
        obtain ⟨s, hs, -⟩ := bind_eq_ok.mp ht
        refine ⟨⟨⟨j, hj⟩, ?_⟩, s, hs⟩
        rw [judge_eq_of_ok hj] at hstays
        exact (prepareIf_eq_ok.mp hstays).1
      · rintro ⟨⟨⟨j, hj⟩, hshape⟩, s, hs⟩
        have hstays : prepareIf codec j.keep f =
            .ok (if j.keep then some f.unchanged else none) := by
          refine prepareIf_eq_ok.mpr ⟨?_, rfl⟩
          rw [judge_eq_of_ok hj]
          exact hshape
        exact ⟨_, bind_eq_ok.mpr ⟨j, hj, bind_eq_ok.mpr ⟨_, hstays, bind_eq_ok.mpr ⟨s, hs, rfl⟩⟩⟩⟩
    rw [split, ih, judge_ok_iff, List.forall_mem_cons]
    cases hk : p.keeps z name f with
    | true =>
      rw [List.filter_cons_of_pos hk, List.forall_mem_cons]
      simp only [forall_const]
      tauto
    | false =>
      rw [List.filter_cons_of_neg (by simp [hk])]
      simp only [Bool.false_eq_true, false_implies, and_true]
      tauto

theorem pruneLayer_ok_iff {layer : TileLayer} :
    (∃ t, p.pruneLayer z codec layer = .ok t) ↔
      (p.keepsLayer z layer.name = true →
        ∀ f ∈ layer.features, (p.verdict? z layer.name f).isSome = true) ∧
      (p.leaves z layer = true → ∀ f ∈ p.keptOf z layer, codec.Shapes f) := by
  unfold pruneLayer
  split
  next h =>
    have htally : (∃ t, (p.tally z codec layer.name layer.features).map (outcomeOf layer) = .ok t) ↔
        ∃ s, p.tally z codec layer.name layer.features = .ok s := by
      simp only [map_eq_ok]
      rw [exists_comm]
      simp
    rw [htally, tally_ok_iff, leaves_iff]
    constructor
    · rintro ⟨verdicts, shapes⟩
      exact ⟨fun _ => verdicts, fun _ => shapes⟩
    · rintro ⟨verdicts, shapes⟩
      refine ⟨verdicts h, fun f hf => ?_⟩
      exact shapes ⟨h, List.ne_nil_of_mem hf⟩ f hf
  next h => simp [leaves_iff, h]

theorem pruneLayer_accounts {layer : TileLayer} {t : PrunedTile}
    (h : p.pruneLayer z codec layer = .ok t) : p.Accounts z [layer] t := by
  unfold pruneLayer at h
  split at h
  next hlayer =>
    obtain ⟨s, hs, rfl⟩ := map_eq_ok.mp h
    obtain ⟨kept, balance, unknown, occurrences⟩ := tally_says hs
    have hkept : s.kept = (p.keptOf z layer).map DecodedFeature.unchanged := kept
    cases hempty : s.kept.isEmpty with
    | true =>
      have hnone : p.keptOf z layer = [] := by simpa [hkept] using hempty
      have hleaves : p.leaves z layer = false := not_leaves_iff.mpr (.inr hnone)
      have hdropped : s.dropped = layer.features.length := by
        rw [List.isEmpty_iff.mp hempty] at balance
        simpa using balance
      constructor <;> simp [outcomeOf, hempty, hleaves, hdropped, unknown, occurrences]
    | false =>
      have hsome : p.keptOf z layer ≠ [] := by simpa [hkept] using hempty
      have hleaves : p.leaves z layer = true := leaves_iff.mpr ⟨hlayer, hsome⟩
      rw [hkept, List.length_map] at balance
      constructor <;>
        simp [outcomeOf, hsome, hleaves, hkept, remainder, balance, unknown, occurrences]
  next hlayer =>
    rw [Bool.not_eq_true] at hlayer
    cases h
    have hleaves : p.leaves z layer = false := not_leaves_iff.mpr (.inl hlayer)
    have hcounts := counts_nothing_of_not_keepsLayer hlayer
    have hunknown : layer.features.countP (p.isUnknown z layer.name) = 0 := by
      simp [List.countP_eq_zero, hcounts]
    have hoccurrences : (layer.features.map (p.occurrences z layer.name)).sum = 0 := by
      rw [List.map_congr_left fun f _ => (hcounts f).2, List.map_const', List.sum_replicate_nat]
      exact Nat.mul_zero _
    constructor <;> simp [hleaves, hunknown, hoccurrences]

/-! ## All layers -/

/-- Layers for which nothing is counted can be left out of a count. -/
theorem sum_map_filter {α : Type} {q : α → Bool} {count : α → Nat} {l : List α}
    (h : ∀ a ∈ l, q a = false → count a = 0) : ((l.filter q).map count).sum = (l.map count).sum := by
  induction l with
  | nil => rfl
  | cons a l ih =>
    rw [List.forall_mem_cons] at h
    cases hq : q a with
    | true => simp [hq, ih h.2]
    | false => simp [hq, ih h.2, h.1 hq]

theorem Accounts.nil : p.Accounts z [] {} := by
  constructor <;> rfl

/-- Outcomes of the parts of a tile join to that of the whole. -/
theorem Accounts.append {front back : List TileLayer} {s t : PrunedTile}
    (hs : p.Accounts z front s) (ht : p.Accounts z back t) :
    p.Accounts z (front ++ back) (s.join t) where
  layers := by simp [PrunedTile.join, hs.layers, ht.layers]
  layersKept := by simp [PrunedTile.join, hs.layersKept, ht.layersKept]
  layersDropped := by simp [PrunedTile.join, hs.layersDropped, ht.layersDropped]
  featuresKept := by simp [PrunedTile.join, hs.featuresKept, ht.featuresKept]
  features := by
    have h := hs.features
    have h' := ht.features
    simp only [PrunedTile.join, List.map_append, List.sum_append]
    omega
  unknownFeatures := by simp [PrunedTile.join, hs.unknownFeatures, ht.unknownFeatures]
  unknownOccurrences := by simp [PrunedTile.join, hs.unknownOccurrences, ht.unknownOccurrences]

/-- At most one outcome accounts for a tile. -/
theorem Accounts.unique {layers : List TileLayer} {s t : PrunedTile} (hs : p.Accounts z layers s)
    (ht : p.Accounts z layers t) : s = t := by
  have hdropped : s.featuresDropped = t.featuresDropped := by
    have hkept := hs.featuresKept.trans ht.featuresKept.symm
    have hfeatures := hs.features.trans ht.features.symm
    omega
  rw [PrunedTile.mk.injEq]
  exact ⟨hs.layers.trans ht.layers.symm, hs.layersKept.trans ht.layersKept.symm,
    hs.layersDropped.trans ht.layersDropped.symm, hs.featuresKept.trans ht.featuresKept.symm,
    hdropped, hs.unknownFeatures.trans ht.unknownFeatures.symm,
    hs.unknownOccurrences.trans ht.unknownOccurrences.symm⟩

theorem prune_ok_iff {layers : List TileLayer} :
    (∃ t, p.prune z codec layers = .ok t) ↔ p.Decides z layers ∧ p.Shapes z codec layers := by
  induction layers with
  | nil => simp [prune, Decides, Shapes]
  | cons layer rest ih =>
    have split : (∃ t, p.prune z codec (layer :: rest) = .ok t) ↔
        (∃ t, p.pruneLayer z codec layer = .ok t) ∧ ∃ t, p.prune z codec rest = .ok t := by
      constructor
      · rintro ⟨t, ht⟩
        rw [prune, bind_eq_ok] at ht
        obtain ⟨here, hhere, ht⟩ := ht
        obtain ⟨there, hthere, -⟩ := bind_eq_ok.mp ht
        exact ⟨⟨here, hhere⟩, there, hthere⟩
      · rintro ⟨⟨here, hhere⟩, there, hthere⟩
        exact ⟨_, bind_eq_ok.mpr ⟨here, hhere, bind_eq_ok.mpr ⟨there, hthere, rfl⟩⟩⟩
    have decides : p.Decides z (layer :: rest) ↔ (p.keepsLayer z layer.name = true →
        ∀ f ∈ layer.features, (p.verdict? z layer.name f).isSome = true) ∧ p.Decides z rest :=
      List.forall_mem_cons
    have shapes : p.Shapes z codec (layer :: rest) ↔ (p.leaves z layer = true →
        ∀ f ∈ p.keptOf z layer, codec.Shapes f) ∧ p.Shapes z codec rest := List.forall_mem_cons
    rw [split, pruneLayer_ok_iff, ih, decides, shapes]
    exact and_and_and_comm

theorem prune_accounts {layers : List TileLayer} {t : PrunedTile}
    (h : p.prune z codec layers = .ok t) : p.Accounts z layers t := by
  induction layers generalizing t with
  | nil =>
    obtain rfl : {} = t := by simpa [prune] using h
    exact Accounts.nil
  | cons layer rest ih =>
    rw [prune, bind_eq_ok] at h
    obtain ⟨here, hhere, h⟩ := h
    obtain ⟨there, hthere, h⟩ := bind_eq_ok.mp h
    obtain rfl := pure_eq_ok.mp h
    exact (pruneLayer_accounts hhere).append (ih hthere)

theorem prune_eq_ok {layers : List TileLayer} {t : PrunedTile} :
    p.prune z codec layers = .ok t ↔
      p.Decides z layers ∧ p.Shapes z codec layers ∧ p.Accounts z layers t := by
  constructor
  · intro h
    obtain ⟨decides, shapes⟩ := prune_ok_iff.mp ⟨t, h⟩
    exact ⟨decides, shapes, prune_accounts h⟩
  · rintro ⟨decides, shapes, accounts⟩
    obtain ⟨s, hs⟩ := prune_ok_iff.mpr ⟨decides, shapes⟩
    rw [hs, (prune_accounts hs).unique accounts]

theorem decides_of_legible {layers : List TileLayer} (hz : z.Fits)
    (h : ∀ layer ∈ layers, ∀ f ∈ layer.features, f.Legible) : p.Decides z layers := by
  intro layer hlayer _ f hf
  exact verdict?_isSome layer.name hz (h layer hlayer f hf)

section Blobs

variable {blob out : Blob} {tile : List TileLayer} {t : PrunedTile}

theorem pruneBlob_eq_ok : p.pruneBlob z codec blob = .ok (out, t) ↔
    ∃ tile, codec.tileOf blob = .ok tile ∧ p.prune z codec tile = .ok t ∧
      codec.blobOf (codec.isPacked blob) t.layers = .ok out := by
  constructor
  · intro h
    rw [pruneBlob, bind_eq_ok] at h
    obtain ⟨tile, htile, h⟩ := h
    obtain ⟨t', ht', h⟩ := bind_eq_ok.mp h
    obtain ⟨out', hout', h⟩ := bind_eq_ok.mp h
    cases pure_eq_ok.mp h
    exact ⟨tile, mapError_eq_ok.mp htile, ht', mapError_eq_ok.mp hout'⟩
  · rintro ⟨tile, htile, ht, hout⟩
    rw [pruneBlob, bind_eq_ok]
    exact ⟨tile, mapError_eq_ok.mpr htile, bind_eq_ok.mpr ⟨t, ht, bind_eq_ok.mpr
      ⟨out, mapError_eq_ok.mpr hout, rfl⟩⟩⟩

/-- Pruning a blob that decodes is pruning its tile. -/
theorem pruneBlob_of_decoded (decoded : codec.tileOf blob = .ok tile) :
    p.pruneBlob z codec blob = .ok (out, t) ↔ p.prune z codec tile = .ok t ∧
      codec.blobOf (codec.isPacked blob) t.layers = .ok out := by
  rw [pruneBlob_eq_ok]
  constructor
  · rintro ⟨_, decoded', pruned⟩
    cases decoded.symm.trans decoded'
    exact pruned
  · intro pruned
    exact ⟨tile, decoded, pruned⟩

/-- A blob that decodes is pruned where there are verdicts and the codec takes what is left. -/
theorem pruneBlob_isOk (decoded : codec.tileOf blob = .ok tile) :
    (∃ out t, p.pruneBlob z codec blob = .ok (out, t)) ↔
      p.Decides z tile ∧ p.Writes z codec tile := by
  constructor
  · rintro ⟨out, t, h⟩
    obtain ⟨hprune, hout⟩ := (pruneBlob_of_decoded decoded).mp h
    obtain ⟨decides, shapes, accounts⟩ := prune_eq_ok.mp hprune
    refine ⟨decides, shapes, ?_⟩
    rw [← accounts.layers]
    exact Codec.blobOf_isOk.mp ⟨out, hout⟩
  · rintro ⟨decides, shapes, encodes⟩
    obtain ⟨t, ht⟩ := prune_ok_iff.mpr ⟨decides, shapes⟩
    rw [← (prune_accounts ht).layers] at encodes
    obtain ⟨out, hout⟩ := Codec.blobOf_isOk.mpr encodes
    exact ⟨out, t, (pruneBlob_of_decoded decoded).mpr ⟨ht, hout⟩⟩

/-- Where all numbers are in range, it is the codec alone that can fail. -/
theorem pruneBlob_isOk_of_legible (decoded : codec.tileOf blob = .ok tile) (hz : z.Fits)
    (legible : ∀ layer ∈ tile, ∀ f ∈ layer.features, f.Legible) :
    (∃ out t, p.pruneBlob z codec blob = .ok (out, t)) ↔ p.Writes z codec tile := by
  rw [pruneBlob_isOk decoded]
  exact and_iff_right (p.decides_of_legible hz legible)

end Blobs

/-- Pruning a blob returns exactly the remainder that accounts for its tile. Where the blob decodes and
all numbers are in range it does return, if the features that are left have shapes and the encoder takes
the layers that are left. -/
theorem pruneBlob_returns_the_remainder {Blob : Type} (codec : Codec Blob) (p : Pruner) (z : Zoom)
    (blob : Blob) :
    (∀ out t, p.pruneBlob z codec blob = .ok (out, t) ↔
      ∃ tile, codec.tileOf blob = .ok tile ∧ p.Decides z tile ∧ p.Shapes z codec tile ∧
        p.Accounts z tile t ∧ codec.blobOf (codec.isPacked blob) t.layers = .ok out) ∧
    ∀ tile, codec.tileOf blob = .ok tile → z.Fits →
      (∀ layer ∈ tile, ∀ f ∈ layer.features, f.Legible) → p.Writes z codec tile →
      ∃ out t, p.pruneBlob z codec blob = .ok (out, t) := by
  constructor
  · intro out t
    simp only [pruneBlob_eq_ok, prune_eq_ok, and_assoc]
  · intro tile decoded hz legible writes
    exact (pruneBlob_isOk_of_legible decoded hz legible).mpr writes

end Pruner

/-! ## A tile of lakes

Blobs that are tiles already, a style that draws the lakes with a depth, and a tile with one such lake,
one without a depth, and a road. -/

/-- What is decoded of layers that are held as they are. -/
def readBackBare (layers : List PreparedLayer) : List TileLayer := layers.map fun layer =>
  ⟨layer.name, layer.extent,
    layer.features.map fun f => ⟨f.geometry, .null, some f.properties, f.id.getD .null⟩⟩

/-- Tiles that are packed or not. A shape has coordinates, and a line more than one point. -/
def Codec.bare : Codec (Bool × List TileLayer) where
  octets blob := if blob.1 then packedMark else blob.2.map fun _ => 0x1a
  empty := (false, [])
  octets_empty := rfl
  pack blob := (true, blob.2)
  unpack blob := .ok (false, blob.2)
  decode blob := .ok blob.2
  shape members :=
    match Json.member members "type", Json.member members "coordinates" with
    | .str "LineString", .arr [_] => .error "a line has more than one point"
    | _, .arr _ => .ok ()
    | _, _ => .error "a shape has coordinates"
  encode layers := .ok (false, readBackBare layers)

theorem Codec.bare_encodes (layers : List PreparedLayer) : Codec.bare.Encodes layers :=
  fun _ => ⟨_, rfl⟩

def lakeStyle : Style :=
  ⟨[("water", [{ sourceLayer := "water", filter := some (.present false "depth") }])]⟩

def pointAt (x y : Int) : Json := .arr [.int x, .int y]

def lakeOutline : Geometry := .document [("type", .str "Polygon"),
  ("coordinates", .arr [.arr [pointAt 0 0, pointAt 0 9, pointAt 9 9, pointAt 0 0]])]

def roadLine : Geometry := .document [("type", .str "LineString"),
  ("coordinates", .arr [pointAt 0 0, pointAt 9 9])]

def lakeTile : List TileLayer := [
  ⟨"water", 4096, [
    { geometry := lakeOutline, properties := some [("depth", .str "deep")] },
    { geometry := lakeOutline, properties := some [] }]⟩,
  ⟨"roads", 4096, [{ geometry := roadLine }]⟩]

def lakePruner : Pruner := ⟨some lakeStyle, .layerFilter, true⟩

theorem lakeTile_legible : ∀ layer ∈ lakeTile, ∀ f ∈ layer.features, f.Legible := by
  intro layer hlayer f hf
  simp only [lakeTile, List.mem_cons, List.not_mem_nil, or_false] at hlayer
  rcases hlayer with rfl | rfl
  · simp only [List.mem_cons, List.not_mem_nil, or_false] at hf
    rcases hf with rfl | rfl
    · exact ⟨_, rfl, by simp, by simp [Json.MembersFit]⟩
    · exact ⟨_, rfl, by simp, by simp [Json.MembersFit]⟩
  · simp only [List.mem_cons, List.not_mem_nil, or_false] at hf
    subst hf
    exact ⟨_, rfl, by simp, by simp [Json.MembersFit]⟩

/-- All lakes and roads have shapes, so it does not matter which of them are left. -/
theorem lakeTile_writes (p : Pruner) (z : Zoom) : p.Writes z .bare lakeTile := by
  refine ⟨fun layer hlayer _ f hf => ?_, Codec.bare_encodes _⟩
  have hf : f ∈ layer.features := (List.mem_filter.mp hf).1
  have outlines : ∀ layer ∈ lakeTile, ∀ f ∈ layer.features,
      f.geometry = lakeOutline ∨ f.geometry = roadLine := by
    simp [lakeTile]
  intro members hmembers
  rcases outlines layer hlayer f hf with h | h
  · cases hmembers.symm.trans h
    rfl
  · cases hmembers.symm.trans h
    rfl

theorem pruneBlob_of_lakes : Codec.bare.tileOf (true, lakeTile) = .ok lakeTile ∧
    (Number.int 3).Fits ∧ (∀ layer ∈ lakeTile, ∀ f ∈ layer.features, f.Legible) ∧
    lakePruner.Writes (.int 3) .bare lakeTile ∧
    ∃ out t, lakePruner.pruneBlob (.int 3) .bare (true, lakeTile) = .ok (out, t) ∧
      t.layersKept = ["water"] ∧ t.layersDropped = ["roads"] ∧ t.featuresKept = 1 ∧
      t.featuresDropped = 2 := by
  have decoded : Codec.bare.tileOf (true, lakeTile) = .ok lakeTile := rfl
  have hz : (Number.int 3).Fits := by decide
  have writes := lakeTile_writes lakePruner (.int 3)
  refine ⟨decoded, hz, lakeTile_legible, writes, ?_⟩
  obtain ⟨returns_iff, returns⟩ :=
    Pruner.pruneBlob_returns_the_remainder .bare lakePruner (.int 3) (true, lakeTile)
  obtain ⟨out, t, h⟩ := returns lakeTile decoded hz lakeTile_legible writes
  obtain ⟨_, decoded', _, _, accounts, _⟩ := (returns_iff out t).mp h
  cases decoded.symm.trans decoded'
  have kept : t.featuresKept = 1 := accounts.featuresKept.trans (by decide)
  have total : t.featuresKept + t.featuresDropped = 3 := accounts.features.trans (by decide)
  exact ⟨out, t, h, accounts.layersKept.trans (by decide), accounts.layersDropped.trans (by decide),
    kept, by omega⟩

end StyledTiles
