import StyledTiles.Proofs.Tile.Contents

/-!
# The layer check as a shortcut

Where features are judged one by one, the check that lets a layer go as a whole decides nothing new. No
layer of the style that draws from a hidden source-layer is drawn, so each of its features would be
rejected without a doubt; the layer would lose all of them and go with the same counts.

`Pruner.pruneBy` is pruning by any layer check, and pruning itself is the case of the pruner's own one.
The features of hidden layers are never viewed, so the shortcut is not one for a tile that holds a
feature of which there is no view.
-/
namespace StyledTiles

open Outcome

/-- The feature can be presented to filters. -/
def DecodedFeature.HasView (f : DecodedFeature) : Prop := ∃ view, Feature.ofDecoded f = .ok view

namespace Pruner

section

variable {Blob : Type} (p : Pruner) (z : Zoom) (codec : Codec Blob) (check : String → Bool)

/-- Prunes a layer as a whole if it fails the check, and else feature by feature. -/
def pruneLayerBy (layer : TileLayer) : Except PruningError PrunedTile :=
  if check layer.name then (p.tally z codec layer.name layer.features).map (outcomeOf layer)
  else .ok { layersDropped := [layer.name], featuresDropped := layer.features.length }

def pruneBy : List TileLayer → Except PruningError PrunedTile
  | [] => .ok {}
  | layer :: rest => do
    let here ← p.pruneLayerBy z codec check layer
    let there ← pruneBy rest
    return here.join there

def pruneBlobBy (blob : Blob) : Except PruningError (Blob × PrunedTile) := do
  let tile ← (codec.tileOf blob).mapError .codec
  let pruned ← p.pruneBy z codec check tile
  let out ← (codec.blobOf (codec.isPacked blob) pruned.layers).mapError .codec
  return (out, pruned)

end

variable {Blob : Type} {codec : Codec Blob} {p : Pruner} {z : Zoom}

/-! ## The pruner's own check -/

theorem prune_eq_pruneBy (tile : List TileLayer) :
    p.prune z codec tile = p.pruneBy z codec (p.keepsLayer z) tile := by
  induction tile with
  | nil => rfl
  | cons layer rest ih =>
    rw [prune, pruneBy, ih]
    rfl

theorem pruneBlob_eq_pruneBlobBy (blob : Blob) :
    p.pruneBlob z codec blob = p.pruneBlobBy z codec (p.keepsLayer z) blob := by
  simp only [pruneBlob, pruneBlobBy, prune_eq_pruneBy]

/-- Checks that treat each layer of a tile alike prune the tile alike. -/
theorem pruneBy_congr {check check' : String → Bool} {tile : List TileLayer}
    (h : ∀ layer ∈ tile, p.pruneLayerBy z codec check layer = p.pruneLayerBy z codec check' layer) :
    p.pruneBy z codec check tile = p.pruneBy z codec check' tile := by
  induction tile with
  | nil => rfl
  | cons layer rest ih =>
    rw [List.forall_mem_cons] at h
    rw [pruneBy, pruneBy, h.1, ih h.2]

/-! ## Hidden layers -/

section Hidden

variable {style : Style} {name : String} {keepUnknown : Bool}

theorem judge_of_not_visible (h : style.isVisible name z = false) {f : DecodedFeature}
    (hf : f.HasView) :
    judge ⟨some style, .layerFilter, keepUnknown⟩ z name f = .ok ⟨false, false, 0⟩ := by
  obtain ⟨view, hview⟩ := hf
  simp only [judge, hview, Style.evaluate_of_not_visible h]
  rfl

/-- Judged one by one, all features of a hidden layer are dropped. -/
theorem tally_of_not_visible (h : style.isVisible name z = false) {features : List DecodedFeature}
    (hfeatures : ∀ f ∈ features, f.HasView) :
    tally ⟨some style, .layerFilter, keepUnknown⟩ z codec name features =
      .ok { dropped := features.length } := by
  induction features with
  | nil => rfl
  | cons f rest ih =>
    rw [List.forall_mem_cons] at hfeatures
    rw [tally, judge_of_not_visible h hfeatures.1, ih hfeatures.2]
    simp [prepareIf, bind, Except.bind, pure, Except.pure, FeatureTally.push, Nat.add_comm]

theorem pruneLayerBy_of_not_visible {layer : TileLayer} (h : style.isVisible layer.name z = false)
    (hfeatures : ∀ f ∈ layer.features, f.HasView) :
    pruneLayerBy ⟨some style, .layerFilter, keepUnknown⟩ z codec (fun _ => true) layer =
      .ok { layersDropped := [layer.name], featuresDropped := layer.features.length } := by
  rw [pruneLayerBy, if_pos rfl, tally_of_not_visible h hfeatures]
  rfl

end Hidden

theorem pruneLayerBy_keepsLayer (hmode : p.mode = .layerFilter) {layer : TileLayer}
    (hfeatures : ∀ f ∈ layer.features, f.HasView) :
    p.pruneLayerBy z codec (p.keepsLayer z) layer = p.pruneLayerBy z codec (fun _ => true) layer := by
  obtain ⟨style, mode, keepUnknown⟩ := p
  obtain rfl : mode = .layerFilter := hmode
  cases hkeeps : keepsLayer ⟨style, .layerFilter, keepUnknown⟩ z layer.name with
  | true => rw [pruneLayerBy, hkeeps, pruneLayerBy]
  | false =>
    cases style with
    | none => cases hkeeps
    | some style =>
      rw [pruneLayerBy_of_not_visible hkeeps hfeatures, pruneLayerBy, hkeeps]
      rfl

theorem prune_eq_pruneBy_always (hmode : p.mode = .layerFilter) {tile : List TileLayer}
    (hviews : ∀ layer ∈ tile, ∀ f ∈ layer.features, f.HasView) :
    p.prune z codec tile = p.pruneBy z codec (fun _ => true) tile := by
  rw [prune_eq_pruneBy]
  exact pruneBy_congr fun layer hlayer => pruneLayerBy_keepsLayer hmode (hviews layer hlayer)

/-- Of a source-layer that is hidden each feature is rejected without a doubt. So, where features are
judged one by one, a blob is pruned to the same remainder and with the same counts whether the layers of
its tile are checked or not. -/
theorem layer_check_is_a_shortcut :
    (∀ (style : Style) (name : String) (z : Zoom) (f : Feature),
      style.isVisible name z = false → style.evaluate name z f = .ok (.no, 0)) ∧
    ∀ {Blob : Type} (codec : Codec Blob) (p : Pruner) (z : Zoom) (blob : Blob),
      p.pruneBlob z codec blob = p.pruneBlobBy z codec (p.keepsLayer z) blob ∧
      (p.mode = .layerFilter →
        (∀ tile, codec.tileOf blob = .ok tile →
          ∀ layer ∈ tile, ∀ f ∈ layer.features, f.HasView) →
        p.pruneBlob z codec blob = p.pruneBlobBy z codec (fun _ => true) blob) := by
  constructor
  · intro style name z f hidden
    exact Style.evaluate_of_not_visible hidden
  · intro Blob codec p z blob
    refine ⟨pruneBlob_eq_pruneBlobBy blob, fun hmode hviews => ?_⟩
    unfold pruneBlob pruneBlobBy
    cases decoded : codec.tileOf blob with
    | error message => rfl
    | ok tile =>
      have same : p.prune z codec tile = p.pruneBy z codec (fun _ => true) tile :=
        prune_eq_pruneBy_always hmode (hviews tile decoded)
      change (p.prune z codec tile >>= _) = (p.pruneBy z codec (fun _ => true) tile >>= _)
      rw [same]

end Pruner

/-- The roads are hidden, and go with their one feature whether they are checked or not. -/
theorem shortcut_past_the_roads :
    lakeStyle.isVisible "roads" (.int 3) = false ∧
    lakeStyle.evaluate "roads" (.int 3) { geometry := .line } = .ok (.no, 0) ∧
    lakePruner.mode = .layerFilter ∧ (∀ layer ∈ lakeTile, ∀ f ∈ layer.features, f.HasView) ∧
    lakePruner.pruneBlob (.int 3) .bare (true, lakeTile) =
      lakePruner.pruneBlobBy (.int 3) .bare (fun _ => true) (true, lakeTile) := by
  have hidden : lakeStyle.isVisible "roads" (.int 3) = false := rfl
  have views : ∀ layer ∈ lakeTile, ∀ f ∈ layer.features, f.HasView := by
    intro layer hlayer f hf
    obtain ⟨view, hview, _⟩ := lakeTile_legible layer hlayer f hf
    exact ⟨view, hview⟩
  obtain ⟨rejects, shortcut⟩ := Pruner.layer_check_is_a_shortcut
  refine ⟨hidden, rejects lakeStyle "roads" (.int 3) _ hidden, rfl, views, ?_⟩
  refine (shortcut .bare lakePruner (.int 3) (true, lakeTile)).2 rfl fun tile decoded => ?_
  cases decoded
  exact views

end StyledTiles
