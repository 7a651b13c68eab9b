import StyledTiles.Settings
import StyledTiles.Style.Index
import StyledTiles.Tile.Basic

/-!
# Pruning a tile

A tile is pruned by a style at a zoom. A layer goes if the style draws nothing of it there, and if none
of its features is left; a feature goes if no layer of the style draws it. How much of this is done
depends on the mode, and the pruner says whether a feature stays that the style cannot tell about. A
feature that stays is prepared at once, before the next one is judged.

What is pruned is counted on the way. Outcomes of parts of a tile are joined by `PrunedTile.join`, in the
order of the tile.
-/
namespace StyledTiles

/-- Why a tile cannot be pruned. -/
inductive PruningError where
  | codec (message : String)
  | shape (message : String)
  | feature (e : NotAName)
  | outOfRange (e : OutOfRange)
deriving DecidableEq, Repr

def PruningError.message : PruningError → String
  | .codec message | .shape message => message
  | .feature e => e.message
  | .outOfRange e => e.message

/-- What is left of a tile, and the counts of what was decided. -/
structure PrunedTile where
  layers : List PreparedLayer := []
  layersKept : List String := []
  layersDropped : List String := []
  featuresKept : Nat := 0
  featuresDropped : Nat := 0
  unknownFeatures : Nat := 0
  unknownOccurrences : Nat := 0
deriving Repr

namespace PrunedTile

def join (a b : PrunedTile) : PrunedTile where
  layers := a.layers ++ b.layers
  layersKept := a.layersKept ++ b.layersKept
  layersDropped := a.layersDropped ++ b.layersDropped
  featuresKept := a.featuresKept + b.featuresKept
  featuresDropped := a.featuresDropped + b.featuresDropped
  unknownFeatures := a.unknownFeatures + b.unknownFeatures
  unknownOccurrences := a.unknownOccurrences + b.unknownOccurrences

end PrunedTile

/-- What is decided about a feature. -/
structure Judgement where
  keep : Bool
  isUnknown : Bool
  occurrences : Nat
deriving DecidableEq, Repr

/-- The features of a layer that stay, as they are prepared, and counts over all of them. -/
structure FeatureTally where
  kept : List PreparedFeature := []
  dropped : Nat := 0
  unknownFeatures : Nat := 0
  unknownOccurrences : Nat := 0
deriving Repr

/-- Adds the judgement on a feature in front, and the feature itself if it stays. -/
def FeatureTally.push (j : Judgement) (stays : Option PreparedFeature) (t : FeatureTally) :
    FeatureTally where
  kept := stays.toList ++ t.kept
  dropped := (if j.keep then 0 else 1) + t.dropped
  unknownFeatures := (if j.isUnknown then 1 else 0) + t.unknownFeatures
  unknownOccurrences := j.occurrences + t.unknownOccurrences

/-- What pruning goes by: a style, how much of it is used, and whether features are kept that it cannot
tell about. Without a style everything stays. -/
structure Pruner where
  style : Option Style
  mode : PruningMode
  keepUnknown : Bool

namespace Pruner

variable (p : Pruner) (z : Zoom)

/-- Whether the features of a layer are looked at; otherwise the layer goes as a whole. -/
def keepsLayer (name : String) : Bool :=
  match p.style, p.mode with
  | none, _ | _, .none => true
  | some style, _ => style.isVisible name z

/-- The judgement that follows from a style's decision. -/
def judgementOf (keepUnknown : Bool) : Decision × Nat → Judgement
  | (.yes, n) => ⟨true, false, n⟩
  | (.unknown, n) => ⟨keepUnknown, true, n⟩
  | (.no, n) => ⟨false, false, n⟩

def judge (name : String) (f : DecodedFeature) : Except PruningError Judgement :=
  match p.style, p.mode with
  | some style, .layerFilter =>
    match Feature.ofDecoded f with
    | .error e => .error (.feature e)
    | .ok view =>
      match style.evaluate name z view with
      | .error e => .error (.outOfRange e)
      | .ok decided => .ok (judgementOf p.keepUnknown decided)
  | _, _ => .ok ⟨true, false, 0⟩

variable {Blob : Type} (codec : Codec Blob)

/-- A feature that has been judged, prepared if it is to be kept. -/
def prepareIf (keep : Bool) (f : DecodedFeature) : Except PruningError (Option PreparedFeature) :=
  if keep then ((codec.prepare f).map some).mapError .shape else .ok none

def tally (name : String) : List DecodedFeature → Except PruningError FeatureTally
  | [] => .ok {}
  | f :: rest => do
    let j ← p.judge z name f
    let stays ← prepareIf codec j.keep f
    let t ← tally name rest
    return t.push j stays

/-- The outcome for a layer whose features have been judged. -/
def outcomeOf (layer : TileLayer) (t : FeatureTally) : PrunedTile :=
  let counted : PrunedTile :=
    { featuresDropped := t.dropped
      unknownFeatures := t.unknownFeatures
      unknownOccurrences := t.unknownOccurrences }
  if t.kept.isEmpty then { counted with layersDropped := [layer.name] }
  else
    { counted with
      layers := [⟨layer.name, layer.extent, t.kept⟩]
      layersKept := [layer.name]
      featuresKept := t.kept.length }

def pruneLayer (layer : TileLayer) : Except PruningError PrunedTile :=
  if p.keepsLayer z layer.name then (p.tally z codec layer.name layer.features).map (outcomeOf layer)
  else .ok { layersDropped := [layer.name], featuresDropped := layer.features.length }

/-- Prunes the layers of a tile in order. -/
def prune : List TileLayer → Except PruningError PrunedTile
  | [] => .ok {}
  | layer :: rest => do
    let here ← p.pruneLayer z codec layer
    let there ← prune rest
    return here.join there

/-- Prunes a blob; the blob made of what is left is packed if the given one was. -/
def pruneBlob (blob : Blob) : Except PruningError (Blob × PrunedTile) := do
  let tile ← (codec.tileOf blob).mapError .codec
  let pruned ← p.prune z codec tile
  let out ← (codec.blobOf (codec.isPacked blob) pruned.layers).mapError .codec
  return (out, pruned)

end Pruner

end StyledTiles
