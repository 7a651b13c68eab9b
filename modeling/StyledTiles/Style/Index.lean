import StyledTiles.Filter.Eval
import StyledTiles.Layer

/-!
# Styles

A style holds its layers in groups, one for each source-layer, in the order in which the source-layers
first appear; inside a group the layers keep the order of the document. It answers whether anything of a
source-layer is drawn at a zoom, and whether one of its layers draws a given feature there.

The layers of a group are alternatives: the first that accepts the feature settles the question.
-/
namespace StyledTiles

/-- Layers grouped by source-layer. -/
structure Style where
  groups : List (String × List Layer) := []
deriving Repr

namespace Style

/-- Appends a layer to its group, or starts the group at the end. -/
def insertInto (layer : Layer) : List (String × List Layer) → List (String × List Layer)
  | [] => [(layer.sourceLayer, [layer])]
  | (name, layers) :: rest =>
    if name = layer.sourceLayer then (name, layers ++ [layer]) :: rest
    else (name, layers) :: insertInto layer rest

def insert (style : Style) (layer : Layer) : Style := ⟨insertInto layer style.groups⟩

/-- The style with the given layers, in document order. -/
def ofLayers (layers : List Layer) : Style := layers.foldl insert {}

variable (style : Style) (name : String) (z : Zoom) (f : Feature)

/-- The source-layers that the style draws from, each once. -/
def sourceLayers : List String := style.groups.map Prod.fst

/-- The layers of a source-layer, in document order. -/
def layersFor : List Layer := (style.groups.lookup name).getD []

/-- Whether a layer of the source-layer is drawn at a zoom, whatever its filter says. -/
def isVisible : Bool := (style.layersFor name).any fun layer => layer.isDrawn z

def visibleSourceLayers : List String :=
  style.sourceLayers.filter fun name => style.isVisible name z

/-- The decision once all layers have been asked and none accepted. -/
def undecided (unknowns : Nat) : Decision := if unknowns = 0 then .no else .unknown

/-- Asks the layers in turn; `unknowns` of those before could not tell. -/
def decideFrom (unknowns : Nat) : List Layer → Except OutOfRange (Decision × Nat)
  | [] => .ok (undecided unknowns, unknowns)
  | layer :: rest =>
    if layer.isDrawn z then
      match layer.filter with
      | none => .ok (.yes, unknowns)
      | some filter => do
        match ← filter.eval f z with
        | .yes => return (.yes, unknowns)
        | .unknown => decideFrom (unknowns + 1) rest
        | .no => decideFrom unknowns rest
    else decideFrom unknowns rest

/-- Whether a layer of the source-layer draws the feature, and how many of the drawn layers could not
tell before that was settled. -/
def evaluate : Except OutOfRange (Decision × Nat) := decideFrom z f 0 (style.layersFor name)

/-- Whether a layer of the source-layer draws the feature. -/
def decision : Except OutOfRange Decision := (style.evaluate name z f).map Prod.fst

end Style

end StyledTiles
