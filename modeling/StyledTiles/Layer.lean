import StyledTiles.Filter.Reader
import StyledTiles.Paint

/-!
# Style layers

A style layer draws features of one source-layer of a tile. It is drawn at a zoom when its layout does
not hide it, the zoom is in its range, and none of the checked paint properties is zero there. The lower
end of the range belongs to it, the upper end does not.
-/
namespace StyledTiles

structure Layer where
  sourceLayer : String
  id : Option String := none
  minzoom : Option Number := none
  maxzoom : Option Number := none
  visibility : Option String := none
  paint : List (String × Paint) := []
  filter : Option Filter := none
deriving Repr

namespace Layer

/-- The paint properties that hide a layer where they are zero. -/
def checkedProperties : List String := [
  "fill-opacity", "fill-outline-color", "line-opacity", "line-width", "icon-size", "text-size",
  "text-max-width", "text-opacity", "raster-opacity", "circle-radius", "circle-opacity",
  "fill-extrusion-opacity", "heatmap-opacity"]

variable (layer : Layer) (z : Number)

/-- The layout does not hide the layer. -/
def isLaidOut : Bool := layer.visibility != some "none"

/-- The zoom is not below the range. -/
def reaches : Bool :=
  match layer.minzoom with
  | some low => low.le z
  | none => true

/-- The zoom is below the end of the range. -/
def endsAbove : Bool :=
  match layer.maxzoom with
  | some high => z.lt high
  | none => true

def isVisible : Bool := layer.isLaidOut && layer.reaches z && layer.endsAbove z

/-- A paint property is absent or not zero. -/
def isPaintedBy (property : String) : Bool :=
  match layer.paint.lookup property with
  | some paint => paint.isNonzeroAt z
  | none => true

def isPainted : Bool := checkedProperties.all fun property => layer.isPaintedBy z property

def isDrawn : Bool := layer.isVisible z && layer.isPainted z

/-- The visibility that a layout states. -/
def visibilityOf : Json → Option String
  | .obj layout => (Json.member layout "visibility").str?
  | _ => none

/-- The filter of an entry; null stands for none, as a missing member does. -/
def filterOf (j : Json) : Except OutOfRange (Option Filter) :=
  if j.isNull then .ok none else Filter.ofJson j

/-- A bound as an entry states it: the binary64 number nearest to a finite number. -/
def boundOf (j : Json) : Except OutOfRange (Option Number) := do
  return (← j.finite).map .real

/-- The layer of an entry of a style whose source-layer is known. Bounds that are not finite numbers
and other members that do not read count as absent. -/
def ofMembers (sourceLayer : String) (members : Json.Members) : Except OutOfRange Layer := do
  let minzoom ← boundOf (Json.member members "minzoom")
  let maxzoom ← boundOf (Json.member members "maxzoom")
  let paint ← Paint.properties (Json.member members "paint")
  let filter ← filterOf (Json.member members "filter")
  return {
    sourceLayer, minzoom, maxzoom, paint, filter
    id := (Json.member members "id").str?
    visibility := visibilityOf (Json.member members "layout") }

end Layer

end StyledTiles
