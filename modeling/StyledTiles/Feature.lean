import StyledTiles.Json.Printer
import StyledTiles.Scalar

/-!
# Features

A feature as a filter sees it: the class of its geometry, its properties and its identifier. Two
names do not reach the properties: `$type` is the geometry class and `$id` the identifier.

`Feature.ofDecoded` takes the view of a feature as a tile's decoder gives it.
-/
namespace StyledTiles

inductive GeometryClass where
  | point
  | line
  | polygon
  | unknown
deriving DecidableEq, Repr

namespace GeometryClass

def name : GeometryClass → String
  | .point => "Point"
  | .line => "LineString"
  | .polygon => "Polygon"
  | .unknown => "Unknown"

/-- The class of a geometry type; a type of several geometries of one class has that class. -/
def ofTypeName : String → GeometryClass
  | "Point" | "MultiPoint" => .point
  | "LineString" | "MultiLineString" | "LinearRing" => .line
  | "Polygon" | "MultiPolygon" => .polygon
  | _ => .unknown

/-- The class of a geometry type's code in a tile. -/
def ofCode : Int → GeometryClass
  | 1 => .point
  | 2 => .line
  | 3 => .polygon
  | _ => .unknown

end GeometryClass

structure Feature where
  geometry : GeometryClass := .unknown
  properties : Json.Members := []
  id : Json := .null
deriving Repr

namespace Feature

def typeKey : String := "$type"

def idKey : String := "$id"

/-- The identifier as a scalar. -/
def idScalar (f : Feature) : Except OutOfRange (Option Scalar) := Scalar.ofJson f.id

/-- The scalar under a name, nothing when it is missing or not a scalar. -/
def get (f : Feature) (key : String) : Except OutOfRange (Option Scalar) :=
  if key = typeKey then .ok (some (.string f.geometry.name))
  else if key = idKey then f.idScalar
  else Scalar.ofJson (Json.member f.properties key)

/-- Whether there is something under a name; a property counts even if it is null. -/
def has (f : Feature) (key : String) : Bool :=
  if key = typeKey then true
  else if key = idKey then !f.id.isNull
  else Json.hasMember f.properties key

end Feature

/-- The geometry of a decoded feature: a GeoJSON object, a geometry that knows the name of its type,
or neither. -/
inductive Geometry where
  | document (members : Json.Members)
  | shape (typeName : String)
  | other
deriving Repr

/-- A feature as a decoder gives it. The type member counts where there is no geometry. -/
structure DecodedFeature where
  geometry : Geometry := .other
  type : Json := .null
  properties : Option Json.Members := none
  id : Json := .null
deriving Repr

/-- A value of a kind that no geometry type name can have. -/
structure NotAName where
  kind : String
deriving DecidableEq, Repr

def NotAName.message (e : NotAName) : String := "unhashable type: '" ++ e.kind ++ "'"

/-- The class that a type member names. -/
def GeometryClass.ofMember : Json → Except NotAName GeometryClass
  | .str s => .ok (.ofTypeName s)
  | .arr items => .error ⟨(Json.arr items).kindName⟩
  | .obj members => .error ⟨(Json.obj members).kindName⟩
  | _ => .ok .unknown

namespace DecodedFeature

def geometryClass (f : DecodedFeature) : Except NotAName GeometryClass :=
  match f.geometry with
  | .document members => GeometryClass.ofMember (Json.member members "type")
  | .shape typeName => .ok (.ofTypeName typeName)
  | .other =>
    match f.type with
    | .num (.int code) => .ok (.ofCode code)
    | type => GeometryClass.ofMember type

end DecodedFeature

/-- The view of a decoded feature. -/
def Feature.ofDecoded (f : DecodedFeature) : Except NotAName Feature :=
  f.geometryClass.map fun geometry =>
    { geometry := geometry, properties := f.properties.getD [], id := f.id }

end StyledTiles
