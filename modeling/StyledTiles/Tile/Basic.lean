import StyledTiles.Feature

/-!
# Tiles

A decoded tile is a list of layers, each with its extent and its features. What is handed to the encoder
are prepared layers, whose features have properties, if only none, and an identifier only if there is one.

Blobs are what tiles are held as. Their octets say whether they are packed; packing, decoding and encoding
are left to a codec, of which nothing is known but that it may fail where the libraries it stands for may.
The time at which a blob is packed is not looked at, though a packed blob may state it.
-/
namespace StyledTiles

structure TileLayer where
  name : String
  extent : Nat
  features : List DecodedFeature
deriving Repr

structure PreparedFeature where
  geometry : Geometry
  properties : Json.Members
  id : Option Json
deriving Repr

structure PreparedLayer where
  name : String
  extent : Nat
  features : List PreparedFeature
deriving Repr

/-- The libraries that read and write tiles. Each of them may fail with a message of its own. -/
structure Codec (Blob : Type) where
  octets : Blob → List UInt8
  /-- The blob of no octets. -/
  empty : Blob
  octets_empty : octets empty = []
  pack : Blob → Blob
  unpack : Blob → Except String Blob
  decode : Blob → Except String (List TileLayer)
  /-- Makes the shape that a GeoJSON object describes. -/
  shape : Json.Members → Except String Unit
  encode : List PreparedLayer → Except String Blob

/-- How a packed blob starts. -/
def packedMark : List UInt8 := [0x1f, 0x8b]

namespace Codec

variable {Blob : Type} (codec : Codec Blob)

def size (blob : Blob) : Nat := (codec.octets blob).length

def isPacked (blob : Blob) : Bool := (codec.octets blob).take 2 == packedMark

/-- The tile of a blob, which is unpacked before it is decoded if it is packed. -/
def tileOf (blob : Blob) : Except String (List TileLayer) :=
  if codec.isPacked blob then codec.unpack blob >>= codec.decode else codec.decode blob

/-- The blob of layers, packed or not. No layers are encoded as no octets. -/
def blobOf (packed : Bool) (layers : List PreparedLayer) : Except String Blob := do
  let plain ← if layers.isEmpty then .ok codec.empty else codec.encode layers
  return if packed then codec.pack plain else plain

/-- The feature as the encoder takes it. A GeoJSON object has to describe a shape; any other geometry is
left to the encoder. -/
def prepare (f : DecodedFeature) : Except String PreparedFeature := do
  if let .document members := f.geometry then codec.shape members
  return ⟨f.geometry, f.properties.getD [], if f.id.isNull then none else some f.id⟩

@[simp] theorem size_empty : codec.size codec.empty = 0 := by
  rw [size, codec.octets_empty, List.length_nil]

end Codec

/-- The address of a tile. -/
structure TileCoord where
  z : Int
  x : Int
  y : Int
deriving DecidableEq, Repr

def TileCoord.id (c : TileCoord) : String :=
  toString c.z ++ "/" ++ toString c.x ++ "/" ++ toString c.y

end StyledTiles
