import StyledTiles.Log.Event
import StyledTiles.Style.Index
import StyledTiles.Text.Integer

/-!
# Loading styles

A style document is an object whose `layers` are an array of entries. An entry is used when it is an
object with a source that is not null and with a text for its source-layer; each of the others is left
out with a notice. Loading fails when there is no array of layers or when no entry is used.

Nothing that an entry holds besides makes loading fail, except a number out of range.
-/
namespace StyledTiles

/-- What an entry of a style is good for. -/
inductive StyleEntry where
  | notAnObject (kind : String)
  | withoutSource (id : Json)
  | withoutSourceLayer (id : Json)
  | usable (sourceLayer : String) (members : Json.Members)

def StyleEntry.ofJson : Json → StyleEntry
  | .obj members =>
    if (Json.member members "source").isNull then .withoutSource (Json.member members "id")
    else
      match Json.member members "source-layer" with
      | .str sourceLayer => .usable sourceLayer members
      | _ => .withoutSourceLayer (Json.member members "id")
  | j => .notAnObject j.kindName

/-- What loading reports. -/
inductive StyleNotice where
  | skippedNonObject (kind : String)
  | skippedWithoutSource (id : Json)
  | skippedWithoutSourceLayer (id : Json)
  | loaded (path : Option String) (sourceLayers layers skipped : Nat)
deriving Repr

namespace StyleNotice

def level : StyleNotice → LogLevel
  | .loaded .. => .info
  | _ => .debug

def message : StyleNotice → String
  | .skippedNonObject _ => "Skipping non-object layer entry"
  | .skippedWithoutSource _ => "Skipping layer without source"
  | .skippedWithoutSourceLayer _ => "Skipping layer without source-layer"
  | .loaded .. => "Style loaded"

def fields : StyleNotice → Json.Members
  | .skippedNonObject kind => [("entry_type", .str kind)]
  | .skippedWithoutSource id => [("layer_id", id)]
  | .skippedWithoutSourceLayer id => [("layer_id", id)]
  | .loaded path sourceLayers layers skipped => [
    ("path", match path with | some path => .str path | none => .null),
    ("source_layers", .int sourceLayers), ("layers", .int layers), ("skipped_layers", .int skipped)]

def event (n : StyleNotice) : LogEvent :=
  ⟨n.level, n.message, ("component", .str "StyleDocument") :: n.fields⟩

end StyleNotice

/-- Why there is no style. -/
inductive StyleFault where
  | unreadable
  | notUtf8
  | constant (c : String)
  | malformed
  | notAnObject
  | noLayersArray
  | noSourceLayers
deriving DecidableEq, Repr

/-- The fault in words; a fault of the file itself names its path. -/
def StyleFault.message (path : Option String) : StyleFault → String
  | .unreadable => "failed to read style file: " ++ path.getD ""
  | .notUtf8 => "style file is not valid UTF-8: " ++ path.getD ""
  | .constant c => "style json contains non-standard constant " ++ c
  | .malformed => "failed to parse style json"
  | .notAnObject => "style json must be an object"
  | .noLayersArray => "style json missing layers array"
  | .noSourceLayers => "style json contains no source-layer entries"

/-- How loading fails: by a fault of the style, by a number that cannot be held, or by a path that names
no file. -/
inductive StyleError where
  | style (fault : StyleFault) (path : Option String)
  | outOfRange (e : OutOfRange)
  | longInteger (digits : Nat)
  | unusablePath
deriving DecidableEq, Repr

def StyleError.message : StyleError → String
  | .style fault path => fault.message path
  | .outOfRange e => e.message
  | .unusablePath => "embedded null byte"
  | .longInteger digits =>
    "Exceeds the limit (" ++ toString Text.maxDigits ++ " digits) for integer string conversion: "
      ++ "value has " ++ toString digits
      ++ " digits; use sys.set_int_max_str_digits() to increase the limit"

/-- An attempt to load a style, with what it reported before it ended. -/
structure StyleLoading where
  notices : List StyleNotice
  result : Except StyleError Style

namespace Style

/-- The layers of the entries up to the first failure, and the notices about the entries left out. -/
def readEntries : List Json → List StyleNotice × Except OutOfRange (List Layer)
  | [] => ([], .ok [])
  | j :: rest =>
    match StyleEntry.ofJson j with
    | .usable sourceLayer members =>
      match Layer.ofMembers sourceLayer members with
      | .ok layer =>
        let (notices, layers) := readEntries rest
        (notices, layers.map (layer :: ·))
      | .error e => ([], .error e)
    | .notAnObject kind =>
      let (notices, layers) := readEntries rest
      (.skippedNonObject kind :: notices, layers)
    | .withoutSource id =>
      let (notices, layers) := readEntries rest
      (.skippedWithoutSource id :: notices, layers)
    | .withoutSourceLayer id =>
      let (notices, layers) := readEntries rest
      (.skippedWithoutSourceLayer id :: notices, layers)

/-- The style of the entries of a document. -/
def ofEntries (entries : List Json) (path : Option String) : StyleLoading :=
  let (notices, layers) := readEntries entries
  match layers with
  | .error e => ⟨notices, .error (.outOfRange e)⟩
  | .ok [] => ⟨notices, .error (.style .noSourceLayers path)⟩
  | .ok (layer :: layers) =>
    let style := ofLayers (layer :: layers)
    let loaded : StyleNotice :=
      .loaded path style.sourceLayers.length (layers.length + 1) notices.length
    ⟨notices ++ [loaded], .ok style⟩

/-- Loads a style document. The path only serves notices and errors. -/
def ofJson (document : Json) (path : Option String) : StyleLoading :=
  match document with
  | .obj members =>
    match Json.member members "layers" with
    | .arr entries => ofEntries entries path
    | _ => ⟨[], .error (.style .noLayersArray path)⟩
  | _ => ⟨[], .error (.style .notAnObject path)⟩

/-- The style in words, with its source-layers in order. -/
def describe (style : Style) : String :=
  "StyleDocument(source_layers=" ++
    (Json.arr ((style.sourceLayers.mergeSort (fun a b => decide (a ≤ b))).map .str)).quoted ++ ")"

end Style

end StyledTiles
