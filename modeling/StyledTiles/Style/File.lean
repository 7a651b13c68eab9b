import StyledTiles.Json.Reader
import StyledTiles.Path
import StyledTiles.Style.Loading

/-!
# Style files

A style file is UTF-8 text that is a JSON document. The stages fail in order: reading the file, decoding
its bytes, reading the JSON, loading the style. Every fault of the style carries the path in its normal
text.
-/
namespace StyledTiles

/-- What reading a file gives: its bytes, or nothing when it cannot be read. -/
abbrev FileContents := Option ByteArray

namespace Style

def failed (path : String) (fault : StyleFault) : StyleLoading :=
  ⟨[], .error (.style fault (some path))⟩

/-- Loads the style of a text. -/
def ofText (path : String) (text : String) : StyleLoading :=
  match Json.read text with
  | .ok document => ofJson document (some path)
  | .error .malformed => failed path .malformed
  | .error (.constant c) => failed path (.constant c.name)
  | .error (.longInteger digits) => ⟨[], .error (.longInteger digits)⟩

/-- Loads the style of a file. -/
def ofFile (path : String) (contents : FileContents) : StyleLoading :=
  let path := Path.normal path
  if !Path.isUsable path then ⟨[], .error .unusablePath⟩
  else
    match contents with
    | none => failed path .unreadable
    | some bytes =>
      match String.fromUTF8? bytes with
      | some text => ofText path text
      | none => failed path .notUtf8

/-- The source-layers that the style of a file draws from. -/
def sourceLayersOfFile (path : String) (contents : FileContents) : Except StyleError (List String) :=
  (ofFile path contents).result.map sourceLayers

end Style

end StyledTiles
