/-!
# Path texts

A path is compared and shown in its normal text: no empty parts and no parts that are a single dot, so
repeated and trailing slashes go. Two dots stay, since they may cross a link. A path that starts with
exactly two slashes keeps them; any other number of slashes at the start is one. Nothing left is a dot.
-/
namespace StyledTiles.Path

/-- The parts between slashes. -/
def parts (cs : List Char) : List (List Char) := cs.splitOn '/'

/-- What an absolute path starts with. -/
def root : List Char → List Char
  | '/' :: '/' :: '/' :: _ => ['/']
  | '/' :: '/' :: _ => ['/', '/']
  | '/' :: _ => ['/']
  | _ => []

def isProper (part : List Char) : Bool := !part.isEmpty && part != ['.']

def normalChars (cs : List Char) : List Char :=
  match root cs ++ ['/'].intercalate ((parts cs).filter isProper) with
  | [] => ['.']
  | normal => normal

/-- Whether a path can name a file; one with a null character cannot. -/
def isUsable (s : String) : Bool := !s.toList.contains '\x00'

def normal (s : String) : String := String.ofList (normalChars s.toList)

end StyledTiles.Path
