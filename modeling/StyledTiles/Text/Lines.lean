import StyledTiles.Text.Blank

/-!
# Lines

A text is cut at its line ends. A carriage return and a line feed after it are one line end, and a line
end at the end of the text starts no further line.
-/
namespace StyledTiles.Text

/-- The controls that end a line, and the line and paragraph separators. -/
def isLineEnd (c : Char) : Bool :=
  let n := c.toNat
  (10 ≤ n && n ≤ 13) || (28 ≤ n && n ≤ 30) || n == 0x85 || n == 0x2028 || n == 0x2029

/-- The lines of what is left of a text, given the start of the first one in reverse. -/
def linesFrom (start : List Char) : List Char → List (List Char)
  | [] => if start.isEmpty then [] else [start.reverse]
  | '\r' :: '\n' :: rest => start.reverse :: linesFrom [] rest
  | c :: rest =>
    if isLineEnd c then start.reverse :: linesFrom [] rest else linesFrom (c :: start) rest

def lines (s : String) : List String := (linesFrom [] s.toList).map String.ofList

end StyledTiles.Text
