import StyledTiles.Text.Blank
import StyledTiles.Text.DecimalDigit

/-!
# Integers as text

An integer is written with an optional sign and decimal digits of any script, single underscores
between digits, and blanks other than separators around the whole. Texts of more than `maxDigits` digits
are refused.
-/
namespace StyledTiles.Text

/-- The most digits that a text is converted from. -/
def maxDigits : Nat := 4300

/-- The digits after the first one; an underscore stands between two digits. -/
def moreDigits : List Char → Option (List Nat)
  | [] => some []
  | '_' :: c :: rest => do return (← digitValue? c) :: (← moreDigits rest)
  | c :: rest => do return (← digitValue? c) :: (← moreDigits rest)

def digits? : List Char → Option (List Nat)
  | [] => none
  | c :: rest => do return (← digitValue? c) :: (← moreDigits rest)

/-- The number with the given decimal digits, the highest first. -/
def ofDigits (ds : List Nat) : Nat := ds.foldl (fun n d => 10 * n + d) 0

def natural? (cs : List Char) : Option Nat := do
  let ds ← digits? cs
  if ds.length ≤ maxDigits then return ofDigits ds else none

def signed? : List Char → Option Int
  | '-' :: rest => (natural? rest).map fun n => -(n : Int)
  | '+' :: rest => (natural? rest).map Int.ofNat
  | cs => (natural? cs).map Int.ofNat

/-- What may stand around an integer. -/
def isPadding (c : Char) : Bool := isBlank c && !isSeparator c

def integer? (s : String) : Option Int := signed? (trimmed isPadding s.toList)

end StyledTiles.Text
