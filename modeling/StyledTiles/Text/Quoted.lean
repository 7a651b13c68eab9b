import StyledTiles.Text.Printable

/-!
# Quoted text

A text is quoted with apostrophes, or with quotation marks when it holds an apostrophe and no quotation
mark. The quote in use and the backslash are escaped, as are all characters that are not printable. The
names that a call does not take are enclosed instead: they stand between apostrophes with no escapes.
-/
namespace StyledTiles.Text

def hexDigit (n : Nat) : Char := "0123456789abcdef".toList.getD n '0'

/-- The lowest `width` hexadecimal digits of a number, lower case. -/
def hex : Nat → Nat → List Char
  | 0, _ => []
  | width + 1, n => hex width (n / 16) ++ [hexDigit (n % 16)]

/-- The escape of a character by its code, the shortest of the three forms. -/
def codeEscape (n : Nat) : List Char :=
  if n < 0x100 then '\\' :: 'x' :: hex 2 n
  else if n < 0x10000 then '\\' :: 'u' :: hex 4 n
  else '\\' :: 'U' :: hex 8 n

def quoteChar (mark c : Char) : List Char :=
  if c = mark ∨ c = '\\' then ['\\', c]
  else if c = '\n' then ['\\', 'n']
  else if c = '\r' then ['\\', 'r']
  else if c = '\t' then ['\\', 't']
  else if isPrintable c then [c]
  else codeEscape c.toNat

/-- The quote that surrounds a text. -/
def quoteMark (cs : List Char) : Char :=
  if cs.contains '\'' && !cs.contains '"' then '"' else '\''

def quote (s : String) : String :=
  let mark := quoteMark s.toList
  String.ofList (mark :: s.toList.flatMap (quoteChar mark) ++ [mark])

/-- A text between apostrophes, as it is. -/
def enclose (s : String) : String := "'" ++ s ++ "'"

end StyledTiles.Text
