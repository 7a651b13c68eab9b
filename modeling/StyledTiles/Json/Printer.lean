import StyledTiles.Json.Basic
import StyledTiles.Number.Decimal
import StyledTiles.Text.Quoted

/-!
# Printing JSON

`Json.render` writes a value as JSON in ASCII: a blank after each comma and colon, members in their own
order, other characters as escaped UTF-16 code units, binary64 numbers with the fewest digits.

`Json.quoted` writes a value as a message quotes it: texts in quotes, words for the constants, and
`Json.display` does so for a value whose own text is wanted, so that a text stands without quotes.
-/
namespace StyledTiles

/-- The text of a binary64 number, given the texts of NaN and of the positive infinity. -/
def Binary64.text (nanText infinityText : String) (x : Binary64) : String :=
  match x.shortest? with
  | some d => d.text
  | none =>
    match x with
    | .infinite true => "-" ++ infinityText
    | .infinite false => infinityText
    | _ => nanText

namespace Json

/-- An escaped UTF-16 code unit. -/
def escapeUnit (n : Nat) : List Char := '\\' :: 'u' :: Text.hex 4 n

def escapeChar (c : Char) : List Char :=
  if c = '"' ∨ c = '\\' then ['\\', c]
  else if c = '\n' then ['\\', 'n']
  else if c = '\r' then ['\\', 'r']
  else if c = '\t' then ['\\', 't']
  else if c = '\x08' then ['\\', 'b']
  else if c = '\x0c' then ['\\', 'f']
  else if 32 ≤ c.toNat ∧ c.toNat < 127 then [c]
  else if c.toNat < 0x10000 then escapeUnit c.toNat
  else
    let n := c.toNat - 0x10000
    escapeUnit (0xD800 + n / 0x400) ++ escapeUnit (0xDC00 + n % 0x400)

def renderString (s : String) : String :=
  String.ofList ('"' :: s.toList.flatMap escapeChar ++ ['"'])

def renderNumber : Number → String
  | .int n => toString n
  | .real x => x.text "NaN" "Infinity"

mutual

def render : Json → String
  | .null => "null"
  | .bool b => if b then "true" else "false"
  | .num n => renderNumber n
  | .str s => renderString s
  | .arr items => "[" ++ ", ".intercalate (renderItems items) ++ "]"
  | .obj members => "\x7b" ++ ", ".intercalate (renderMembers members) ++ "\x7d"

def renderItems : List Json → List String
  | [] => []
  | v :: rest => render v :: renderItems rest

def renderMembers : List (String × Json) → List String
  | [] => []
  | (k, v) :: rest => (renderString k ++ ": " ++ render v) :: renderMembers rest

end

def quotedNumber : Number → String
  | .int n => toString n
  | .real x => x.text "nan" "inf"

mutual

/-- A value as a message quotes it. -/
def quoted : Json → String
  | .null => "None"
  | .bool b => if b then "True" else "False"
  | .num n => quotedNumber n
  | .str s => Text.quote s
  | .arr items => "[" ++ ", ".intercalate (quotedItems items) ++ "]"
  | .obj members => "\x7b" ++ ", ".intercalate (quotedMembers members) ++ "\x7d"

def quotedItems : List Json → List String
  | [] => []
  | v :: rest => quoted v :: quotedItems rest

def quotedMembers : List (String × Json) → List String
  | [] => []
  | (k, v) :: rest => (Text.quote k ++ ": " ++ quoted v) :: quotedMembers rest

end

/-- The text of a value: a string is its own text, anything else is quoted. -/
def display : Json → String
  | .str s => s
  | v => v.quoted

/-- The name of a value's kind, numbers by their own kind. -/
def kindName : Json → String
  | .null => "NoneType"
  | .bool _ => "bool"
  | .num (.int _) => "int"
  | .num (.real _) => "float"
  | .str _ => "str"
  | .arr _ => "list"
  | .obj _ => "dict"

end Json

end StyledTiles
