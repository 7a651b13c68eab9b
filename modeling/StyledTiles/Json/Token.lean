import StyledTiles.Json.Basic
import StyledTiles.Text.Integer

/-!
# JSON tokens

The lexical half of reading JSON. `Token.scan` splits a text into tokens and leaves out the blanks. A
lexeme that JSON does not have ends the list with `bad`, so that a reader which takes the tokens in
order meets faults in the order of the text.

Two kinds of token are faults only where a value is expected: the constants that are numbers elsewhere
but not in JSON, and integers of more digits than are converted.
-/
namespace StyledTiles

namespace Json

/-- Numeric constants that JSON does not have. -/
inductive Constant where
  | nan
  | infinity
  | negativeInfinity
deriving DecidableEq, Repr

def Constant.name : Constant → String
  | .nan => "NaN"
  | .infinity => "Infinity"
  | .negativeInfinity => "-Infinity"

inductive Token where
  | openBracket
  | closeBracket
  | openBrace
  | closeBrace
  | comma
  | colon
  | null
  | bool (b : Bool)
  | num (n : Number)
  | str (s : String)
  | constant (c : Constant)
  | longInteger (digits : Nat)
  | bad
deriving DecidableEq, Repr

namespace Token

def isSpace (c : Char) : Bool := c == ' ' || c == '\t' || c == '\n' || c == '\r'

def isDigit (c : Char) : Bool := '0' ≤ c && c ≤ '9'

/-- The number written by decimal digits. -/
def digitsValue (ds : List Char) : Nat := Text.ofDigits (ds.map fun c => c.toNat - 48)

def hexValue? (c : Char) : Option Nat :=
  if isDigit c then some (c.toNat - 48)
  else if 'a' ≤ c && c ≤ 'f' then some (c.toNat - 87)
  else if 'A' ≤ c && c ≤ 'F' then some (c.toNat - 55)
  else none

/-- A UTF-16 code unit written by four hexadecimal digits. -/
def unit? (a b c d : Char) : Option Nat := do
  return (((← hexValue? a) * 16 + (← hexValue? b)) * 16 + (← hexValue? c)) * 16 + (← hexValue? d)

def isHighSurrogate (n : Nat) : Bool := 0xD800 ≤ n && n < 0xDC00

def isLowSurrogate (n : Nat) : Bool := 0xDC00 ≤ n && n < 0xE000

/-- The characters of code points among which escaped characters beyond the first plane stand as two
surrogates. A surrogate without its partner has no character and becomes the replacement character, so
strings that differ in such surrogates alone are read as the same. -/
def joinUnits : List Nat → List Char
  | [] => []
  | [n] => [if isHighSurrogate n || isLowSurrogate n then Char.ofNat 0xFFFD else Char.ofNat n]
  | n :: m :: rest =>
    if isHighSurrogate n && isLowSurrogate m then
      Char.ofNat (0x10000 + (n - 0xD800) * 0x400 + (m - 0xDC00)) :: joinUnits rest
    else if isHighSurrogate n || isLowSurrogate n then Char.ofNat 0xFFFD :: joinUnits (m :: rest)
    else Char.ofNat n :: joinUnits (m :: rest)

/-- The character of a one-letter escape. -/
def escape? : Char → Option Char
  | '"' => some '"'
  | '\\' => some '\\'
  | '/' => some '/'
  | 'b' => some '\x08'
  | 'f' => some '\x0c'
  | 'n' => some '\n'
  | 'r' => some '\r'
  | 't' => some '\t'
  | _ => none

/-- The code points and code units of a string after its opening quote, and what follows the closing
one. -/
def stringUnits : List Char → Option (List Nat × List Char)
  | [] => none
  | '"' :: rest => some ([], rest)
  | '\\' :: 'u' :: a :: b :: c :: d :: rest => do
    let unit ← unit? a b c d
    let (units, after) ← stringUnits rest
    return (unit :: units, after)
  | '\\' :: c :: rest => do
    let e ← escape? c
    let (units, after) ← stringUnits rest
    return (e.toNat :: units, after)
  | c :: rest =>
    if c.toNat < 32 then none
    else (stringUnits rest).map fun (units, after) => (c.toNat :: units, after)

/-- The text of a string after its opening quote, and what follows the closing one. -/
def stringBody (cs : List Char) : Option (String × List Char) :=
  (stringUnits cs).map fun (units, after) => (String.ofList (joinUnits units), after)

/-- The digits before a point: a zero alone, or digits that do not start with a zero. -/
def integerPart : List Char → Option (List Char × List Char)
  | '0' :: rest => some (['0'], rest)
  | c :: rest => if isDigit c then some ((c :: rest).span isDigit) else none
  | [] => none

/-- The digits after a point, none if there is no point with a digit after it. -/
def fractionPart : List Char → List Char × List Char
  | '.' :: rest => if (rest.takeWhile isDigit).isEmpty then ([], '.' :: rest) else rest.span isDigit
  | cs => ([], cs)

/-- An exponent, if the text starts with one. -/
def exponentPart : List Char → Option (Int × List Char)
  | [] => none
  | e :: rest =>
    if e = 'e' ∨ e = 'E' then
      let (negative, ds) := match rest with
        | '-' :: ds => (true, ds)
        | '+' :: ds => (false, ds)
        | ds => (false, ds)
      if (ds.takeWhile isDigit).isEmpty then none
      else
        let n : Int := digitsValue (ds.takeWhile isDigit)
        some (if negative then -n else n, ds.dropWhile isDigit)
    else none

/-- A number whose sign has been read. Without a fraction and an exponent it is an integer. -/
def number? (negative : Bool) (cs : List Char) : Option (Token × List Char) := do
  let (whole, rest) ← integerPart cs
  let (fraction, rest) := fractionPart rest
  match exponentPart rest with
  | some (e, rest) => return (real negative whole fraction e, rest)
  | none =>
    if fraction.isEmpty then return (integer negative whole, rest)
    else return (real negative whole fraction 0, rest)
where
  real (negative : Bool) (whole fraction : List Char) (e : Int) : Token :=
    .num (.real (.ofDecimal negative (digitsValue (whole ++ fraction)) (e - fraction.length)))
  integer (negative : Bool) (whole : List Char) : Token :=
    if Text.maxDigits < whole.length then .longInteger whole.length
    else
      let n : Int := digitsValue whole
      .num (.int (if negative then -n else n))

/-- The words of JSON, and those of numbers that JSON does not have. -/
def words : List (List Char × Token) := [
  ("null".toList, .null), ("true".toList, .bool true), ("false".toList, .bool false),
  ("NaN".toList, .constant .nan), ("Infinity".toList, .constant .infinity),
  ("-Infinity".toList, .constant .negativeInfinity)]

def word? (cs : List Char) : Option (Token × List Char) :=
  (words.find? fun w => w.1.isPrefixOf cs).map fun w => (w.2, cs.drop w.1.length)

/-- The first token of a text that does not start with a space. -/
def lexeme? : List Char → Option (Token × List Char)
  | [] => none
  | '[' :: rest => some (.openBracket, rest)
  | ']' :: rest => some (.closeBracket, rest)
  | '{' :: rest => some (.openBrace, rest)
  | '}' :: rest => some (.closeBrace, rest)
  | ',' :: rest => some (.comma, rest)
  | ':' :: rest => some (.colon, rest)
  | '"' :: rest => (stringBody rest).map fun (s, after) => (.str s, after)
  | c :: rest =>
    match word? (c :: rest) with
    | some found => some found
    | none => if c = '-' then number? true rest else number? false (c :: rest)

/-- At most `fuel` steps of the scan; each step takes at least one character. -/
def scanWithin : Nat → List Char → List Token
  | _, [] => []
  | 0, _ :: _ => [.bad]
  | fuel + 1, c :: rest =>
    if isSpace c then scanWithin fuel rest
    else match lexeme? (c :: rest) with
      | some (t, after) => t :: scanWithin fuel after
      | none => [.bad]

def scan (cs : List Char) : List Token := scanWithin cs.length cs

end Token

end Json

end StyledTiles
