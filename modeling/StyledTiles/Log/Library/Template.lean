import StyledTiles.Json.Printer
import StyledTiles.Number.Places
import StyledTiles.Text.Integer

/-!
# Templates

A template is a text with directives; two percent signs stand for one. A directive starts with a single
percent sign and has, in this order, a key in parentheses, flags, a width, a precision after a point, a
letter that is ignored, and a conversion; all but the conversion may be missing. A width or a precision
may be left to an argument.

The arguments are a list, of which each directive takes the next, or one value from which keys select.
`Template.fill` takes the pieces of a template in order, so the first fault in the order of the text is
the one that is reported. Of a list no argument may be left over.
-/
namespace StyledTiles

/-- What a number in a directive, or an argument in its place, is for. -/
inductive Template.Measure where
  | width
  | precision
deriving DecidableEq, Repr

namespace Template.Measure

def name : Measure → String
  | .width => "width"
  | .precision => "precision"

/-- How many bits a measure has besides its sign. -/
def bits : Measure → Nat
  | .width => 63
  | .precision => 31

/-- The largest measure. -/
def limit (m : Measure) : Nat := Nat.pow 2 m.bits - 1

/-- The name of a measure's range of integers. -/
def rangeName : Measure → String
  | .width => "ssize_t"
  | .precision => "int"

end Template.Measure

inductive TemplateError where
  | incomplete
  | openKey
  | unsupported (c : Char) (index : Nat)
  | tooFew
  | tooMany
  | needsMembers
  | missingKey (key : String)
  | keyNotInteger
  | extentNotInteger
  | tooBig (measure : Template.Measure)
  | measureOutOfRange (measure : Template.Measure)
  | notReal (conversion : Char) (kind : String)
  | notInteger (conversion : Char) (kind : String)
  | notNumber (kind : String)
  | notCharacter
  | characterOutOfRange
  | nanToInteger
  | infinityToInteger
  | tooManyDigits
  | outOfMemory
  | outOfRange (e : OutOfRange)
deriving DecidableEq, Repr

def TemplateError.message : TemplateError → String
  | .incomplete => "incomplete format"
  | .openKey => "incomplete format key"
  | .unsupported c index =>
    "unsupported format character '" ++ (if 31 ≤ c.toNat ∧ c.toNat < 127 then c.toString else "?")
      ++ "' (0x" ++ String.ofList (Nat.toDigits 16 c.toNat) ++ ") at index " ++ toString index
  | .tooFew => "not enough arguments for format string"
  | .tooMany => "not all arguments converted during string formatting"
  | .needsMembers => "format requires a mapping"
  | .missingKey key => Text.quote key
  | .keyNotInteger => "list indices must be integers or slices, not str"
  | .extentNotInteger => "* wants int"
  | .tooBig m => m.name ++ " too big"
  | .measureOutOfRange m => "Python int too large to convert to C " ++ m.rangeName
  | .notReal c kind => "%" ++ c.toString ++ " format: a real number is required, not " ++ kind
  | .notInteger c kind => "%" ++ c.toString ++ " format: an integer is required, not " ++ kind
  | .notNumber kind => "must be real number, not " ++ kind
  | .notCharacter => "%c requires int or char"
  | .characterOutOfRange => "%c arg not in range(0x110000)"
  | .nanToInteger => "cannot convert float NaN to integer"
  | .infinityToInteger => "cannot convert float infinity to integer"
  | .tooManyDigits => "precision too large"
  | .outOfMemory => ""
  | .outOfRange e => e.message

namespace Template

/-- A width or a precision. -/
inductive Extent where
  | absent
  | stated (n : Nat)
  | fromArgument
deriving DecidableEq, Repr

structure Directive where
  key : Option String
  flags : List Char
  width : Extent
  precision : Extent
  /-- Missing at the end of a template. -/
  conversion : Option Char
  /-- The place of the conversion in the template. -/
  index : Nat
deriving DecidableEq, Repr

inductive Piece where
  | plain (c : Char)
  | directive (d : Directive)
  | openKey
deriving DecidableEq, Repr

/-! ## Reading -/

/-- The characters before the parenthesis that closes an open one, and those after it. -/
def closeKey : Nat → List Char → Option (List Char × List Char)
  | _, [] => none
  | 0, ')' :: rest => some ([], rest)
  | depth + 1, ')' :: rest => (closeKey depth rest).map fun (key, rest) => (')' :: key, rest)
  | depth, '(' :: rest => (closeKey (depth + 1) rest).map fun (key, rest) => ('(' :: key, rest)
  | depth, c :: rest => (closeKey depth rest).map fun (key, rest) => (c :: key, rest)

/-- A key if there is one; nothing if it does not end. -/
def key? : List Char → Option (Option String × List Char)
  | '(' :: rest => (closeKey 0 rest).map fun (key, rest) => (some (String.ofList key), rest)
  | cs => some (none, cs)

def extent (missing : Extent) : List Char → Extent × List Char
  | '*' :: rest => (.fromArgument, rest)
  | cs =>
    match cs.takeWhile Char.isDigit with
    | [] => (missing, cs)
    | ds => (.stated (Text.ofDigits (ds.map fun c => c.toNat - 48)), cs.dropWhile Char.isDigit)

/-- A precision is zero if only its point is written. -/
def precision : List Char → Extent × List Char
  | '.' :: rest => extent (.stated 0) rest
  | cs => (.absent, cs)

def isFlag (c : Char) : Bool := ['-', '+', ' ', '#', '0'].contains c

def dropSizeLetter : List Char → List Char
  | c :: rest => if c = 'h' ∨ c = 'l' ∨ c = 'L' then rest else c :: rest
  | [] => []

/-- The directive after a percent sign, and what follows it, in a template of the given length. -/
def directive (length : Nat) (cs : List Char) : Piece × List Char :=
  match key? cs with
  | none => (.openKey, [])
  | some (key, cs) =>
    let flags := cs.takeWhile isFlag
    let (width, cs) := extent .absent (cs.dropWhile isFlag)
    let (precision, cs) := precision cs
    let cs := dropSizeLetter cs
    (.directive ⟨key, flags, width, precision, cs.head?, length - cs.length⟩, cs.drop 1)

/-- The pieces of the rest of a template; a piece takes at least one character. -/
def scanRest (length : Nat) : Nat → List Char → List Piece
  | 0, _ | _, [] => []
  | fuel + 1, '%' :: '%' :: rest => .plain '%' :: scanRest length fuel rest
  | fuel + 1, '%' :: rest =>
    let (piece, rest) := directive length rest
    piece :: scanRest length fuel rest
  | fuel + 1, c :: rest => .plain c :: scanRest length fuel rest

def scan (template : String) : List Piece :=
  let cs := template.toList
  scanRest cs.length cs.length cs

/-! ## Conversions -/

/-- A number's text in parts: the sign, the mark of a base, and the digits. -/
structure Numeral where
  sign : List Char
  mark : List Char
  body : List Char

/-- Fills up to a width: with blanks after the text, with zeros before the digits, or with blanks before
the text. -/
def Numeral.laidOut (flags : List Char) (width : Nat) (n : Numeral) : List Char :=
  let room := width - (n.sign ++ n.mark ++ n.body).length
  if flags.contains '-' then n.sign ++ n.mark ++ n.body ++ List.replicate room ' '
  else if flags.contains '0' then n.sign ++ n.mark ++ List.replicate room '0' ++ n.body
  else List.replicate room ' ' ++ n.sign ++ n.mark ++ n.body

/-- A text is filled up with blanks only. -/
def laidOutText (flags : List Char) (width : Nat) (cs : List Char) : List Char :=
  Numeral.laidOut (flags.filter (· != '0')) width ⟨[], [], cs⟩

def signOf (flags : List Char) (negative : Bool) : List Char :=
  if negative then ['-'] else if flags.contains '+' then ['+']
  else if flags.contains ' ' then [' '] else []

/-- A text in ASCII, other characters escaped. -/
def ascii (cs : List Char) : List Char :=
  cs.flatMap fun c => if c.toNat < 128 then [c] else Text.codeEscape c.toNat

def upperCase (c : Char) (cs : List Char) : List Char :=
  if c.isUpper then cs.map Char.toUpper else cs

/-- The integer that a decimal directive writes: numbers lose their fraction. -/
def decimalInteger (c : Char) : Json → Except TemplateError Int
  | .bool b => .ok (if b then 1 else 0)
  | .num (.int n) => .ok n
  | .num (.real (.infinite _)) => .error .infinityToInteger
  | .num (.real x) =>
    match x.truncate? with
    | some n => .ok n
    | none => .error .nanToInteger
  | value => .error (.notReal c value.kindName)

/-- The integer that a directive of another base writes. -/
def exactInteger (c : Char) : Json → Except TemplateError Int
  | .bool b => .ok (if b then 1 else 0)
  | .num (.int n) => .ok n
  | value => .error (.notInteger c value.kindName)

def realNumber : Json → Except TemplateError Binary64
  | .bool b => .ok (if b then .nearest false 1 1 else .zero false)
  | .num n => n.toBinary64.mapError .outOfRange
  | value => .error (.notNumber value.kindName)

def integerNumeral (flags : List Char) (precision : Option Nat) (c : Char) (base : Nat) (n : Int) :
    Numeral :=
  let ds := Nat.toDigits base n.natAbs
  let mark := if flags.contains '#' ∧ base ≠ 10 then ['0', c] else []
  ⟨signOf flags (n < 0), mark,
    upperCase c (List.replicate (precision.getD 0 - ds.length) '0' ++ ds)⟩

def isNegative : Binary64 → Bool
  | .nan => false
  | .infinite negative => negative
  | .finite negative _ => negative

/-- More digits than a binary64 number ever has: with this many or more, only zeros follow. -/
def maxDigits : Nat := 1100

/-- The text of a real number. Of the largest precision no places are left to the scientific form, which
counts the digit before the point besides. -/
def realNumeral (flags : List Char) (precision : Option Nat) (c : Char) (x : Binary64) : Numeral :=
  let places := precision.getD 6
  let alternate := flags.contains '#'
  let body :=
    match x.abs.toRat? with
    | none => (if x = .nan then "nan" else "inf").toList
    | some q =>
      match c.toLower with
      | 'f' => Places.fixed alternate places q
      | 'e' => Places.scientific alternate (if places = Measure.limit .precision then 0 else places) q
      | _ => Places.general alternate (max 1 (if alternate then places else min places maxDigits)) q
  ⟨signOf flags (isNegative x), [], upperCase c body⟩

def character : Json → Except TemplateError (List Char)
  | .str s => if s.toList.length = 1 then .ok s.toList else .error .notCharacter
  | .bool b => .ok [if b then '\x01' else '\x00']
  | .num (.int n) =>
    if n < 0 ∨ 0x110000 ≤ n then .error .characterOutOfRange
    else .ok [Char.ofNat n.toNat]
  | _ => .error .notCharacter

/-- The digits of an integer, of which only so many can be asked for. -/
def checkDigits (precision : Option Nat) (n : Int) : Except TemplateError Int :=
  if Measure.limit .precision - 3 < precision.getD 0 then .error .tooManyDigits else .ok n

/-- A value as a directive writes it. -/
def convert (d : Directive) (flags : List Char) (width : Nat) (precision : Option Nat) (c : Char)
    (value : Json) : Except TemplateError (List Char) :=
  let cut (cs : List Char) := laidOutText flags width (cs.take (precision.getD cs.length))
  let integer (base : Nat) (read : Except TemplateError Int) := do
    let n ← checkDigits precision (← read)
    return (integerNumeral flags precision c base n).laidOut flags width
  if c = 's' then .ok (cut value.display.toList)
  else if c = 'r' then .ok (cut value.quoted.toList)
  else if c = 'a' then .ok (cut (ascii value.quoted.toList))
  else if c = 'c' then (character value).map (laidOutText flags width)
  else if ['d', 'i', 'u'].contains c then integer 10 (decimalInteger c value)
  else if c = 'o' then integer 8 (exactInteger c value)
  else if ['x', 'X'].contains c then integer 16 (exactInteger c value)
  else if ['e', 'E', 'f', 'F', 'g', 'G'].contains c then
    (realNumber value).map fun x => (realNumeral flags precision c x).laidOut flags width
  else .error (.unsupported c d.index)

/-! ## Filling -/

/-- The arguments that are left, and the value that keys select from. -/
structure Arguments where
  keyed : Option Json
  pending : List Json
deriving Repr

/-- One object that is not empty stands for its members as well as for itself. -/
def Arguments.ofList : List Json → Arguments
  | [.obj (m :: ms)] => ⟨some (.obj (m :: ms)), [.obj (m :: ms)]⟩
  | values => ⟨none, values⟩

/-- A value as the one argument. Keys select from anything but a text. -/
def Arguments.ofValue : Json → Arguments
  | .str s => ⟨none, [.str s]⟩
  | value => ⟨some value, [value]⟩

namespace Arguments

def next (a : Arguments) : Except TemplateError (Json × Arguments) :=
  match a.pending with
  | value :: rest => .ok (value, { a with pending := rest })
  | [] => .error .tooFew

/-- Makes the member of a key the next argument. -/
def select (a : Arguments) : Option String → Except TemplateError Arguments
  | none => .ok a
  | some key =>
    match a.keyed with
    | none => .error .needsMembers
    | some (.obj ms) =>
      match ms.lookup key with
      | some value => .ok { a with pending := [value] }
      | none => .error (.missingKey key)
    | some _ => .error .keyNotInteger

/-- The number of a measure. An argument for it may be negative. -/
def takeExtent (a : Arguments) (m : Measure) : Extent → Except TemplateError (Option Int × Arguments)
  | .absent => .ok (none, a)
  | .stated n => if m.limit < n then .error (.tooBig m) else .ok (some n, a)
  | .fromArgument => do
    match ← a.next with
    | (.num (.int n), a) =>
      if n < -m.limit - 1 ∨ m.limit < n then .error (.measureOutOfRange m) else .ok (some n, a)
    | (.bool b, a) => .ok (some (if b then 1 else 0), a)
    | _ => .error .extentNotInteger

/-- Whether arguments of a list are left over. -/
def remain (a : Arguments) : Bool := a.keyed.isNone && !a.pending.isEmpty

end Arguments

/-- How wide a text can be made. -/
def maxRoom : Nat := Nat.pow 2 36

/-- The room that a width asks for. The least width has no opposite and asks for none. -/
def roomOf (width : Int) : Nat := if width < -Measure.limit .width then 0 else width.natAbs

/-- A negative width puts the blanks after the text; a negative precision is zero. A value that cannot
be converted is reported before a text that is too wide. -/
def fillDirective (d : Directive) (a : Arguments) :
    Except TemplateError (List Char × Arguments) := do
  let a ← a.select d.key
  let (width, a) ← a.takeExtent .width d.width
  let (precision, a) ← a.takeExtent .precision d.precision
  match d.conversion with
  | none => .error .incomplete
  | some c => do
    let (value, a) ← a.next
    let width := width.getD 0
    let room := roomOf width
    let flags := if width < 0 then '-' :: d.flags else d.flags
    let cs ← convert d flags (if room ≤ maxRoom then room else 0) (precision.map Int.toNat) c value
    if room ≤ maxRoom then return (cs, a) else .error .outOfMemory

def fillPieces : List Piece → Arguments → Except TemplateError (List Char)
  | [], a => if a.remain then .error .tooMany else .ok []
  | .plain c :: rest, a => do return c :: (← fillPieces rest a)
  | .openKey :: _, a => .error (if a.keyed.isNone then .needsMembers else .openKey)
  | .directive d :: rest, a => do
    let (cs, a) ← fillDirective d a
    return cs ++ (← fillPieces rest a)

/-- Fills a template with arguments. -/
def fill (template : String) (arguments : Arguments) : Except TemplateError String :=
  (fillPieces (scan template) arguments).map String.ofList

end Template

end StyledTiles
