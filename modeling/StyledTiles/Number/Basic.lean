import StyledTiles.Number.Binary64

/-!
# Numbers of a document

A number is an exact integer or a binary64 number, as its text in a document was. Comparisons are of
the exact values, whatever the kinds: `2 ^ 53 + 1` is above the binary64 number `2 ^ 53`. NaN has no
place in the order, so every comparison with it is false.
-/
namespace StyledTiles

inductive Number where
  | int (n : Int)
  | real (x : Binary64)
deriving DecidableEq, Repr

/-- An integer lies beyond the finite binary64 numbers where one of them is needed. -/
structure OutOfRange where
deriving DecidableEq, Repr

def OutOfRange.message (_ : OutOfRange) : String := "int too large to convert to float"

/-- A place on the extended number line. -/
inductive Place where
  | below
  | at (q : Rat)
  | above
deriving DecidableEq, Repr

namespace Place

def le : Place → Place → Bool
  | .below, _ | _, .above => true
  | .at p, .at q => decide (p ≤ q)
  | _, _ => false

def lt (a b : Place) : Bool := !b.le a

end Place

namespace Number

/-- Where the number lies; NaN lies nowhere. -/
def place? : Number → Option Place
  | .int n => some (.at (mkRat n 1))
  | .real .nan => none
  | .real (.infinite negative) => some (if negative then .below else .above)
  | .real (.finite negative rank) =>
    some (.at (if negative then -Binary64.magnitude rank else Binary64.magnitude rank))

def le (a b : Number) : Bool :=
  match a.place?, b.place? with
  | some p, some q => p.le q
  | _, _ => false

def lt (a b : Number) : Bool :=
  match a.place?, b.place? with
  | some p, some q => p.lt q
  | _, _ => false

/-- Numeric equality: an integer equals the binary64 number of the same value. -/
def same (a b : Number) : Bool := a.le b && b.le a

/-- The nearest binary64 number, if there is a finite one for an integer. -/
def toBinary64 : Number → Except OutOfRange Binary64
  | .int n =>
    match Binary64.ofInt? n with
    | some x => .ok x
    | none => .error ⟨⟩
  | .real x => .ok x

/-- The binary64 number nearest to a finite number; NaN and the infinities have none. -/
def toFinite : Number → Except OutOfRange (Option Binary64)
  | .int n => (Number.int n).toBinary64.map some
  | .real x => .ok (if x.isFinite then some x else none)

end Number

end StyledTiles
