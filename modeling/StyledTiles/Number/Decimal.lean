import StyledTiles.Number.Binary64

/-!
# Decimal text of binary64 numbers

`shortest?` finds the decimal with the fewest digits that still rounds to the given number, and of
those the nearest to it, or the one with the even last digit when two are equally near. On the grid of a
given number of digits only the two neighbours of the number are tried: if any point of a grid rounds to
the number, so does one of these two.

`Decimal.text` lays the digits out: positionally while the point stays near the digits, otherwise with
an exponent of at least two digits.
-/
namespace StyledTiles

/-- `digits * 10 ^ exponent` with a sign. -/
structure Decimal where
  negative : Bool
  digits : Nat
  exponent : Int
deriving DecidableEq, Repr

namespace Decimal

def tenPower (k : Int) : Rat :=
  if 0 ≤ k then mkRat (Nat.pow 10 k.toNat) 1 else mkRat 1 (Nat.pow 10 (-k).toNat)

/-- The exponent of the power of ten at or just below a positive rational. The estimate from the
binary order is at most one off. -/
def order (q : Rat) : Int :=
  let guess := Binary64.order q.num.natAbs q.den * 30103 / 100000
  if tenPower (guess + 1) ≤ q then guess + 1
  else if q < tenPower guess then guess - 1
  else guess

/-- Drops trailing zeros, at most `fuel` of them. -/
def trim : Nat → Decimal → Decimal
  | 0, d => d
  | fuel + 1, d =>
    if d.digits ≠ 0 ∧ d.digits % 10 = 0 then trim fuel ⟨d.negative, d.digits / 10, d.exponent + 1⟩
    else d

/-- The characters of the digits and the place of the point among them. -/
def layoutDigits (d : Decimal) : List Char × Int :=
  let ds := (toString d.digits).toList
  (ds, ds.length + d.exponent)

/-- The point is written among or next to the digits when it falls at most three places before the
first digit and at most sixteen after it. -/
def isPositional (point : Int) : Bool := decide (-4 < point ∧ point ≤ 16)

/-- An exponent has a sign and at least two digits. -/
def exponentText (e : Int) : String :=
  let n := toString e.natAbs
  (if e < 0 then "e-" else "e+") ++ (if n.length < 2 then "0" ++ n else n)

/-- The text of a decimal without its sign. -/
def magnitudeText (d : Decimal) : String :=
  let (ds, point) := d.layoutDigits
  if isPositional point then
    if point ≤ 0 then "0." ++ String.ofList (List.replicate (-point).toNat '0' ++ ds)
    else if ds.length ≤ point then
      String.ofList (ds ++ List.replicate (point.toNat - ds.length) '0') ++ ".0"
    else String.ofList (ds.take point.toNat) ++ "." ++ String.ofList (ds.drop point.toNat)
  else
    let head := String.ofList (ds.take 1)
    let rest := String.ofList (ds.drop 1)
    (if rest.isEmpty then head else head ++ "." ++ rest) ++ exponentText (point - 1)

def text (d : Decimal) : String := (if d.negative then "-" else "") ++ d.magnitudeText

end Decimal

namespace Binary64

/-- Whether a rational rounds to the magnitude of a positive rank. The ends of the interval count
exactly when the significand is even. -/
def roundsToRank (rank : Nat) (q : Rat) : Bool :=
  let middle := magnitude rank
  let low := (magnitude (rank - 1) + middle) / 2
  let high := (middle + magnitude (rank + 1)) / 2
  if rank % 2 = 0 then decide (low ≤ q ∧ q ≤ high) else decide (low < q ∧ q < high)

/-- Whether the upper of two neighbours on a grid is taken, given the distances to both and the digits
of the lower one. A tie goes to the even digits. -/
def takesUpper (toLower toUpper : Rat) (low : Nat) : Bool :=
  decide (toUpper < toLower ∨ (toUpper = toLower ∧ low % 2 = 1))

/-- The decimal of `count` digits that is nearest to the magnitude and rounds to it. -/
def withDigits? (rank count : Nat) : Option Decimal :=
  let v := magnitude rank
  let k := Decimal.order v - (count - 1)
  let unit := Decimal.tenPower k
  let low := (v / unit).floor.toNat
  let lower := mkRat low 1 * unit
  let upper := lower + unit
  match roundsToRank rank lower, roundsToRank rank upper with
  | true, true => some ⟨false, if takesUpper (v - lower) (upper - v) low then low + 1 else low, k⟩
  | true, false => some ⟨false, low, k⟩
  | false, true => some ⟨false, low + 1, k⟩
  | false, false => none

/-- Tries `count` digits, then more, up to `fuel` further attempts. -/
def search (rank : Nat) : Nat → Nat → Option Decimal
  | 0, _ => none
  | fuel + 1, count =>
    match withDigits? rank count with
    | some d => some d
    | none => search rank fuel (count + 1)

/-- The shortest decimal of a finite number. Seventeen digits always suffice. -/
def shortest? : Binary64 → Option Decimal
  | .finite negative rank =>
    if rank.val = 0 then some ⟨negative, 0, 0⟩
    else (search rank 17 1).map fun d => { d.trim 17 with negative := negative }
  | _ => none

end Binary64

end StyledTiles
