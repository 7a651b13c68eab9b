import StyledTiles.Number.Decimal

/-!
# Decimal text to a given number of places

A magnitude is rounded once, to the nearest decimal with the given number of digits; a half goes to the
even neighbour. What is written is those digits, with trailing zeros.
-/
namespace StyledTiles.Places

/-- The nearest natural number; a half goes to the even one. -/
def nearest (q : Rat) : Nat := Binary64.roundQuotient q.num.natAbs q.den

/-- At least `count` digits of a number, with zeros in front. -/
def padded (count n : Nat) : List Char :=
  let ds := Nat.toDigits 10 n
  List.replicate (count - ds.length) '0' ++ ds

/-- Digits before and after a point. Without digits after it the point is written only if asked for. -/
def pointed (keepPoint : Bool) (whole fraction : List Char) : List Char :=
  if fraction.isEmpty && !keepPoint then whole else whole ++ '.' :: fraction

/-- `places` digits after the point. -/
def fixed (keepPoint : Bool) (places : Nat) (q : Rat) : List Char :=
  let ds := padded (places + 1) (nearest (q * Decimal.tenPower places))
  pointed keepPoint (ds.take (ds.length - places)) (ds.drop (ds.length - places))

/-- The first `places + 1` digits, and the exponent of the first one. Rounding up to the next power of
ten moves the exponent. -/
def leading (places : Nat) (q : Rat) : List Char × Int :=
  if q = 0 then (List.replicate (places + 1) '0', 0)
  else
    let e := Decimal.order q
    let ds := Nat.toDigits 10 (nearest (q / Decimal.tenPower (e - places)))
    if places + 1 < ds.length then (ds.take (places + 1), e + 1) else (ds, e)

def exponential (keepPoint : Bool) (ds : List Char) (e : Int) : List Char :=
  pointed keepPoint (ds.take 1) (ds.drop 1) ++ (Decimal.exponentText e).toList

/-- One digit before the point, `places` after it, and an exponent. -/
def scientific (keepPoint : Bool) (places : Nat) (q : Rat) : List Char :=
  let (ds, e) := leading places q
  exponential keepPoint ds e

def dropZeros (ds : List Char) : List Char := (ds.reverse.dropWhile (· == '0')).reverse

/-- `count` digits in all, positionally unless the exponent is below -4 or takes more digits. Trailing
zeros after the point are left out unless they are to be kept. -/
def general (keepZeros : Bool) (count : Nat) (q : Rat) : List Char :=
  let (ds, e) := leading (count - 1) q
  let shown := if keepZeros then id else dropZeros
  if e < -4 ∨ (count : Int) ≤ e then
    exponential keepZeros (ds.take 1 ++ shown (ds.drop 1)) e
  else if e < 0 then
    pointed keepZeros ['0'] (shown (List.replicate (-e - 1).toNat '0' ++ ds))
  else pointed keepZeros (ds.take (e.toNat + 1)) (shown (ds.drop (e.toNat + 1)))

end StyledTiles.Places
