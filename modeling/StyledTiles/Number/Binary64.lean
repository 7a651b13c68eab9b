/-!
# Binary64 numbers

A number is held exactly: NaN, a signed infinity, or a sign together with the rank of its magnitude
among the finite magnitudes, zero first and in increasing order. Every value has one representation,
so equality of representations is equality of numbers, except that the two zeros differ.

Arithmetic goes through the rationals: an operation computes the exact result and `nearest` rounds it
once, a tie going to the even significand. Nothing here depends on the machine's own floating point.
-/
namespace StyledTiles

namespace Binary64

/-- How many magnitudes share an exponent. -/
def binade : Nat := 1 <<< 52

/-- How many magnitudes are finite: a binade of subnormals and 2046 of normals. -/
def finiteRanks : Nat := 2047 <<< 52

end Binary64

/-- A binary64 number. -/
inductive Binary64 where
  | nan
  | infinite (negative : Bool)
  | finite (negative : Bool) (rank : Fin Binary64.finiteRanks)
deriving DecidableEq, Repr

namespace Binary64

/-- The integral significand of the magnitude of a given rank. -/
def significand (rank : Nat) : Nat :=
  if rank < binade then rank else binade + rank % binade

/-- The exponent of the power of two that scales the significand. -/
def scale (rank : Nat) : Int :=
  if rank < binade then -1074 else (rank / binade : Nat) - 1075

/-- A natural number times a power of two. -/
def scaled (m : Nat) (e : Int) : Rat :=
  if 0 ≤ e then mkRat (m <<< e.toNat : Nat) 1 else mkRat m (1 <<< (-e).toNat)

/-- The magnitude of a given rank; the rank after the last finite one would have `2 ^ 1024`. -/
def magnitude (rank : Nat) : Rat := scaled (significand rank) (scale rank)

/-- The number that a finite datum denotes; both zeros denote zero. -/
def toRat? : Binary64 → Option Rat
  | .finite negative rank => some (if negative then -magnitude rank else magnitude rank)
  | _ => none

def isFinite : Binary64 → Bool
  | .finite _ _ => true
  | _ => false

/-- Both zeros are zero. -/
def isZero : Binary64 → Bool
  | .finite _ rank => rank.val == 0
  | _ => false

/-- The zero of the given sign. -/
def zero (negative : Bool) : Binary64 := .finite negative ⟨0, by decide⟩

/-- The nearest integer to `num / den`; a half goes to the even neighbour. -/
def roundQuotient (num den : Nat) : Nat :=
  let q := num / den
  let r := num % den
  if 2 * r < den ∨ (2 * r = den ∧ q % 2 = 0) then q else q + 1

/-- The exponent of the power of two at or just below `num / den`, both positive. -/
def order (num den : Nat) : Int :=
  let guess : Int := (num.log2 : Int) - den.log2
  let below :=
    if 0 ≤ guess then decide (num < den <<< guess.toNat)
    else decide (num <<< (-guess).toNat < den)
  if below then guess - 1 else guess

/-- The rank of the magnitude nearest to `num / den`, not bounded by the finite ranks. The rounded
significand is added to the rank of its binade, so a carry out of it moves to the next binade. -/
def nearestRank (num den : Nat) : Nat :=
  if num = 0 then 0 else
    let e := max (order num den - 52) (-1074)
    let m := if 0 ≤ e then roundQuotient num (den <<< e.toNat)
      else roundQuotient (num <<< (-e).toNat) den
    ((e + 1074).toNat <<< 52) + m

/-- The binary64 number nearest to `num / den` with the given sign, for a positive `den`. -/
def nearest (negative : Bool) (num den : Nat) : Binary64 :=
  let rank := nearestRank num den
  if h : rank < finiteRanks then .finite negative ⟨rank, h⟩ else .infinite negative

/-- The binary64 number nearest to a rational; zero becomes the positive zero. -/
def ofRat (q : Rat) : Binary64 := nearest (q.num < 0) q.num.natAbs q.den

/-- The binary64 number nearest to an integer, or nothing when that is an infinity. -/
def ofInt? (n : Int) : Option Binary64 :=
  match nearest (n < 0) n.natAbs 1 with
  | .finite negative rank => some (.finite negative rank)
  | _ => none

/-- The binary64 number nearest to `digits * 10 ^ exponent`. Powers that cannot matter are not
computed: beyond `10 ^ 400` all is infinite, below `10 ^ (-400)` all is zero. -/
def ofDecimal (negative : Bool) (digits : Nat) (exponent : Int) : Binary64 :=
  if digits = 0 then zero negative
  else if 400 < exponent then .infinite negative
  else if exponent + digits.log2 + 1 < -400 then zero negative
  else if 0 ≤ exponent then nearest negative (digits * Nat.pow 10 exponent.toNat) 1
  else nearest negative digits (Nat.pow 10 (-exponent).toNat)

def neg : Binary64 → Binary64
  | .nan => .nan
  | .infinite negative => .infinite !negative
  | .finite negative rank => .finite (!negative) rank

def abs : Binary64 → Binary64
  | .nan => .nan
  | .infinite _ => .infinite false
  | .finite _ rank => .finite false rank

/-- The rounded sum. Infinities of opposite signs have none; a sum of zero is negative only if
both summands are. -/
def add : Binary64 → Binary64 → Binary64
  | .nan, _ | _, .nan => .nan
  | .infinite s, .infinite t => if s = t then .infinite s else .nan
  | .infinite s, .finite _ _ | .finite _ _, .infinite s => .infinite s
  | .finite s a, .finite t b =>
    let sum := (if s then -magnitude a else magnitude a) + (if t then -magnitude b else magnitude b)
    if sum.num = 0 then zero (s && t) else ofRat sum

/-- The rounded difference. -/
def sub (x y : Binary64) : Binary64 := add x y.neg

/-- The integer part, towards zero; only a finite number has one. -/
def truncate? (x : Binary64) : Option Int :=
  x.toRat?.map fun q => q.num.tdiv q.den

/-- The 64 bits of the interchange format; NaN has those of the quiet one. -/
def toBits : Binary64 → Nat
  | .nan => 4095 <<< 51
  | .infinite negative => ((if negative then 4095 else 2047) <<< 52)
  | .finite negative rank => (if negative then 1 <<< 63 else 0) + rank

/-- The distance from one to the next number. -/
def epsilon : Binary64 := nearest false 1 binade

end Binary64

end StyledTiles
