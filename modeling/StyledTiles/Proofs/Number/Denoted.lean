import Mathlib.Data.Rat.Floor
import StyledTiles.Json.Basic
import StyledTiles.Proofs.Number.Counting
import StyledTiles.Proofs.Outcome

/-!
# What numbers denote

A finite binary64 number denotes a rational. Being zero, comparing with an integer and cutting off the
fraction are operations on that rational. A number of a document is held as the binary64 number nearest to
it, and `Json.Denotes` is said of the rational that this denotes; `Json.IsExactly` is said of the number
as it is written.

The two differ for integers above the range of counting only, so for a number that is cut off to a small
integer, as the zoom of a stop is, it does not matter which of them is meant.
-/
namespace StyledTiles

open Outcome

/-- The integer that is left when the fraction of a rational is cut off. -/
def towardZero (q : Rat) : Int := if 0 ≤ q then ⌊q⌋ else ⌈q⌉

theorem towardZero_intCast (n : Int) : towardZero n = n := by
  rw [towardZero]
  split
  · exact Int.floor_intCast n
  · exact Int.ceil_intCast n

theorem tdiv_eq_towardZero (q : Rat) : q.num.tdiv q.den = towardZero q := by
  rw [towardZero]
  split
  next h =>
    have hnum : 0 ≤ q.num := Rat.num_nonneg.mpr h
    rw [Int.tdiv_eq_ediv_of_nonneg hnum, Rat.floor_def']
  next h =>
    have hnum : 0 ≤ (-q).num := Rat.num_nonneg.mpr (by linarith)
    have hfloor : (-q).num.tdiv (-q).den = ⌊-q⌋ := by
      rw [Int.tdiv_eq_ediv_of_nonneg hnum, Rat.floor_def']
    rw [Rat.num_neg_eq_neg_num, Rat.den_neg_eq_den, Int.neg_tdiv, Int.floor_neg] at hfloor
    exact neg_inj.mp hfloor

/-- What is cut off is less than one. -/
theorem abs_lt_towardZero (q : Rat) : |q| < |(towardZero q : Rat)| + 1 := by
  rw [towardZero]
  split
  next h =>
    have hfloor : (0 : Rat) ≤ (⌊q⌋ : Rat) := by exact_mod_cast Int.floor_nonneg.mpr h
    rw [abs_of_nonneg h, abs_of_nonneg hfloor]
    exact Int.lt_floor_add_one q
  next h =>
    have hneg : q < 0 := not_le.mp h
    have hceil : (⌈q⌉ : Rat) ≤ 0 := by
      exact_mod_cast Int.ceil_le.mpr (by exact_mod_cast hneg.le)
    rw [abs_of_neg hneg, abs_of_nonpos hceil]
    linarith [Int.ceil_lt_add_one q]

namespace Binary64

theorem significand_eq_zero {rank : Nat} : significand rank = 0 ↔ rank = 0 := by
  have hbinade : 0 < binade := by decide
  rw [significand]
  split
  · rfl
  · omega

theorem scaled_eq_zero {m : Nat} {e : Int} : scaled m e = 0 ↔ m = 0 := by
  rw [scaled]
  split
  · simp [Nat.shiftLeft_eq]
  · simp [Nat.shiftLeft_eq]

theorem isZero_iff {x : Binary64} : x.isZero = true ↔ x.toRat? = some 0 := by
  cases x with
  | nan => exact ⟨nofun, nofun⟩
  | infinite negative => exact ⟨nofun, nofun⟩
  | finite negative rank =>
    have hmagnitude : magnitude rank = 0 ↔ rank.val = 0 := by
      rw [magnitude, scaled_eq_zero, significand_eq_zero]
    cases negative <;> simp [isZero, toRat?, hmagnitude]

theorem truncate?_eq {x : Binary64} {q : Rat} (h : x.toRat? = some q) :
    x.truncate? = some (towardZero q) := by
  rw [truncate?, h, Option.map_some, tdiv_eq_towardZero]

theorem place?_real {x : Binary64} {q : Rat} (h : x.toRat? = some q) :
    (Number.real x).place? = some (.at q) := by
  cases x with
  | nan => cases h
  | infinite negative => cases h
  | finite negative rank => exact congrArg (Option.map Place.at) h

theorem isFinite_iff {x : Binary64} : x.isFinite = true ↔ ∃ q, x.toRat? = some q := by
  cases x with
  | nan => exact ⟨nofun, nofun⟩
  | infinite negative => exact ⟨nofun, nofun⟩
  | finite negative rank => exact ⟨fun _ => ⟨_, rfl⟩, fun _ => rfl⟩

/-! ## Large integers -/

/-- A natural number above the range of counting stays above it. -/
theorem countingLimit_le_magnitude {n : Nat} (h : countingLimit ≤ n) :
    (countingLimit : Rat) ≤ magnitude (nearestRank n 1) := by
  have hlimit : countingLimit = 2 ^ 53 := rfl
  have hbinade : binade = 2 ^ 52 := by decide
  have hn : n ≠ 0 := by
    rintro rfl
    exact absurd h (by decide)
  have hlog : 53 ≤ n.log2 := (Nat.le_log2 hn).mpr h
  obtain ⟨shift, hshift⟩ : ∃ shift, n.log2 = shift + 53 := ⟨n.log2 - 53, by omega⟩
  have hexponent : max ((n.log2 : Int) - 52) (-1074) = ((shift + 1 : Nat) : Int) := by omega
  have hsignificand : 2 ^ 52 ≤ roundQuotient n (1 <<< (shift + 1)) := by
    have hlow : 2 ^ 52 ≤ n / 2 ^ (shift + 1) := by
      rw [Nat.le_div_iff_mul_le (Nat.two_pow_pos _), ← Nat.pow_add]
      have hsum : 52 + (shift + 1) = n.log2 := by omega
      rw [hsum]
      exact Nat.log2_self_le hn
    rw [roundQuotient, Nat.shiftLeft_eq, Nat.one_mul]
    split <;> omega
  have hrank : 1076 * 2 ^ 52 ≤ nearestRank n 1 := by
    rw [nearestRank, if_neg hn, order_one hn]
    simp only [hexponent, Int.natCast_nonneg, if_true, Int.toNat_natCast]
    have hhigh : (((shift + 1 : Nat) : Int) + 1074).toNat = shift + 1075 := by omega
    rw [hhigh, Nat.shiftLeft_eq]
    omega
  have hnormal : ¬ nearestRank n 1 < binade := by omega
  have hscale : 1 ≤ scale (nearestRank n 1) := by
    rw [scale, if_neg hnormal, hbinade]
    omega
  have hfull : 2 ^ 52 ≤ significand (nearestRank n 1) := by
    rw [significand, if_neg hnormal]
    omega
  rw [magnitude, scaled, if_pos (by omega), mkRat_one_den, Nat.shiftLeft_eq, hlimit]
  have htwo : 2 ^ 1 ≤ 2 ^ (scale (nearestRank n 1)).toNat :=
    Nat.pow_le_pow_right (by decide) (by omega)
  exact_mod_cast Nat.mul_le_mul hfull htwo

theorem ofInt?_eq_some {n : Int} {x : Binary64} (h : ofInt? n = some x) :
    ∃ hrank, x = .finite (decide (n < 0)) ⟨nearestRank n.natAbs 1, hrank⟩ := by
  rw [ofInt?, nearest] at h
  by_cases hrank : nearestRank n.natAbs 1 < finiteRanks
  · rw [dif_pos hrank] at h
    cases h
    exact ⟨hrank, rfl⟩
  · rw [dif_neg hrank] at h
    cases h

/-- An integer is held exactly, or beyond the range of counting if it lies there. -/
theorem ofInt?_denotes {n : Int} {x : Binary64} {q : Rat} (hx : ofInt? n = some x)
    (hq : x.toRat? = some q) : q = n ∨ (countingLimit : Rat) ≤ |q| := by
  obtain ⟨_, rfl⟩ := ofInt?_eq_some hx
  simp only [toRat?, Option.some.injEq, decide_eq_true_eq] at hq
  subst hq
  rcases Nat.le_total n.natAbs countingLimit with hsmall | hlarge
  · left
    rw [magnitude_nearestRank hsmall]
    split
    next hneg => rw [Nat.cast_natAbs, abs_of_neg hneg, Int.cast_neg, neg_neg]
    next hpos => rw [Nat.cast_natAbs, abs_of_nonneg (Int.not_lt.mp hpos)]
  · right
    have hmagnitude := countingLimit_le_magnitude hlarge
    split
    · rw [abs_neg]
      exact hmagnitude.trans (le_abs_self _)
    · exact hmagnitude.trans (le_abs_self _)

/-- An integer that is cut off to less than the limit of counting was that integer. -/
theorem ofInt?_towardZero {n : Int} {x : Binary64} {q : Rat} (hx : ofInt? n = some x)
    (hq : x.toRat? = some q) (hsmall : |(towardZero q : Rat)| + 1 ≤ countingLimit) : q = n := by
  refine (ofInt?_denotes hx hq).resolve_right fun hlarge => ?_
  have hcut : |q| < |(towardZero q : Rat)| + 1 := abs_lt_towardZero q
  linarith

end Binary64

/-! ## Comparisons with an integer -/

namespace Number

theorem place?_int (n : Int) : (Number.int n).place? = some (.at n) := by
  rw [place?]
  congr 2
  exact Rat.mkRat_one n

theorem same_int {m n : Int} : (Number.int m).same (.int n) = true ↔ m = n := by
  simp [same, le, place?_int, Place.le, Int.le_antisymm_iff]

theorem real_le_int {x : Binary64} {q : Rat} (h : x.toRat? = some q) (n : Int) :
    (Number.real x).le (.int n) = true ↔ q ≤ n := by
  simp [le, Binary64.place?_real h, place?_int, Place.le]

theorem int_lt_real {x : Binary64} {q : Rat} (h : x.toRat? = some q) (n : Int) :
    (Number.int n).lt (.real x) = true ↔ (n : Rat) < q := by
  simp [lt, Binary64.place?_real h, place?_int, Place.lt, Place.le]

theorem toBinary64_int {n : Int} {x : Binary64} :
    (Number.int n).toBinary64 = .ok x ↔ Binary64.ofInt? n = some x := by
  rw [toBinary64]
  cases Binary64.ofInt? n with
  | some y => simp
  | none => simp

theorem toFinite_eq_some {n : Number} {x : Binary64} :
    n.toFinite = .ok (some x) ↔ n.toBinary64 = .ok x ∧ x.isFinite = true := by
  cases n with
  | int n =>
    rw [toFinite, map_eq_ok]
    constructor
    · rintro ⟨y, hy, heq⟩
      cases heq
      obtain ⟨_, rfl⟩ := Binary64.ofInt?_eq_some (toBinary64_int.mp hy)
      exact ⟨hy, rfl⟩
    · rintro ⟨hx, _⟩
      exact ⟨x, hx, rfl⟩
  | real y =>
    rw [toFinite, toBinary64]
    by_cases hy : y.isFinite = true
    · simp only [hy, if_true, Except.ok.injEq, Option.some.injEq]
      exact ⟨fun h => ⟨h, h ▸ hy⟩, And.left⟩
    · have hnone : ¬ (y = x ∧ x.isFinite = true) := fun h => hy (h.1 ▸ h.2)
      simpa [hy] using hnone

end Number

/-! ## Numbers of a document -/

namespace Json

/-- The value is a number, and the binary64 number nearest to it is finite and denotes `q`. -/
def Denotes (j : Json) (q : Rat) : Prop :=
  ∃ n x, j = .num n ∧ n.toBinary64 = .ok x ∧ x.toRat? = some q

/-- The value is a number that lies at `q` as it is written. -/
def IsExactly (j : Json) (q : Rat) : Prop := ∃ n, j = .num n ∧ n.place? = some (.at q)

variable {j : Json} {q : Rat}

theorem denotes_iff : j.Denotes q ↔ ∃ x, j.finite = .ok (some x) ∧ x.toRat? = some q := by
  constructor
  · rintro ⟨n, x, rfl, hx, hq⟩
    exact ⟨x, Number.toFinite_eq_some.mpr ⟨hx, Binary64.isFinite_iff.mpr ⟨q, hq⟩⟩, hq⟩
  · rintro ⟨x, hx, hq⟩
    cases j with
    | num n => exact ⟨n, x, rfl, (Number.toFinite_eq_some.mp hx).1, hq⟩
    | _ => cases hx

theorem Denotes.unique {p : Rat} (hp : j.Denotes p) (hq : j.Denotes q) : p = q := by
  obtain ⟨x, hx, hp⟩ := denotes_iff.mp hp
  obtain ⟨y, hy, hq⟩ := denotes_iff.mp hq
  obtain rfl : x = y := by simpa [hx] using hy
  exact Option.some.inj (hp.symm.trans hq)

/-- A value that is held as a finite number denotes one. -/
theorem exists_denotes {x : Binary64} (h : j.finite = .ok (some x)) :
    ∃ q, x.toRat? = some q ∧ j.Denotes q := by
  cases j with
  | num n =>
    obtain ⟨q, hq⟩ := Binary64.isFinite_iff.mp (Number.toFinite_eq_some.mp h).2
    exact ⟨q, hq, denotes_iff.mpr ⟨x, h, hq⟩⟩
  | _ => cases h

theorem not_denotes (h : j.finite = .ok none) (q : Rat) : ¬ j.Denotes q := by
  intro hq
  obtain ⟨x, hx, _⟩ := denotes_iff.mp hq
  rw [h] at hx
  cases hx

/-- What denotes a small number is that number as it is written. -/
theorem Denotes.isExactly (h : j.Denotes q)
    (hsmall : |(towardZero q : Rat)| + 1 ≤ Binary64.countingLimit) : j.IsExactly q := by
  obtain ⟨n, x, rfl, hx, hq⟩ := h
  refine ⟨n, rfl, ?_⟩
  cases n with
  | int n =>
    rw [Binary64.ofInt?_towardZero (Number.toBinary64_int.mp hx) hq hsmall, Number.place?_int]
  | real y =>
    cases hx
    exact Binary64.place?_real hq

theorem isExactly_int {n : Int} : (Json.int n).IsExactly q ↔ q = n := by
  constructor
  · rintro ⟨_, heq, hplace⟩
    cases heq
    rw [Number.place?_int] at hplace
    cases hplace
    rfl
  · rintro rfl
    exact ⟨.int n, rfl, Number.place?_int n⟩

end Json

end StyledTiles
