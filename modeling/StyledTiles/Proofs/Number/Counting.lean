import Mathlib.Algebra.Ring.Nat
import StyledTiles.Metrics.Family

/-!
# Counting with binary64 numbers

A natural number up to `2 ^ 53` is a binary64 number exactly, so sums of such numbers are exact as long
as they stay in that range. What happens above it is not looked at: there one more may be no more.
-/
namespace StyledTiles.Binary64

/-- The binary64 number nearest to a natural number. -/
def ofNat (n : Nat) : Binary64 := nearest false n 1

/-- The largest natural number up to which counting is exact. -/
def countingLimit : Nat := 2 ^ 53

theorem ofNat_zero : ofNat 0 = zero false := by decide

/-! ## Ranks of natural numbers -/

theorem roundQuotient_one (m : Nat) : roundQuotient m 1 = m := by
  simp [roundQuotient, Nat.mod_one]

theorem order_one {n : Nat} (h : n ≠ 0) : order n 1 = n.log2 := by
  have hone : Nat.log2 1 = 0 := by decide
  have hle : 2 ^ n.log2 ≤ n := Nat.log2_self_le h
  simp [order, hone, Nat.shiftLeft_eq, Nat.not_lt.mpr hle]

theorem log2_le_of_lt {n : Nat} (h : n < countingLimit) : n.log2 ≤ 52 := by
  by_cases hn : n = 0
  · simp [hn]
  · have hlog : n.log2 < 53 := (Nat.log2_lt hn).mpr h
    omega

/-- The significand of a natural number, scaled to the 53 bits that there are. -/
theorem scaled_bounds {n : Nat} (hn : n ≠ 0) (h : n < countingLimit) :
    2 ^ 52 ≤ n * 2 ^ (52 - n.log2) ∧ n * 2 ^ (52 - n.log2) < 2 ^ 53 := by
  have hlog := log2_le_of_lt h
  have hlow : 2 ^ n.log2 ≤ n := Nat.log2_self_le hn
  have hhigh : n < 2 ^ (n.log2 + 1) := Nat.lt_log2_self
  have hpow : 2 ^ n.log2 * 2 ^ (52 - n.log2) = 2 ^ 52 := by
    rw [← Nat.pow_add]
    congr 1
    omega
  have hpow' : 2 ^ (n.log2 + 1) * 2 ^ (52 - n.log2) = 2 ^ 53 := by
    rw [← Nat.pow_add]
    congr 1
    omega
  constructor
  · rw [← hpow]
    exact Nat.mul_le_mul_right _ hlow
  · rw [← hpow']
    exact Nat.mul_lt_mul_of_pos_right hhigh (Nat.two_pow_pos _)

theorem nearestRank_one {n : Nat} (hn : n ≠ 0) (h : n < countingLimit) :
    nearestRank n 1 = (n.log2 + 1022) * 2 ^ 52 + n * 2 ^ (52 - n.log2) := by
  have hlog := log2_le_of_lt h
  have he : max ((n.log2 : Int) - 52) (-1074) = (n.log2 : Int) - 52 := by omega
  have hrank : ((n.log2 : Int) - 52 + 1074).toNat = n.log2 + 1022 := by omega
  rw [nearestRank, if_neg hn, order_one hn]
  simp only [he, hrank, Nat.shiftLeft_eq]
  split
  · have hfull : n.log2 = 52 := by omega
    simp [hfull, roundQuotient_one]
  · have hshift : (-((n.log2 : Int) - 52)).toNat = 52 - n.log2 := by omega
    rw [hshift, roundQuotient_one]

/-! ## Magnitudes -/

theorem mkRat_one_den (n : Nat) : mkRat (n : Int) 1 = n :=
  (Rat.mkRat_one n).trans (Rat.intCast_natCast n)

/-- Shifting a significand up and scaling it down again changes nothing. -/
theorem scaled_shifted (n shift : Nat) : scaled (n * 2 ^ shift) (-(shift : Int)) = n := by
  rw [scaled]
  split
  · have hzero : shift = 0 := by omega
    subst hzero
    simpa [Nat.shiftLeft_eq] using mkRat_one_den n
  · have hshift : (- -(shift : Int)).toNat = shift := by omega
    have hpow : (2 ^ shift : Nat) ≠ 0 := Nat.ne_of_gt (Nat.two_pow_pos shift)
    have hscale := Rat.mkRat_mul_right (n := (n : Int)) (d := 1) hpow
    rw [hshift, Nat.shiftLeft_eq, Int.natCast_mul, hscale, mkRat_one_den]

/-- Natural numbers in the range are magnitudes. -/
theorem magnitude_nearestRank {n : Nat} (h : n ≤ countingLimit) :
    magnitude (nearestRank n 1) = n := by
  by_cases hn : n = 0
  · subst hn
    decide
  by_cases htop : n = countingLimit
  · subst htop
    decide +kernel
  have hlt : n < countingLimit := Nat.lt_of_le_of_ne h htop
  have hlog := log2_le_of_lt hlt
  obtain ⟨hlow, hhigh⟩ := scaled_bounds hn hlt
  have hbinade : binade = 2 ^ 52 := by decide
  have hrank := nearestRank_one hn hlt
  -- The significand carries into the next binade, so the rank lies one binade above its exponent.
  have hdiv : nearestRank n 1 / 2 ^ 52 = n.log2 + 1023 := by omega
  have hmod : nearestRank n 1 % 2 ^ 52 = n * 2 ^ (52 - n.log2) - 2 ^ 52 := by omega
  have hnormal : ¬ nearestRank n 1 < 2 ^ 52 := by omega
  have hsignificand : significand (nearestRank n 1) = n * 2 ^ (52 - n.log2) := by
    rw [significand, hbinade, if_neg hnormal, hmod]
    omega
  have hscale : scale (nearestRank n 1) = -((52 - n.log2 : Nat) : Int) := by
    rw [scale, hbinade, if_neg hnormal, hdiv]
    omega
  rw [magnitude, hsignificand, hscale, scaled_shifted]

theorem roundQuotient_le (num den : Nat) : roundQuotient num den ≤ num / den + 1 := by
  simp only [roundQuotient]
  split <;> omega

/-- A natural number well below the powers of two that are out of range has a finite rank. -/
theorem nearestRank_lt_of_log2_lt {n : Nat} (h : n.log2 < 1023) : nearestRank n 1 < finiteRanks := by
  have hfinite : finiteRanks = 2047 * 2 ^ 52 := by decide
  by_cases hn : n = 0
  · subst hn
    decide
  have hlimit : n < 2 ^ (n.log2 + 1) := Nat.lt_log2_self
  by_cases hsmall : n.log2 ≤ 52
  · have hlt : n < countingLimit :=
      Nat.lt_of_lt_of_le hlimit (Nat.pow_le_pow_right (by decide) (by omega))
    have hhigh := (scaled_bounds hn hlt).2
    rw [nearestRank_one hn hlt, hfinite]
    omega
  · obtain ⟨shift, hshift⟩ : ∃ shift, n.log2 = shift + 52 := ⟨n.log2 - 52, by omega⟩
    have he : max ((n.log2 : Int) - 52) (-1074) = shift := by omega
    have hquotient : n / 2 ^ shift < 2 ^ 53 := by
      rw [Nat.div_lt_iff_lt_mul (Nat.two_pow_pos shift), ← Nat.pow_add]
      refine Nat.lt_of_lt_of_le hlimit (Nat.pow_le_pow_right (by decide) (by omega))
    have hround := roundQuotient_le n (2 ^ shift)
    rw [nearestRank, if_neg hn, order_one hn, hfinite]
    simp only [he, Int.natCast_nonneg, if_true, Int.toNat_natCast, Nat.shiftLeft_eq, Nat.one_mul]
    omega

theorem nearestRank_lt {n : Nat} (h : n ≤ countingLimit) : nearestRank n 1 < finiteRanks := by
  refine nearestRank_lt_of_log2_lt ?_
  by_cases hn : n = 0
  · simp [hn]
  · exact (Nat.log2_lt hn).mpr (Nat.lt_of_le_of_lt h (by decide +kernel))

/-! ## Sums -/

theorem ofNat_eq_finite {n : Nat} (h : n ≤ countingLimit) :
    ofNat n = .finite false ⟨nearestRank n 1, nearestRank_lt h⟩ := by
  rw [ofNat, nearest, dif_pos (nearestRank_lt h)]

/-- Counting is exact up to the limit. -/
theorem add_ofNat {m n : Nat} (h : m + n ≤ countingLimit) :
    add (ofNat m) (ofNat n) = ofNat (m + n) := by
  have hm : m ≤ countingLimit := by omega
  have hn : n ≤ countingLimit := by omega
  have hsum : magnitude (nearestRank m 1) + magnitude (nearestRank n 1) = ((m + n : Nat) : Rat) := by
    rw [magnitude_nearestRank hm, magnitude_nearestRank hn, Rat.natCast_add]
  rw [ofNat_eq_finite hm, ofNat_eq_finite hn]
  simp only [add, Bool.false_eq_true, if_false, hsum, Rat.num_natCast, Bool.and_self]
  split
  · rename_i hzero
    have hzero : m + n = 0 := by omega
    rw [hzero, ofNat_zero]
  · have hnonneg : decide (((m + n : Nat) : Int) < 0) = false :=
      decide_eq_false (Int.not_lt.mpr (Int.natCast_nonneg _))
    rw [ofRat, Rat.num_natCast, Rat.den_natCast, hnonneg]
    rfl

theorem int_lt_zero (n : Int) : (Number.int n).lt (.int 0) = decide (n < 0) := by
  rw [Bool.eq_iff_iff, decide_eq_true_iff]
  rw [← Int.not_le, ← Rat.intCast_nonneg]
  simp [Number.lt, Number.place?, Place.lt, Place.le, Rat.mkRat_one]

theorem natCast_not_negative (n : Nat) : (Number.int n).lt (.int 0) = false := by
  rw [int_lt_zero]
  exact decide_eq_false (by omega)

/-- A natural number in the range is an amount that can be counted. -/
theorem toBinary64_natCast {n : Nat} (h : n ≤ countingLimit) :
    (Number.int n).toBinary64 = .ok (ofNat n) := by
  have hnonneg : decide ((n : Int) < 0) = false := by simp
  have hnearest : nearest (decide ((n : Int) < 0)) (n : Int).natAbs 1 = ofNat n := by
    rw [hnonneg]
    rfl
  rw [Number.toBinary64, ofInt?, hnearest, ofNat_eq_finite h]

end StyledTiles.Binary64
