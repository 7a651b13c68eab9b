import Mathlib.Algebra.Ring.Nat
import StyledTiles.Text.Integer

/-!
# Integers as text and back

A natural number of no more digits than are converted is read from its decimal text, and whatever is read
from a text has no more digits than that. So a number that was read can be written and read again.

Which other texts give a number is left to the definition: signs, underscores, blanks and the digits of
other scripts are not written here.
-/
namespace StyledTiles.Text

/-! ## What is read is bounded -/

theorem digitValue?_lt {c : Char} {d : Nat} (h : digitValue? c = some d) : d < 10 := by
  obtain ⟨first, hfirst, rfl⟩ := Option.map_eq_some_iff.mp h
  have hrange := List.find?_some hfirst
  rw [Bool.and_eq_true, decide_eq_true_iff, decide_eq_true_iff] at hrange
  omega

/-- A digit and the digits after it. -/
theorem digit_bind_eq_some {c : Char} {more : Option (List Nat)} {ds : List Nat} :
    ((digitValue? c).bind fun d => more.bind fun rest => some (d :: rest)) = some ds ↔
      ∃ d rest, digitValue? c = some d ∧ more = some rest ∧ ds = d :: rest := by
  simp only [Option.bind_eq_some_iff, Option.some.injEq]
  constructor
  · rintro ⟨d, hd, rest, hrest, rfl⟩
    exact ⟨d, rest, hd, hrest, rfl⟩
  · rintro ⟨d, rest, hd, hrest, rfl⟩
    exact ⟨d, hd, rest, hrest, rfl⟩

theorem moreDigits_lt {cs : List Char} {ds : List Nat} (h : moreDigits cs = some ds) :
    ∀ d ∈ ds, d < 10 := by
  fun_induction moreDigits cs generalizing ds with
  | case1 =>
    obtain rfl := Option.some.inj h
    simp
  | case2 c rest ih | case3 c rest _ ih =>
    obtain ⟨d, more, hd, hmore, rfl⟩ := digit_bind_eq_some.mp h
    rw [List.forall_mem_cons]
    exact ⟨digitValue?_lt hd, ih hmore⟩

theorem digits?_lt {cs : List Char} {ds : List Nat} (h : digits? cs = some ds) : ∀ d ∈ ds, d < 10 := by
  cases cs with
  | nil => cases h
  | cons c rest =>
    obtain ⟨d, more, hd, hmore, rfl⟩ := digit_bind_eq_some.mp h
    rw [List.forall_mem_cons]
    exact ⟨digitValue?_lt hd, moreDigits_lt hmore⟩

theorem ofDigits_lt {ds : List Nat} (h : ∀ d ∈ ds, d < 10) : ofDigits ds < 10 ^ ds.length := by
  have hfold : ∀ n, ds.foldl (fun n d => 10 * n + d) n < 10 ^ ds.length * (n + 1) := by
    induction ds with
    | nil => simp
    | cons d rest ih =>
      intro n
      rw [List.forall_mem_cons] at h
      have hstep : 10 * n + d + 1 ≤ 10 * (n + 1) := by omega
      calc (d :: rest).foldl (fun n d => 10 * n + d) n
          < 10 ^ rest.length * (10 * n + d + 1) := ih h.2 (10 * n + d)
        _ ≤ 10 ^ rest.length * (10 * (n + 1)) := Nat.mul_le_mul_left _ hstep
        _ = 10 ^ (d :: rest).length * (n + 1) := by
          rw [List.length_cons, Nat.pow_succ, Nat.mul_assoc]
  simpa [ofDigits] using hfold 0

theorem natural?_lt {cs : List Char} {n : Nat} (h : natural? cs = some n) : n < 10 ^ maxDigits := by
  obtain ⟨ds, hds, hn⟩ := Option.bind_eq_some_iff.mp h
  split at hn
  · rename_i hlength
    obtain rfl := Option.some.inj hn
    exact Nat.lt_of_lt_of_le (ofDigits_lt (digits?_lt hds)) (Nat.pow_le_pow_right (by decide) hlength)
  · cases hn

/-- What is read from a text has no more digits than are converted. -/
theorem integer?_lt {s : String} {n : Nat} (h : integer? s = some (n : Int)) : n < 10 ^ maxDigits := by
  rw [integer?, signed?.eq_def] at h
  split at h
  · obtain ⟨m, hm, heq⟩ := Option.map_eq_some_iff.mp h
    obtain ⟨k, hk, hm⟩ := Option.bind_eq_some_iff.mp hm
    obtain rfl : (k : Int) = m := Option.some.inj hm
    have hlimit := natural?_lt hk
    omega
  · obtain ⟨m, hm, heq⟩ := Option.map_eq_some_iff.mp h
    obtain rfl : m = n := Int.ofNat.inj heq
    exact natural?_lt hm
  · obtain ⟨m, hm, heq⟩ := Option.map_eq_some_iff.mp h
    obtain rfl : m = n := Int.ofNat.inj heq
    exact natural?_lt hm

/-! ## Decimal texts are read -/

theorem toNat_of_isDigit {c : Char} (h : c.isDigit = true) : 48 ≤ c.toNat ∧ c.toNat ≤ 57 := by
  simp only [Char.isDigit, Bool.and_eq_true, decide_eq_true_eq, ge_iff_le, UInt32.le_iff_toNat_le] at h
  exact h

theorem digitValue?_of_isDigit {c : Char} (h : c.isDigit = true) :
    digitValue? c = some (c.toNat - 48) := by
  obtain ⟨hlow, hhigh⟩ := toNat_of_isDigit h
  obtain ⟨rest, hzeros⟩ : ∃ rest, digitZeros = 0x30 :: rest := ⟨_, rfl⟩
  have hfirst : (decide (0x30 ≤ c.toNat) && decide (c.toNat < 0x30 + 10)) = true := by
    rw [Bool.and_eq_true, decide_eq_true_iff, decide_eq_true_iff]
    omega
  rw [digitValue?, hzeros, List.find?_cons_of_pos (by exact hfirst)]
  rfl

theorem isPadding_of_isDigit {c : Char} (h : c.isDigit = true) : isPadding c = false := by
  obtain ⟨hlow, hhigh⟩ := toNat_of_isDigit h
  rw [isPadding, isBlank]
  grind

theorem moreDigits_of_isDigit {cs : List Char} (h : ∀ c ∈ cs, c.isDigit = true) :
    moreDigits cs = some (cs.map fun c => c.toNat - 48) := by
  induction cs with
  | nil => rfl
  | cons c cs ih =>
    rw [List.forall_mem_cons] at h
    have hc : c ≠ '_' := by
      rintro rfl
      exact absurd h.1 (by decide)
    rw [moreDigits.eq_3 _ _ (fun _ _ heq _ => hc heq), digitValue?_of_isDigit h.1, ih h.2]
    rfl

theorem digits?_of_isDigit {cs : List Char} (h : ∀ c ∈ cs, c.isDigit = true) (hne : cs ≠ []) :
    digits? cs = some (cs.map fun c => c.toNat - 48) := by
  cases cs with
  | nil => exact absurd rfl hne
  | cons c cs =>
    rw [List.forall_mem_cons] at h
    rw [digits?, digitValue?_of_isDigit h.1, moreDigits_of_isDigit h.2]
    rfl

theorem dropWhile_padding_of_isDigit {cs : List Char} (h : ∀ c ∈ cs, c.isDigit = true) :
    cs.dropWhile isPadding = cs := by
  cases cs with
  | nil => rfl
  | cons c cs => exact List.dropWhile_cons_of_neg (by simp [isPadding_of_isDigit (h c List.mem_cons_self)])

theorem trimmed_of_isDigit {cs : List Char} (h : ∀ c ∈ cs, c.isDigit = true) :
    trimmed isPadding cs = cs := by
  have hreverse : ∀ c ∈ cs.reverse, c.isDigit = true := fun c hc => h c (List.mem_reverse.mp hc)
  rw [trimmed, dropWhile_padding_of_isDigit h, dropWhile_padding_of_isDigit hreverse,
    List.reverse_reverse]

theorem natural?_toDigits {n : Nat} (h : n < 10 ^ maxDigits) :
    natural? (Nat.toDigits 10 n) = some n := by
  have hdigits : ∀ c ∈ Nat.toDigits 10 n, c.isDigit = true := fun c hc =>
    Nat.isDigit_of_mem_toDigits (by decide) (by decide) hc
  have hlength : (Nat.toDigits 10 n).length ≤ maxDigits :=
    (Nat.length_toDigits_le_iff (by decide) (by decide)).mpr h
  have hvalue : ofDigits ((Nat.toDigits 10 n).map fun c => c.toNat - 48) = n := by
    rw [ofDigits, List.foldl_map]
    exact Nat.ofDigitChars_toDigits (by decide) (by decide)
  rw [natural?, digits?_of_isDigit hdigits Nat.toDigits_ne_nil]
  simp [hlength, hvalue]

/-- A number is read from its own text. -/
theorem integer?_toString {n : Nat} (h : n < 10 ^ maxDigits) : integer? (toString n) = some (n : Int) := by
  have hdigits : ∀ c ∈ Nat.toDigits 10 n, c.isDigit = true := fun c hc =>
    Nat.isDigit_of_mem_toDigits (by decide) (by decide) hc
  rw [integer?, Nat.toString_eq_repr, Nat.toList_repr, trimmed_of_isDigit hdigits]
  have hsign : ∀ sign : Char, sign.isDigit = false → ∀ rest, Nat.toDigits 10 n ≠ sign :: rest := by
    intro sign hsign rest heq
    have := hdigits sign (by rw [heq]; exact List.mem_cons_self)
    rw [hsign] at this
    cases this
  rw [signed?.eq_3 _ (hsign '-' rfl) (hsign '+' rfl), natural?_toDigits h]
  rfl

end StyledTiles.Text
