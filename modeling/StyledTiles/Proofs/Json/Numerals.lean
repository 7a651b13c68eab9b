import Mathlib.Algebra.Ring.Nat
import Mathlib.Data.List.TakeDrop
import Mathlib.Data.List.TakeWhile
import StyledTiles.Json.Token
import StyledTiles.Proofs.Text.Integer

/-!
# Numbers in JSON

The grammar of numbers, and that the reader follows it. A number is a sign or none, the digits of its
whole part, a fraction or none and an exponent or none. The reader takes as many characters as it can, so
it reads back a number whose text ends where the text ends or where no number goes on.

An integer of more digits than are converted is no number for the reader, whatever the grammar says.
-/
namespace StyledTiles.Json.Token

/-! ## Grammar -/

def AllDigits (ds : List Char) : Prop := ∀ c ∈ ds, isDigit c = true

/-- The whole part of a number: a zero alone, or digits that start with another. -/
inductive Whole : List Char → Prop
  | zero : Whole ['0']
  | digits {d : Char} {ds : List Char} (hd : d ≠ '0') (hds : AllDigits (d :: ds)) : Whole (d :: ds)

/-- The digits of a fraction and its text; nothing is written for no digits. -/
inductive Fraction : List Char → List Char → Prop
  | none : Fraction [] []
  | digits {ds : List Char} (hne : ds ≠ []) (hds : AllDigits ds) : Fraction ds ('.' :: ds)

/-- The sign of an exponent, which may be written although it is positive. -/
inductive ExponentSign : Bool → List Char → Prop
  | none : ExponentSign false []
  | plus : ExponentSign false ['+']
  | minus : ExponentSign true ['-']

def signed (negative : Bool) (n : Nat) : Int := if negative then -n else n

/-- An exponent and its text. -/
inductive Exponent : Int → List Char → Prop
  | mk {e : Char} {negative : Bool} {sign ds : List Char} (he : e = 'e' ∨ e = 'E')
      (hsign : ExponentSign negative sign) (hne : ds ≠ []) (hds : AllDigits ds) :
      Exponent (signed negative (digitsValue ds)) (e :: sign ++ ds)

/-- A number of a sign and the text after the sign. A number without a fraction and an exponent is an
integer; of the others the nearest binary64 number is meant. -/
inductive Numeral (negative : Bool) : Number → List Char → Prop
  | integer {whole : List Char} (hwhole : Whole whole) :
      Numeral negative (.int (signed negative (digitsValue whole))) whole
  | fraction {whole ds text : List Char} (hwhole : Whole whole) (hfraction : Fraction ds text)
      (hne : ds ≠ []) :
      Numeral negative (.real (.ofDecimal negative (digitsValue (whole ++ ds)) (0 - ds.length)))
        (whole ++ text)
  | exponent {whole ds text exponent : List Char} {e : Int} (hwhole : Whole whole)
      (hfraction : Fraction ds text) (hexponent : Exponent e exponent) :
      Numeral negative (.real (.ofDecimal negative (digitsValue (whole ++ ds)) (e - ds.length)))
        (whole ++ text ++ exponent)

/-! ## Runs of digits -/

/-- No digit comes first. -/
def NoDigit (cs : List Char) : Prop := ∀ c, cs.head? = some c → isDigit c = false

/-- No number goes on here. -/
def Ends (cs : List Char) : Prop :=
  ∀ c, cs.head? = some c → isDigit c = false ∧ c ≠ '.' ∧ c ≠ 'e' ∧ c ≠ 'E'

variable {ds cs rest whole text : List Char}

theorem Ends.noDigit (h : Ends cs) : NoDigit cs := fun c hc => (h c hc).1

theorem isDigit_iff {c : Char} : isDigit c = true ↔ 48 ≤ c.toNat ∧ c.toNat ≤ 57 := by
  rw [isDigit, Bool.and_eq_true, decide_eq_true_iff, decide_eq_true_iff, Char.le_def, Char.le_def,
    UInt32.le_iff_toNat_le, UInt32.le_iff_toNat_le]
  rfl

/-- A run of digits that ends is taken as a whole. -/
theorem span_digits (hds : AllDigits ds) (hrest : NoDigit rest) :
    (ds ++ rest).span isDigit = (ds, rest) := by
  have htake : rest.takeWhile isDigit = [] := by
    cases rest with
    | nil => rfl
    | cons c cs => rw [List.takeWhile_cons_of_neg (by simp [hrest c rfl])]
  have hdrop : rest.dropWhile isDigit = rest := by
    cases rest with
    | nil => rfl
    | cons c cs => rw [List.dropWhile_cons_of_neg (by simp [hrest c rfl])]
  rw [List.span_eq_takeWhile_dropWhile, List.takeWhile_append_of_pos hds, htake, List.append_nil,
    List.dropWhile_append_of_pos hds, hdrop]

theorem allDigits_takeWhile (cs : List Char) : AllDigits (cs.takeWhile isDigit) :=
  fun _ hc => List.mem_takeWhile_imp hc

theorem digitsValue_lt (hds : AllDigits ds) : digitsValue ds < 10 ^ ds.length := by
  have hvalues : ∀ d ∈ ds.map fun c => c.toNat - 48, d < 10 := by
    intro d hd
    obtain ⟨c, hc, rfl⟩ := List.mem_map.mp hd
    have hrange := isDigit_iff.mp (hds c hc)
    omega
  simpa [digitsValue] using Text.ofDigits_lt hvalues

theorem natAbs_signed (negative : Bool) (n : Nat) : (signed negative n).natAbs = n := by
  cases negative <;> simp [signed]

/-! ## Parts -/

theorem integerPart_sound (h : integerPart cs = some (whole, rest)) :
    Whole whole ∧ cs = whole ++ rest := by
  unfold integerPart at h
  split at h
  · cases h
    exact ⟨.zero, rfl⟩
  · rename_i c cs hc
    split at h
    · rename_i hdigit
      rw [Option.some.injEq, List.span_eq_takeWhile_dropWhile, Prod.mk.injEq] at h
      obtain ⟨rfl, rfl⟩ := h
      rw [List.takeWhile_append_dropWhile]
      have hdigits := allDigits_takeWhile (c :: cs)
      rw [List.takeWhile_cons_of_pos hdigit] at hdigits ⊢
      exact ⟨.digits hc hdigits, rfl⟩
    · cases h
  · cases h

theorem integerPart_complete (hwhole : Whole whole) (hrest : NoDigit rest) :
    integerPart (whole ++ rest) = some (whole, rest) := by
  cases hwhole with
  | zero => rfl
  | @digits d ds hd hds =>
    have hspan := span_digits hds hrest
    rw [List.cons_append] at hspan ⊢
    rw [integerPart]
    · rw [if_pos (hds d List.mem_cons_self), hspan]
    · exact hd

theorem fractionPart_sound (h : fractionPart cs = (ds, rest)) :
    ∃ text, Fraction ds text ∧ cs = text ++ rest := by
  unfold fractionPart at h
  split at h
  · rename_i cs
    split at h
    · cases h
      exact ⟨[], .none, rfl⟩
    · rename_i hne
      rw [List.span_eq_takeWhile_dropWhile, Prod.mk.injEq] at h
      obtain ⟨rfl, rfl⟩ := h
      refine ⟨'.' :: cs.takeWhile isDigit, .digits (by simpa using hne) (allDigits_takeWhile cs), ?_⟩
      rw [List.cons_append, List.takeWhile_append_dropWhile]
  · cases h
    exact ⟨[], .none, rfl⟩

theorem fractionPart_complete (hfraction : Fraction ds text)
    (hrest : NoDigit rest) (hpoint : rest.head? ≠ some '.') :
    fractionPart (text ++ rest) = (ds, rest) := by
  cases hfraction with
  | none =>
    rw [List.nil_append, fractionPart]
    rintro _ rfl
    exact hpoint rfl
  | digits hne hds =>
    have hspan := span_digits hds hrest
    have htake : (ds ++ rest).takeWhile isDigit = ds := by
      rw [List.span_eq_takeWhile_dropWhile] at hspan
      exact congrArg Prod.fst hspan
    rw [List.cons_append, fractionPart, htake, hspan, if_neg (by simpa using hne)]

/-- The sign of an exponent, and what follows it. -/
def exponentSign : List Char → Bool × List Char
  | '-' :: ds => (true, ds)
  | '+' :: ds => (false, ds)
  | ds => (false, ds)

theorem exponentPart_cons (e : Char) (cs : List Char) :
    exponentPart (e :: cs) =
      if e = 'e' ∨ e = 'E' then
        let (negative, ds) := exponentSign cs
        if (ds.takeWhile isDigit).isEmpty then none
        else some (signed negative (digitsValue (ds.takeWhile isDigit)), ds.dropWhile isDigit)
      else none := rfl

theorem exponentSign_sound {negative : Bool} (h : exponentSign cs = (negative, rest)) :
    ∃ sign, ExponentSign negative sign ∧ cs = sign ++ rest := by
  unfold exponentSign at h
  split at h
  · cases h
    exact ⟨_, .minus, rfl⟩
  · cases h
    exact ⟨_, .plus, rfl⟩
  · cases h
    exact ⟨_, .none, rfl⟩

theorem exponentSign_complete {negative : Bool} {sign : List Char}
    (hsign : ExponentSign negative sign) (hne : ds ≠ []) (hds : AllDigits ds) (rest : List Char) :
    exponentSign (sign ++ (ds ++ rest)) = (negative, ds ++ rest) := by
  cases hsign with
  | minus => rfl
  | plus => rfl
  | none =>
    obtain ⟨d, ds, rfl⟩ := List.exists_cons_of_ne_nil hne
    have hd := hds d List.mem_cons_self
    rw [List.nil_append, List.cons_append, exponentSign]
    · rintro _ ⟨rfl, _⟩
      exact absurd hd (by decide)
    · rintro _ ⟨rfl, _⟩
      exact absurd hd (by decide)

theorem exponentPart_sound {e : Int} (h : exponentPart cs = some (e, rest)) :
    ∃ text, Exponent e text ∧ cs = text ++ rest := by
  cases cs with
  | nil => cases h
  | cons mark cs =>
    obtain ⟨⟨negative, ds⟩, hfound⟩ : ∃ found, exponentSign cs = found := ⟨_, rfl⟩
    obtain ⟨sign, hsign, rfl⟩ := exponentSign_sound hfound
    rw [exponentPart_cons, hfound] at h
    split at h
    · rename_i hmark
      simp only at h
      split at h
      · cases h
      · rename_i hne
        cases h
        refine ⟨_, .mk hmark hsign (by simpa using hne) (allDigits_takeWhile ds), ?_⟩
        rw [List.append_assoc, List.cons_append, List.takeWhile_append_dropWhile]
    · cases h

theorem exponentPart_complete {e : Int} (hexponent : Exponent e text) (hrest : NoDigit rest) :
    exponentPart (text ++ rest) = some (e, rest) := by
  obtain ⟨hmark, hsign, hne, hds⟩ := hexponent
  have hspan := span_digits hds hrest
  rw [List.span_eq_takeWhile_dropWhile, Prod.mk.injEq] at hspan
  rw [List.append_assoc, List.cons_append, exponentPart_cons, if_pos hmark,
    exponentSign_complete hsign hne hds]
  simp only [hspan, List.isEmpty_iff, hne, if_false]

theorem exponentPart_eq_none (hrest : Ends rest) : exponentPart rest = none := by
  cases rest with
  | nil => rfl
  | cons mark cs =>
    obtain ⟨_, _, hlower, hupper⟩ := hrest mark rfl
    rw [exponentPart_cons, if_neg (by simp [hlower, hupper])]

/-! ## Numbers -/

/-- No run of digits is longer than a limit. -/
def ShortRuns (limit : Nat) (cs : List Char) : Prop :=
  ∀ run, run <:+: cs → AllDigits run → run.length ≤ limit

theorem ShortRuns.part {limit : Nat} (h : ShortRuns limit cs) (hpart : text <:+: cs) :
    ShortRuns limit text := fun run hrun => h run (hrun.trans hpart)

theorem Whole.allDigits (h : Whole whole) : AllDigits whole := by
  cases h with
  | zero => simp [AllDigits, isDigit]
  | digits _ hds => exact hds

/-- Reading a number, part by part. -/
theorem number?_eq {negative : Bool} {afterWhole afterFraction : List Char}
    (hinteger : integerPart cs = some (whole, afterWhole))
    (hfraction : fractionPart afterWhole = (ds, afterFraction)) :
    number? negative cs =
      match exponentPart afterFraction with
      | some (e, rest) => some (number?.real negative whole ds e, rest)
      | none =>
        if ds.isEmpty then some (number?.integer negative whole, afterFraction)
        else some (number?.real negative whole ds 0, afterFraction) := by
  rw [number?, hinteger, Option.bind_eq_bind, Option.bind_some]
  simp only [hfraction]
  rfl

/-- What the reader takes for a number is one, or an integer of too many digits. -/
theorem number?_sound {negative : Bool} {t : Token} (h : number? negative cs = some (t, rest)) :
    (∃ n text, t = .num n ∧ Numeral negative n text ∧ cs = text ++ rest) ∨
      ∃ whole, t = .longInteger whole.length ∧ Whole whole ∧ Text.maxDigits < whole.length ∧
        cs = whole ++ rest := by
  obtain ⟨⟨whole, afterWhole⟩, hinteger, _⟩ := Option.bind_eq_some_iff.mp h
  obtain ⟨⟨ds, afterFraction⟩, hfound⟩ : ∃ found, fractionPart afterWhole = found := ⟨_, rfl⟩
  rw [number?_eq hinteger hfound] at h
  obtain ⟨hwhole, rfl⟩ := integerPart_sound hinteger
  obtain ⟨text, hfraction, rfl⟩ := fractionPart_sound hfound
  split at h
  · rename_i e after hread
    cases h
    obtain ⟨exponent, hexponent, rfl⟩ := exponentPart_sound hread
    exact .inl ⟨_, _, rfl, .exponent hwhole hfraction hexponent, by simp⟩
  · split at h
    · rename_i hnone
      cases hfraction with
      | digits hne _ => exact absurd (List.isEmpty_iff.mp hnone) hne
      | none =>
        rw [number?.integer] at h
        split at h
        · rename_i hlong
          cases h
          exact .inr ⟨whole, rfl, hwhole, hlong, rfl⟩
        · cases h
          exact .inl ⟨_, whole, rfl, .integer hwhole, rfl⟩
    · rename_i hsome
      cases h
      exact .inl ⟨_, _, rfl, .fraction hwhole hfraction (by simpa using hsome), by simp⟩

theorem Fraction.noDigit (h : Fraction ds text) (hrest : NoDigit rest) : NoDigit (text ++ rest) := by
  cases h with
  | none => exact hrest
  | digits _ _ =>
    rintro _ ⟨⟩
    decide

theorem Exponent.head {e : Int} (h : Exponent e text) (rest : List Char) :
    NoDigit (text ++ rest) ∧ (text ++ rest).head? ≠ some '.' := by
  obtain ⟨hmark, _, _, _⟩ := h
  rcases hmark with rfl | rfl
  · refine ⟨?_, by simp⟩
    rintro _ ⟨⟩
    decide
  · refine ⟨?_, by simp⟩
    rintro _ ⟨⟩
    decide

/-- The reader takes the whole of a number that ends. -/
theorem number?_complete {negative : Bool} {n : Number} (h : Numeral negative n text)
    (hruns : ShortRuns Text.maxDigits text) (hrest : Ends rest) :
    number? negative (text ++ rest) = some (.num n, rest) := by
  have hpoint : rest.head? ≠ some '.' := fun hhead => (hrest '.' hhead).2.1 rfl
  cases h with
  | integer hwhole =>
    have hshort : ¬ Text.maxDigits < text.length :=
      Nat.not_lt.mpr (hruns text (List.infix_refl text) hwhole.allDigits)
    rw [number?_eq (integerPart_complete hwhole hrest.noDigit)
      (fractionPart_complete .none hrest.noDigit hpoint), exponentPart_eq_none hrest]
    simp only [List.isEmpty_nil, if_true, number?.integer, hshort, if_false, signed]
  | fraction hwhole hfraction hne =>
    have hwhole := integerPart_complete hwhole (hfraction.noDigit hrest.noDigit)
    rw [List.append_assoc,
      number?_eq hwhole (fractionPart_complete hfraction hrest.noDigit hpoint), exponentPart_eq_none hrest]
    simp only [List.isEmpty_iff, hne, if_false, number?.real]
  | exponent hwhole hfraction hexponent =>
    obtain ⟨hdigit, hpoint⟩ := hexponent.head rest
    have hwhole := integerPart_complete hwhole (hfraction.noDigit hdigit)
    rw [List.append_assoc, List.append_assoc,
      number?_eq hwhole (fractionPart_complete hfraction hdigit hpoint),
      exponentPart_complete hexponent hrest.noDigit]
    rfl

end StyledTiles.Json.Token
