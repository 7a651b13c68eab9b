import StyledTiles.Number.Basic

/-!
# Steps that may fail

A sequence of steps succeeds exactly when each of its steps does, and fails exactly when one of them
does after the others before it succeeded. By these facts an outcome is taken apart into the outcomes
of the steps, however the sequence is written.
-/
namespace StyledTiles.Outcome

variable {ε α β : Type}

theorem bind_eq_ok {x : Except ε α} {f : α → Except ε β} {b : β} :
    x >>= f = .ok b ↔ ∃ a, x = .ok a ∧ f a = .ok b := by
  cases x with
  | ok a => simp [bind, Except.bind]
  | error e => simp [bind, Except.bind]

theorem bind_eq_error {x : Except ε α} {f : α → Except ε β} {e : ε} :
    x >>= f = .error e ↔ x = .error e ∨ ∃ a, x = .ok a ∧ f a = .error e := by
  cases x with
  | ok a => simp [bind, Except.bind]
  | error e => simp [bind, Except.bind]

theorem pure_eq_ok {a b : α} : (pure a : Except ε α) = .ok b ↔ a = b := by
  simp [pure, Except.pure]

theorem map_eq_ok {x : Except ε α} {f : α → β} {b : β} :
    x.map f = .ok b ↔ ∃ a, x = .ok a ∧ f a = b := by
  cases x with
  | ok a => simp [Except.map]
  | error e => simp [Except.map]

theorem map_eq_error {x : Except ε α} {f : α → β} {e : ε} : x.map f = .error e ↔ x = .error e := by
  cases x with
  | ok a => simp [Except.map]
  | error e => simp [Except.map]

theorem mapError_eq_ok {ε' : Type} {x : Except ε α} {f : ε → ε'} {a : α} :
    x.mapError f = .ok a ↔ x = .ok a := by
  cases x with
  | ok a' =>
    constructor
    · intro h
      cases h
      rfl
    · intro h
      cases h
      rfl
  | error e => exact ⟨nofun, nofun⟩

/-! ## What a success yields -/

/-- The step succeeds, and what it yields has the property. -/
def Yields (x : Except ε α) (P : α → Prop) : Prop := ∃ a, x = .ok a ∧ P a

@[simp] theorem yields_ok {a : α} {P : α → Prop} : Yields (.ok a : Except ε α) P ↔ P a := by
  simp [Yields]

@[simp] theorem yields_pure {a : α} {P : α → Prop} : Yields (pure a : Except ε α) P ↔ P a :=
  yields_ok

@[simp] theorem not_yields_error {e : ε} {P : α → Prop} : ¬ Yields (.error e) P := by
  simp [Yields]

@[simp] theorem yields_bind {x : Except ε α} {f : α → Except ε β} {P : β → Prop} :
    Yields (x >>= f) P ↔ Yields x fun a => Yields (f a) P := by
  cases x with
  | ok a => simp [bind, Except.bind]
  | error e => simp [bind, Except.bind]

@[simp] theorem yields_map {x : Except ε α} {f : α → β} {P : β → Prop} :
    Yields (x.map f) P ↔ Yields x fun a => P (f a) := by
  cases x with
  | ok a => simp [Except.map]
  | error e => simp [Except.map]

/-! What does not depend on what a step yields can be said beside the step. -/

theorem yields_and_left {x : Except ε α} {R : Prop} {P : α → Prop} :
    (Yields x fun a => R ∧ P a) ↔ R ∧ Yields x P := by
  constructor
  · rintro ⟨a, ha, hR, hP⟩
    exact ⟨hR, a, ha, hP⟩
  · rintro ⟨hR, a, ha, hP⟩
    exact ⟨a, ha, hR, hP⟩

theorem yields_and_right {x : Except ε α} {R : Prop} {P : α → Prop} :
    (Yields x fun a => P a ∧ R) ↔ Yields x P ∧ R := by
  simp only [and_comm, yields_and_left]

theorem yields_const {x : Except ε α} {R : Prop} :
    (Yields x fun _ => R) ↔ (Yields x fun _ => True) ∧ R := by
  simpa using yields_and_right (x := x) (R := R) (P := fun _ => True)

theorem yields_then {x : Except ε α} {y : Except ε β} {P : α → Prop} :
    (Yields x fun a => Yields y fun _ => P a) ↔ Yields x P ∧ Yields y fun _ => True := by
  constructor
  · rintro ⟨a, ha, b, hb, hP⟩
    exact ⟨⟨a, ha, hP⟩, b, hb, trivial⟩
  · rintro ⟨⟨a, ha, hP⟩, b, hb, _⟩
    exact ⟨a, ha, b, hb, hP⟩

/-! ## What every success has -/

/-- If the step succeeds, what it yields has the property. -/
def Ensures (x : Except ε α) (P : α → Prop) : Prop := ∀ a, x = .ok a → P a

@[simp] theorem ensures_ok {a : α} {P : α → Prop} : Ensures (.ok a : Except ε α) P ↔ P a := by
  simp [Ensures]

@[simp] theorem ensures_pure {a : α} {P : α → Prop} : Ensures (pure a : Except ε α) P ↔ P a :=
  ensures_ok

@[simp] theorem ensures_error {e : ε} {P : α → Prop} : Ensures (.error e) P := by
  simp [Ensures]

@[simp] theorem ensures_bind {x : Except ε α} {f : α → Except ε β} {P : β → Prop} :
    Ensures (x >>= f) P ↔ Ensures x fun a => Ensures (f a) P := by
  cases x with
  | ok a => simp [bind, Except.bind]
  | error e => simp [bind, Except.bind]

@[simp] theorem ensures_map {x : Except ε α} {f : α → β} {P : β → Prop} :
    Ensures (x.map f) P ↔ Ensures x fun a => P (f a) := by
  cases x with
  | ok a => simp [Except.map]
  | error e => simp [Except.map]

theorem Ensures.imp {x : Except ε α} {P Q : α → Prop} (h : Ensures x P) (hpq : ∀ a, P a → Q a) :
    Ensures x Q := fun a ha => hpq a (h a ha)

/-! ## Two outcomes side by side -/

/-- Where both steps succeed they yield the same. -/
def Agree (x y : Except ε α) : Prop := ∀ a b, x = .ok a → y = .ok b → a = b

theorem Agree.refl (x : Except ε α) : Agree x x := by
  intro a b ha hb
  exact Except.ok.inj (ha.symm.trans hb)

theorem Agree.symm {x y : Except ε α} (h : Agree x y) : Agree y x := by
  intro b a hb ha
  exact (h a b ha hb).symm

/-- Sequences agree whose first steps agree, and whose later steps do after the same result. -/
theorem Agree.bind {x y : Except ε α} {f g : α → Except ε β} (h : Agree x y)
    (hfg : ∀ a, Agree (f a) (g a)) : Agree (x >>= f) (y >>= g) := by
  intro b b' hb hb'
  obtain ⟨a, ha, hfa⟩ := bind_eq_ok.mp hb
  obtain ⟨a', ha', hga⟩ := bind_eq_ok.mp hb'
  obtain rfl := h a a' ha ha'
  exact hfg a b b' hfa hga

theorem Agree.both {x y : Except ε α} (h : Agree x y) (hx : ∃ a, x = .ok a) (hy : ∃ b, y = .ok b) :
    ∃ a, x = .ok a ∧ y = .ok a := by
  obtain ⟨a, ha⟩ := hx
  obtain ⟨b, hb⟩ := hy
  obtain rfl := h a b ha hb
  exact ⟨a, ha, hb⟩

/-! ## Relations that sequencing keeps -/

theorem map_eq_bind (x : Except ε α) (f : α → β) : x.map f = x >>= fun a => .ok (f a) := by
  cases x <;> rfl

/-- Sequences are related whose first steps are, and whose later steps are after the same result. -/
structure Congruence (R : ∀ {α : Type}, Except ε α → Except ε α → Prop) : Prop where
  refl : ∀ {α : Type} (x : Except ε α), R x x
  bind : ∀ {α β : Type} {x y : Except ε α} {f g : α → Except ε β}, R x y →
    (∀ a, R (f a) (g a)) → R (x >>= f) (y >>= g)

namespace Congruence

variable {R : ∀ {α : Type}, Except ε α → Except ε α → Prop}

theorem map (c : Congruence R) {x y : Except ε α} (h : R x y) (f : α → β) :
    R (x.map f) (y.map f) := by
  rw [map_eq_bind, map_eq_bind]
  exact c.bind h fun a => c.refl (.ok (f a))

theorem eq : Congruence (ε := ε) Eq where
  refl _ := rfl
  bind := by
    rintro α β x _ f g rfl h
    rw [funext h]

theorem agree : Congruence (ε := ε) Agree where
  refl := .refl
  bind := .bind

end Congruence

end StyledTiles.Outcome
