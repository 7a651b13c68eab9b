import StyledTiles.Proofs.Filter.Grammar

/-!
# Slots for filters

A slot is a place in a raw filter where a filter is read: a part of a connective, or the condition of a
choice, in the key of a comparison or deeper in it. A context is a tree with such a place left open. Each
value with a slot reads as one context, whatever filter is put into the slot: what is read in the slot
stands in the context at the same place. Only a comparison or a membership filter that is malformed
elsewhere reads as unknown with all that it holds, so what is in its slot does not matter.

What is in the slot may be malformed as a filter. It may not be out of range, which would fail the whole.
-/
namespace StyledTiles

open Outcome

/-- A step from a tree to one of its parts. -/
inductive TreeStep where
  | filter (place : Nat)
  | key
  | input
  | condition (place : Nat)
  | output (place : Nat)
  | fallback
  | candidate (place : Nat)

/-! ## Values with a slot -/

/-- The items of pairs, one after the other. -/
def Json.inTurn : List (Json × Json) → List Json
  | [] => []
  | (head, output) :: rest => head :: output :: Json.inTurn rest

mutual

/-- A raw filter with a slot. The operands of a comparison may be any number, and none as well. -/
inductive Json.FilterSlot where
  | here
  | filter (how : Connective) (before : List Json) (slot : Json.FilterSlot) (after : List Json)
  | compare (negated : Bool) (slot : Json.ExpressionSlot) (operands : List Json)
  | member (negated : Bool) (slot : Json.ExpressionSlot) (operands : List Json)

/-- A raw expression with a slot in one of its conditions. What precedes the part with the slot is in pairs;
what follows it may be anything, so long as the slot is not taken for a fallback. -/
inductive Json.ExpressionSlot where
  | input (slot : Json.ExpressionSlot) (rest : List Json)
  | output (input : Json) (before : List (Json × Json)) (label : Json) (slot : Json.ExpressionSlot)
      (after : List Json)
  | switchFallback (input : Json) (before : List (Json × Json)) (slot : Json.ExpressionSlot)
  | condition (before : List (Json × Json)) (slot : Json.FilterSlot) (output : Json)
      (after : List Json)
  | chosen (before : List (Json × Json)) (condition : Json) (slot : Json.ExpressionSlot)
      (after : List Json)
  | chooseFallback (before : List (Json × Json)) (slot : Json.ExpressionSlot)
  | candidate (before : List Json) (slot : Json.ExpressionSlot) (after : List Json)

end

mutual

/-- The value with another one in its slot. -/
def Json.FilterSlot.fill (x : Json) : Json.FilterSlot → Json
  | .here => x
  | .filter how before slot after => .arr (.str how.name :: (before ++ slot.fill x :: after))
  | .compare negated slot operands =>
    .arr (.str (FilterOperator.compare negated).name :: slot.fill x :: operands)
  | .member negated slot operands =>
    .arr (.str (FilterOperator.member negated).name :: slot.fill x :: operands)

def Json.ExpressionSlot.fill (x : Json) : Json.ExpressionSlot → Json
  | .input slot rest => .arr (.str "match" :: slot.fill x :: rest)
  | .output input before label slot after =>
    .arr (.str "match" :: input :: (Json.inTurn before ++ label :: slot.fill x :: after))
  | .switchFallback input before slot =>
    .arr (.str "match" :: input :: (Json.inTurn before ++ [slot.fill x]))
  | .condition before slot output after =>
    .arr (.str "case" :: (Json.inTurn before ++ slot.fill x :: output :: after))
  | .chosen before condition slot after =>
    .arr (.str "case" :: (Json.inTurn before ++ condition :: slot.fill x :: after))
  | .chooseFallback before slot => .arr (.str "case" :: (Json.inTurn before ++ [slot.fill x]))
  | .candidate before slot after => .arr (.str "coalesce" :: (before ++ slot.fill x :: after))

end

mutual

/-- The way to the slot. -/
def Json.FilterSlot.path : Json.FilterSlot → List TreeStep
  | .here => []
  | .filter _ before slot _ => .filter before.length :: slot.path
  | .compare _ slot _ | .member _ slot _ => .key :: slot.path

def Json.ExpressionSlot.path : Json.ExpressionSlot → List TreeStep
  | .input slot _ => .input :: slot.path
  | .output _ before _ slot _ | .chosen before _ slot _ => .output before.length :: slot.path
  | .switchFallback _ _ slot | .chooseFallback _ slot => .fallback :: slot.path
  | .condition before slot _ _ => .condition before.length :: slot.path
  | .candidate before slot _ => .candidate before.length :: slot.path

end

/-! ## Trees with an open place -/

mutual

/-- A filter with a place left open for a filter. -/
inductive Filter.Context where
  | here
  | filter (how : Connective) (before : List Filter) (context : Filter.Context) (after : List Filter)
  | compare (negated : Bool) (context : Expression.Context) (value : Scalar)
  | member (negated : Bool) (context : Expression.Context) (values : List Scalar)

/-- An expression with a place left open for a filter in one of its conditions. -/
inductive Expression.Context where
  | input (context : Expression.Context) (cases : List (List Scalar × Expression))
      (fallback : Expression)
  | output (input : Expression) (before : List (List Scalar × Expression)) (labels : List Scalar)
      (context : Expression.Context) (after : List (List Scalar × Expression)) (fallback : Expression)
  | switchFallback (input : Expression) (cases : List (List Scalar × Expression))
      (context : Expression.Context)
  | condition (before : List (Filter × Expression)) (context : Filter.Context) (output : Expression)
      (after : List (Filter × Expression)) (fallback : Expression)
  | chosen (before : List (Filter × Expression)) (condition : Filter) (context : Expression.Context)
      (after : List (Filter × Expression)) (fallback : Expression)
  | chooseFallback (branches : List (Filter × Expression)) (context : Expression.Context)
  | candidate (before : List Expression) (context : Expression.Context) (after : List Expression)

end

mutual

/-- The tree with a filter in its open place. -/
def Filter.Context.fill (a : Filter) : Filter.Context → Filter
  | .here => a
  | .filter how before context after => .combine how (before ++ context.fill a :: after)
  | .compare negated context value => .compare negated (context.fill a) value
  | .member negated context values => .member negated (context.fill a) values

def Expression.Context.fill (a : Filter) : Expression.Context → Expression
  | .input context cases fallback => .switch (context.fill a) cases fallback
  | .output input before labels context after fallback =>
    .switch input (before ++ (labels, context.fill a) :: after) fallback
  | .switchFallback input cases context => .switch input cases (context.fill a)
  | .condition before context output after fallback =>
    .choose (before ++ (context.fill a, output) :: after) fallback
  | .chosen before condition context after fallback =>
    .choose (before ++ (condition, context.fill a) :: after) fallback
  | .chooseFallback branches context => .choose branches (context.fill a)
  | .candidate before context after => .coalesce (before ++ context.fill a :: after)

end

mutual

/-- The way to the open place. -/
def Filter.Context.path : Filter.Context → List TreeStep
  | .here => []
  | .filter _ before context _ => .filter before.length :: context.path
  | .compare _ context _ | .member _ context _ => .key :: context.path

def Expression.Context.path : Expression.Context → List TreeStep
  | .input context _ _ => .input :: context.path
  | .output _ before _ context _ _ | .chosen before _ context _ _ =>
    .output before.length :: context.path
  | .switchFallback _ _ context | .chooseFallback _ context => .fallback :: context.path
  | .condition before context _ _ _ => .condition before.length :: context.path
  | .candidate before context _ => .candidate before.length :: context.path

end

/-! ## Slots that are reached -/

section Reached

open Grammar

mutual

/-- Every comparison and membership filter around the slot is well formed: its operands are, and its key is,
whatever the conditions in the key are. -/
def Json.FilterSlot.Reached : Json.FilterSlot → Prop
  | .here => True
  | .filter _ _ slot _ => slot.Reached
  | .compare _ slot operands =>
    IsExpression (fun _ => True) (slot.fill .null) ∧ (∃ v, operands = [v] ∧ IsOperand v) ∧ slot.Reached
  | .member _ slot operands =>
    IsExpression (fun _ => True) (slot.fill .null) ∧ IsListed operands ∧ slot.Reached

def Json.ExpressionSlot.Reached : Json.ExpressionSlot → Prop
  | .condition _ slot _ _ => slot.Reached
  | .input slot _ | .output _ _ _ slot _ | .switchFallback _ _ slot | .chosen _ _ slot _
  | .chooseFallback _ slot | .candidate _ slot _ => slot.Reached

end

end Reached

/-- What is in a slot stands at the end of the way there if the slot is reached. Otherwise an unknown filter
stands on that way, in place of one whose key holds the slot. -/
inductive Shows (reached : Prop) (way : List TreeStep) : List TreeStep → (Filter → Filter) → Prop
  | whole : reached → Shows reached way way id
  | spoilt {place rest : List TreeStep} : ¬ reached → way = place ++ .key :: rest →
      Shows reached way place fun _ => .unknown

theorem Shows.step {reached : Prop} {way place : List TreeStep} {k : Filter → Filter}
    (h : Shows reached way place k) (first : TreeStep) :
    Shows reached (first :: way) (first :: place) k := by
  cases h with
  | whole hr => exact .whole hr
  | spoilt hr heq => exact .spoilt hr (by rw [heq, List.cons_append])

/-- The function puts a filter into a context, where it is shown as what is in the slot. -/
def Filter.Shown (reached : Prop) (way : List TreeStep) (g : Filter → Filter) : Prop :=
  ∃ c : Filter.Context, ∃ k, Shows reached way c.path k ∧ g = fun a => c.fill (k a)

def Expression.Shown (reached : Prop) (way : List TreeStep) (g : Filter → Expression) : Prop :=
  ∃ c : Expression.Context, ∃ k, Shows reached way c.path k ∧ g = fun a => c.fill (k a)

namespace Filter.Reader

open Grammar

/-! ## Readings that look into a slot -/

/-- Whatever filter is in the slot, the reading fails in one way, or it yields what one function makes of
that filter. -/
def Looks {ε α : Type} (read : Json → Except ε α) (P : (Filter → α) → Prop) : Prop :=
  (∃ e, ∀ x a, filter x = .ok a → read x = .error e) ∨
    ∃ g, P g ∧ ∀ x a, filter x = .ok a → read x = .ok (g a)

namespace Looks

variable {ε α β γ : Type} {read : Json → Except ε α} {P : (Filter → α) → Prop}

theorem imp {Q : (Filter → α) → Prop} (h : Looks read P) (hpq : ∀ g, P g → Q g) : Looks read Q := by
  rcases h with fails | ⟨g, hg, hread⟩
  · exact .inl fails
  · exact .inr ⟨g, hpq g hg, hread⟩

theorem error (e : ε) : Looks (fun _ => .error e) P := .inl ⟨e, fun _ _ _ => rfl⟩

theorem map (h : Looks read P) (make : α → β) :
    Looks (fun x => read x >>= fun u => .ok (make u)) (fun k => ∃ g, P g ∧ k = fun a => make (g a)) := by
  rcases h with ⟨e, fails⟩ | ⟨g, hg, hread⟩
  · exact .inl ⟨e, fun x a hx => by simp only [fails x a hx]; rfl⟩
  · exact .inr ⟨_, ⟨g, hg, rfl⟩, fun x a hx => by simp only [hread x a hx]; rfl⟩

/-- A reading that does not look into the slot may come first. -/
theorem before (first : Except ε β) {read : β → Json → Except ε α} (h : ∀ v, Looks (read v) P) :
    Looks (fun x => first >>= fun v => read v x) P := by
  cases first with
  | error e => exact error e
  | ok v => exact h v

/-- Or it may come afterwards. -/
theorem after (h : Looks read P) (last : Except ε β) (make : α → β → γ) :
    Looks (fun x => read x >>= fun u => last >>= fun v => .ok (make u v))
      (fun k => ∃ g v, P g ∧ k = fun a => make (g a) v) := by
  cases last with
  | error e =>
    rcases h with ⟨e', fails⟩ | ⟨g, -, hread⟩
    · exact .inl ⟨e', fun x a hx => by simp only [fails x a hx]; rfl⟩
    · exact .inl ⟨e, fun x a hx => by simp only [hread x a hx]; rfl⟩
  | ok v => exact (h.map fun u => make u v).imp fun k ⟨g, hg, hk⟩ => ⟨g, v, hg, hk⟩

theorem guarded (h : Looks read P) (c : Prop) [Decidable c] (e : ε) :
    Looks (fun x => if c then read x else .error e) P := by
  by_cases hc : c
  · simpa only [if_pos hc] using h
  · simpa only [if_neg hc] using error e

theorem ofRange {read : Json → Except OutOfRange α} (h : Looks read P) :
    Looks (fun x => ExpressionFault.ofRange (read x)) P := by
  rcases h with ⟨e, fails⟩ | ⟨g, hg, hread⟩
  · exact .inl ⟨.outOfRange e, fun x a hx => by simp only [fails x a hx]; rfl⟩
  · exact .inr ⟨g, hg, fun x a hx => by simp only [hread x a hx]; rfl⟩

/-- Where the reading is malformed, the filter is unknown whatever is in the slot. -/
theorem confine {read : Json → Except ExpressionFault Filter} {P : (Filter → Filter) → Prop}
    (h : Looks read P) :
    Looks (fun x => ExpressionFault.confine (read x)) fun k =>
      (P k ∧ ∀ x a, filter x = .ok a → read x = .ok (k a)) ∨
        (k = fun _ => .unknown) ∧ ∀ x a, filter x = .ok a → read x = .error .malformed := by
  rcases h with ⟨e, fails⟩ | ⟨g, hg, hread⟩
  · cases e with
    | malformed => exact .inr ⟨_, .inr ⟨rfl, fails⟩, fun x a hx => by simp only [fails x a hx]; rfl⟩
    | outOfRange e => exact .inl ⟨e, fun x a hx => by simp only [fails x a hx]; rfl⟩
  · exact .inr ⟨g, .inl ⟨hg, hread⟩, fun x a hx => by simp only [hread x a hx]; rfl⟩

/-- One item of a list holds the slot. -/
theorem item {L : List Json → Except ε (List α)} {r : Json → Except ε α}
    (hL : ∀ j js, L (j :: js) = r j >>= fun v => L js >>= fun vs => .ok (v :: vs))
    {f : Json → Json} (h : Looks (fun x => r (f x)) P) (before after : List Json) :
    Looks (fun x => L (before ++ f x :: after)) fun k =>
      ∃ vs g ws, vs.length = before.length ∧ P g ∧ k = fun a => vs ++ g a :: ws := by
  induction before with
  | nil =>
    simp only [List.nil_append, hL]
    exact (h.after (L after) List.cons).imp fun k ⟨g, ws, hg, hk⟩ => ⟨[], g, ws, rfl, hg, hk⟩
  | cons j js ih =>
    simp only [List.cons_append, hL]
    refine Looks.before (r j) fun v => (ih.map (v :: ·)).imp ?_
    rintro _ ⟨_, ⟨vs, g, ws, hlen, hg, rfl⟩, rfl⟩
    exact ⟨v :: vs, g, ws, by simp [hlen], hg, rfl⟩

end Looks

/-! ## Pairs with a slot in one of them -/

/-- Heads are read by the one function and outputs as expressions, in turn; then comes the fallback. -/
structure ReadsInTurn {α : Type}
    (read : List Json → Except ExpressionFault (List (α × Expression) × Expression))
    (head : Json → Except ExpressionFault α) : Prop where
  pair (h o : Json) (rest : List Json) : read (h :: o :: rest) =
    head h >>= fun v => expression o >>= fun e => read rest >>= fun r => .ok ((v, e) :: r.1, r.2)
  fallback (j : Json) : read [j] = expression j >>= fun e => .ok ([], e)

theorem switchCases_inTurn : ReadsInTurn switchCases label where
  pair _ _ _ := by rw [switchCases]; rfl
  fallback _ := by rw [switchCases]; rfl

theorem chooseBranches_inTurn :
    ReadsInTurn chooseBranches fun j => ExpressionFault.ofRange (filter j) where
  pair _ _ _ := by rw [chooseBranches]; rfl
  fallback _ := by rw [chooseBranches]; rfl

namespace ReadsInTurn

variable {α : Type} {read : List Json → Except ExpressionFault (List (α × Expression) × Expression)}
  {head : Json → Except ExpressionFault α} {f : Json → Json}

/-- Pairs that do not hold the slot may come before the part that does. -/
theorem skip (hr : ReadsInTurn read head) {tail : Json → List Json}
    {P : (Filter → List (α × Expression) × Expression) → Prop}
    (h : Looks (fun x => read (tail x)) P) (before : List (Json × Json)) :
    Looks (fun x => read (Json.inTurn before ++ tail x)) fun k =>
      ∃ ps g, ps.length = before.length ∧ P g ∧ k = fun a => (ps ++ (g a).1, (g a).2) := by
  induction before with
  | nil => exact h.imp fun k hk => ⟨[], k, rfl, hk, rfl⟩
  | cons p rest ih =>
    simp only [Json.inTurn, List.cons_append, hr.pair]
    refine .before (head p.1) fun v => .before (expression p.2) fun e =>
      (ih.map fun r => ((v, e) :: r.1, r.2)).imp ?_
    rintro _ ⟨_, ⟨ps, g, hlen, hg, rfl⟩, rfl⟩
    exact ⟨(v, e) :: ps, g, by simp [hlen], hg, rfl⟩

theorem looks_head (hr : ReadsInTurn read head) {P : (Filter → α) → Prop}
    (h : Looks (fun x => head (f x)) P) (before : List (Json × Json)) (output : Json)
    (after : List Json) :
    Looks (fun x => read (Json.inTurn before ++ f x :: output :: after)) fun k =>
      ∃ ps g e rest fallback, ps.length = before.length ∧ P g ∧
        k = fun a => (ps ++ (g a, e) :: rest, fallback) := by
  have here : Looks (fun x => read (f x :: output :: after)) fun k =>
      ∃ g e rest fallback, P g ∧ k = fun a => ((g a, e) :: rest, fallback) := by
    have looks := h.after (expression output >>= fun e => read after >>= fun r => pure (e, r))
      fun v t => ((v, t.1) :: t.2.1, t.2.2)
    simp only [bind_assoc, pure_bind] at looks
    simp only [hr.pair]
    exact looks.imp fun k ⟨g, t, hg, hk⟩ => ⟨g, t.1, t.2.1, t.2.2, hg, hk⟩
  refine (hr.skip here before).imp ?_
  rintro _ ⟨ps, _, hlen, ⟨g, e, rest, fallback, hg, rfl⟩, rfl⟩
  exact ⟨ps, g, e, rest, fallback, hlen, hg, rfl⟩

theorem looks_output (hr : ReadsInTurn read head) {P : (Filter → Expression) → Prop}
    (h : Looks (fun x => expression (f x)) P) (before : List (Json × Json)) (first : Json)
    (after : List Json) :
    Looks (fun x => read (Json.inTurn before ++ first :: f x :: after)) fun k =>
      ∃ ps v g rest fallback, ps.length = before.length ∧ P g ∧
        k = fun a => (ps ++ (v, g a) :: rest, fallback) := by
  have here : Looks (fun x => read (first :: f x :: after)) fun k =>
      ∃ v g rest fallback, P g ∧ k = fun a => ((v, g a) :: rest, fallback) := by
    simp only [hr.pair]
    refine .before (head first) fun v => ?_
    have looks := h.after (read after) fun e r => ((v, e) :: r.1, r.2)
    exact looks.imp fun k ⟨g, r, hg, hk⟩ => ⟨v, g, r.1, r.2, hg, hk⟩
  refine (hr.skip here before).imp ?_
  rintro _ ⟨ps, _, hlen, ⟨v, g, rest, fallback, hg, rfl⟩, rfl⟩
  exact ⟨ps, v, g, rest, fallback, hlen, hg, rfl⟩

theorem looks_fallback (hr : ReadsInTurn read head) {P : (Filter → Expression) → Prop}
    (h : Looks (fun x => expression (f x)) P) (before : List (Json × Json)) :
    Looks (fun x => read (Json.inTurn before ++ [f x])) fun k =>
      ∃ ps g, P g ∧ k = fun a => (ps, g a) := by
  have here : Looks (fun x => read [f x]) fun k => ∃ g, P g ∧ k = fun a => ([], g a) := by
    simp only [hr.fallback]
    exact h.map fun e => ([], e)
  refine (hr.skip here before).imp ?_
  rintro _ ⟨ps, _, -, ⟨g, hg, rfl⟩, rfl⟩
  exact ⟨ps, g, hg, by simp⟩

end ReadsInTurn

/-! ## Reading into each slot -/

theorem looks_switch {f : Json → Json} {rest : Json → List Json}
    (hlen : ∀ x, (rest x).length = (rest .null).length) {P : (Filter → Expression) → Prop}
    (h : Looks (fun x => expression (f x) >>= fun i => switchCases (rest x) >>= fun r =>
      .ok (.switch i r.1 r.2)) P) :
    Looks (fun x => expression (.arr (.str "match" :: f x :: rest x))) P := by
  simp only [expression_switch, hlen]
  exact h.guarded ((rest .null).length % 2 = 1) .malformed

theorem looks_choose {args : Json → List Json} (hlen : ∀ x, (args x).length = (args .null).length)
    {P : (Filter → List (Filter × Expression) × Expression) → Prop}
    (h : Looks (fun x => chooseBranches (args x)) P) :
    Looks (fun x => expression (.arr (.str "case" :: args x))) fun k =>
      ∃ g, P g ∧ k = fun a => .choose (g a).1 (g a).2 := by
  simp only [expression_choose, hlen]
  exact (h.map fun r => Expression.choose r.1 r.2).guarded ((args .null).length % 2 = 1) .malformed

/-- A filter is spoilt that is unknown whatever is in the slot in its key. -/
theorem looks_unknown {reached : Prop} {way : List TreeStep} (h : ¬ reached) :
    Looks (fun _ => (.ok .unknown : Except OutOfRange Filter)) (Filter.Shown reached (.key :: way)) :=
  .inr ⟨fun _ => .unknown, ⟨.here, _, .spoilt h rfl, rfl⟩, fun _ _ _ => rfl⟩

theorem key_fill (slot : Json.ExpressionSlot) (x : Json)
    (read : Except ExpressionFault Expression) : key (slot.fill x) read = read := by
  cases slot <;> rfl

/-- A comparison shows what is in its key if its key and its operands are read, and only then. -/
theorem looks_key {slot : Json.ExpressionSlot} (hfits : (slot.fill .null).Fits)
    (h : Looks (fun x => expression (slot.fill x)) (Expression.Shown slot.Reached slot.path))
    {γ : Type} {operands : Except ExpressionFault γ} {good : Prop}
    (hgood : Yields operands (fun _ => True) ↔ good) {make : Expression → γ → Filter}
    (context : Expression.Context → γ → Filter.Context)
    (hfill : ∀ c v a, (context c v).fill a = make (c.fill a) v)
    (hpath : ∀ c v, (context c v).path = .key :: c.path) :
    Looks (fun x => ExpressionFault.confine do
        let k ← key (slot.fill x) (expression (slot.fill x))
        let v ← operands
        return make k v)
      (Filter.Shown (IsExpression (fun _ => True) (slot.fill .null) ∧ good ∧ slot.Reached)
        (.key :: slot.path)) := by
  -- Null is no filter, but it is read as one that is unknown, so it may be in the slot like any other.
  have reads : Yields (expression (slot.fill .null) >>= fun k => operands >>= fun v => .ok (make k v))
      (fun _ => True) ↔ IsExpression (fun _ => True) (slot.fill .null) ∧ good := by
    rw [← expression_reads_any hfits, ← hgood]
    simp only [Expression.over_true, yields_bind, yields_ok]
    exact yields_const
  simp only [key_fill]
  refine (h.after operands make).confine.imp ?_
  rintro _ (⟨⟨_, v, ⟨c, k, shows, rfl⟩, rfl⟩, hread⟩ | ⟨rfl, hread⟩)
  · have hnull := hread .null .unknown rfl
    have well := reads.mp ⟨_, hnull, trivial⟩
    refine ⟨context c v, k, ?_, by simp only [hfill]⟩
    simpa only [hpath, well.1, well.2, true_and] using shows.step .key
  · have hnull := hread .null .unknown rfl
    have ill : ¬ (IsExpression (fun _ => True) (slot.fill .null) ∧ good) := by
      rw [← reads]
      rintro ⟨f, hf, -⟩
      cases hnull.symm.trans hf
    exact ⟨.here, _, .spoilt (fun hr => ill ⟨hr.1, hr.2.1⟩) rfl, rfl⟩

mutual

theorem expression_looks (s : Json.ExpressionSlot) (h : (s.fill .null).Fits) :
    Looks (fun x => expression (s.fill x)) (Expression.Shown s.Reached s.path) := by
  cases s with
  | input slot rest =>
    have hslot : (slot.fill .null).Fits := Json.fits_of_mem h (by simp)
    have looks := (expression_looks slot hslot).after (switchCases rest) fun i r =>
      Expression.switch i r.1 r.2
    refine (looks_switch (fun _ => rfl) looks).imp ?_
    rintro _ ⟨_, r, ⟨c, k, shows, rfl⟩, rfl⟩
    exact ⟨.input c r.1 r.2, k, shows.step .input, rfl⟩
  | output input before label slot after =>
    have hslot : (slot.fill .null).Fits := Json.fits_of_mem h (by simp)
    have looks := switchCases_inTurn.looks_output (expression_looks slot hslot) before label after
    refine looks_switch (fun x => by simp) (.before (expression input) fun i =>
      (looks.map fun r => Expression.switch i r.1 r.2).imp ?_)
    rintro _ ⟨_, ⟨ps, v, _, rest, fallback, hlen, ⟨c, k, shows, rfl⟩, rfl⟩, rfl⟩
    refine ⟨.output i ps v c rest fallback, k, ?_, rfl⟩
    rw [Expression.Context.path, hlen]
    exact shows.step _
  | switchFallback input before slot =>
    have hslot : (slot.fill .null).Fits := Json.fits_of_mem h (by simp)
    have looks := switchCases_inTurn.looks_fallback (expression_looks slot hslot) before
    refine looks_switch (fun x => by simp) (.before (expression input) fun i =>
      (looks.map fun r => Expression.switch i r.1 r.2).imp ?_)
    rintro _ ⟨_, ⟨ps, _, ⟨c, k, shows, rfl⟩, rfl⟩, rfl⟩
    exact ⟨.switchFallback i ps c, k, shows.step _, rfl⟩
  | condition before slot output after =>
    have hslot : (slot.fill .null).Fits := Json.fits_of_mem h (by simp)
    have looks := chooseBranches_inTurn.looks_head (filter_looks slot hslot).ofRange before output after
    refine (looks_choose (fun x => by simp) looks).imp ?_
    rintro _ ⟨_, ⟨ps, _, e, rest, fallback, hlen, ⟨c, k, shows, rfl⟩, rfl⟩, rfl⟩
    refine ⟨.condition ps c e rest fallback, k, ?_, rfl⟩
    rw [Expression.Context.path, hlen]
    exact shows.step _
  | chosen before condition slot after =>
    have hslot : (slot.fill .null).Fits := Json.fits_of_mem h (by simp)
    have looks :=
      chooseBranches_inTurn.looks_output (expression_looks slot hslot) before condition after
    refine (looks_choose (fun x => by simp) looks).imp ?_
    rintro _ ⟨_, ⟨ps, f, _, rest, fallback, hlen, ⟨c, k, shows, rfl⟩, rfl⟩, rfl⟩
    refine ⟨.chosen ps f c rest fallback, k, ?_, rfl⟩
    rw [Expression.Context.path, hlen]
    exact shows.step _
  | chooseFallback before slot =>
    have hslot : (slot.fill .null).Fits := Json.fits_of_mem h (by simp)
    have looks := chooseBranches_inTurn.looks_fallback (expression_looks slot hslot) before
    refine (looks_choose (fun x => by simp) looks).imp ?_
    rintro _ ⟨_, ⟨ps, _, ⟨c, k, shows, rfl⟩, rfl⟩, rfl⟩
    exact ⟨.chooseFallback ps c, k, shows.step _, rfl⟩
  | candidate before slot after =>
    have hslot : (slot.fill .null).Fits := Json.fits_of_mem h (by simp)
    have looks := (expression_looks slot hslot).item (L := expressions) (fun _ _ => rfl) before after
    simp only [Json.ExpressionSlot.fill, expression_coalesce]
    refine (looks.map Expression.coalesce).imp ?_
    rintro _ ⟨_, ⟨es, _, rest, hlen, ⟨c, k, shows, rfl⟩, rfl⟩, rfl⟩
    refine ⟨.candidate es c rest, k, ?_, rfl⟩
    rw [Expression.Context.path, hlen]
    exact shows.step _

theorem filter_looks (s : Json.FilterSlot) (h : (s.fill .null).Fits) :
    Looks (fun x => filter (s.fill x)) (Filter.Shown s.Reached s.path) := by
  cases s with
  | here => exact .inr ⟨_, ⟨.here, id, .whole trivial, rfl⟩, fun _ _ hx => hx⟩
  | filter how before slot after =>
    have hslot : (slot.fill .null).Fits := Json.fits_of_mem h (by simp)
    have looks := (filter_looks slot hslot).item (L := filters) (fun _ _ => rfl) before after
    simp only [Json.FilterSlot.fill, filter_combine]
    refine (looks.map (Filter.combine how)).imp ?_
    rintro _ ⟨_, ⟨fs, _, rest, hlen, ⟨c, k, shows, rfl⟩, rfl⟩, rfl⟩
    refine ⟨.filter how fs c rest, k, ?_, rfl⟩
    rw [Filter.Context.path, hlen]
    exact shows.step _
  | compare negated slot operands =>
    have hslot : (slot.fill .null).Fits := Json.fits_of_mem h (by simp)
    simp only [Json.FilterSlot.fill, filter_compare]
    match operands with
    | [v] =>
      have hv : v.Fits := Json.fits_of_mem h (by simp)
      exact looks_key hslot (expression_looks slot hslot) (by simpa using operand_reads hv)
        (.compare negated) (fun _ _ _ => rfl) (fun _ _ => rfl)
    | [] =>
      refine looks_unknown ?_
      simp [Json.FilterSlot.Reached]
    | _ :: _ :: _ =>
      refine looks_unknown ?_
      simp [Json.FilterSlot.Reached]
  | member negated slot operands =>
    have hslot : (slot.fill .null).Fits := Json.fits_of_mem h (by simp)
    simp only [Json.FilterSlot.fill, filter_member]
    match operands with
    | v :: vs =>
      have hvs : Json.ItemsFit (v :: vs) := Json.itemsFit_iff.mpr fun j hj =>
        Json.fits_of_mem h (List.mem_cons_of_mem _ (List.mem_cons_of_mem _ hj))
      exact looks_key hslot (expression_looks slot hslot) (listed_reads hvs) (.member negated)
        (fun _ _ _ => rfl) (fun _ _ => rfl)
    | [] => exact looks_unknown fun hr => not_isListed_nil hr.2.1

end

end Filter.Reader

/-! ## Whole values with a slot -/

namespace Json

mutual

theorem ExpressionSlot.fits_fill {w x : Json} (hx : x.Fits) (s : ExpressionSlot)
    (h : (s.fill w).Fits) : (s.fill x).Fits := by
  cases s with
  | condition _ slot _ _ | input slot _ | output _ _ _ slot _ | switchFallback _ _ slot
  | chosen _ _ slot _ | chooseFallback _ slot | candidate _ slot _ =>
    have kept := slot.fits_fill (w := w) hx
    simp only [ExpressionSlot.fill, fits_arr, itemsFit_cons, itemsFit_append] at h ⊢
    grind

theorem FilterSlot.fits_fill {w x : Json} (hx : x.Fits) (s : FilterSlot)
    (h : (s.fill w).Fits) : (s.fill x).Fits := by
  cases s with
  | here => exact hx
  | filter _ _ slot _ | compare _ slot _ | member _ slot _ =>
    have kept := slot.fits_fill (w := w) hx
    simp only [FilterSlot.fill, fits_arr, itemsFit_cons, itemsFit_append] at h ⊢
    grind

end

namespace FilterSlot

theorem fill_ne_nil {s : FilterSlot} (hs : s ≠ .here) (x : Json) : s.fill x ≠ .arr [] := by
  cases s with
  | here => exact absurd rfl hs
  | _ => simp [fill]

/-- The value with the other one in its slot is read as the tree. As the filter of a layer it is, too, unless
the slot is all there is: an empty array in it would say that there is no filter. -/
def ReadsAs (s : FilterSlot) (x : Json) (tree : Filter) : Prop :=
  Filter.Reader.filter (s.fill x) = .ok tree ∧ (s ≠ .here → Filter.ofJson (s.fill x) = .ok (some tree))

theorem readsAs_of_filter {s : FilterSlot} {x : Json} {tree : Filter}
    (h : Filter.Reader.filter (s.fill x) = .ok tree) : s.ReadsAs x tree :=
  ⟨h, fun hs => Filter.ofJson_eq_some.mpr ⟨s.fill_ne_nil hs x, h⟩⟩

end FilterSlot

end Json

/-- Let the value around a slot fit. If the slot is reached, there is one context with its open place where the
slot is, and whatever is put into the slot, the value reads as that context with what is read in the slot. If
the slot is not reached, the value reads as the same tree whatever is put into the slot: a filter whose key
holds the slot is unknown. -/
theorem slots_read_apart (s : Json.FilterSlot) {w : Json} (h : (s.fill w).Fits) :
    (s.Reached → ∃ c : Filter.Context, c.path = s.path ∧
      ∀ x a, Filter.Reader.filter x = .ok a → s.ReadsAs x (c.fill a)) ∧
    (¬ s.Reached → ∃ c : Filter.Context, (∃ rest, s.path = c.path ++ .key :: rest) ∧
      ∀ x a, Filter.Reader.filter x = .ok a → s.ReadsAs x (c.fill .unknown)) := by
  have hnull := s.fits_fill Json.fits_null h
  rcases Filter.Reader.filter_looks s hnull with ⟨e, fails⟩ | ⟨g, ⟨c, k, shows, rfl⟩, hread⟩
  · obtain ⟨f, hf⟩ := Filter.Reader.filter_ok _ hnull
    cases (fails .null .unknown rfl).symm.trans hf
  · generalize hplace : c.path = place at shows
    cases shows with
    | whole hreached =>
      exact ⟨fun _ => ⟨c, hplace, fun x a hx => Json.FilterSlot.readsAs_of_filter (hread x a hx)⟩,
        fun hne => absurd hreached hne⟩
    | @spoilt _ rest hne hway =>
      refine ⟨fun hreached => absurd hreached hne, fun _ => ⟨c, ⟨rest, ?_⟩, fun x a hx => ?_⟩⟩
      · rw [hplace, hway]
      · exact Json.FilterSlot.readsAs_of_filter (hread x a hx)

/-! ## Trails by their class -/

/-- The class of a trail counts under the condition that is put into the slot. The filter before this one
compares with nothing. -/
def trailSlot (output : Json) : Json.FilterSlot :=
  .filter .all [.arr [.str "==", .str "surface"]]
    (.member false (.condition [] .here output [.str "other"]) [.str "path", .str "track"])
    [.arr [.str "has", .str "name"]]

/-- The slot is reached where the class is asked for, but not where the property has no name. -/
theorem trail_conditions_read_apart :
    let asked := trailSlot (.arr [.str "get", .str "class"])
    let nameless := trailSlot (.arr [.str "get"])
    ((asked.fill .null).Fits ∧ asked.Reached ∧ ∃ c : Filter.Context, c.path = asked.path ∧
      ∀ x a, Filter.Reader.filter x = .ok a → asked.ReadsAs x (c.fill a)) ∧
    (nameless.fill .null).Fits ∧ ¬ nameless.Reached ∧
      ∃ c : Filter.Context, (∃ rest, nameless.path = c.path ++ .key :: rest) ∧
        ∀ x a, Filter.Reader.filter x = .ok a → nameless.ReadsAs x (c.fill .unknown) := by
  intro asked nameless
  have fits (output : Json) (h : output.Fits) : ((trailSlot output).fill .null).Fits := by
    simp [trailSlot, Json.FilterSlot.fill, Json.ExpressionSlot.fill, Json.fits_arr, Json.inTurn, h]
  have askedFits : (asked.fill .null).Fits := fits _ (by simp [Json.fits_arr])
  have namelessFits : (nameless.fill .null).Fits := fits _ (by simp [Json.fits_arr])
  have reached : asked.Reached := by
    refine ⟨.choose (.pair trivial (.get "class") (.fallback (.scalar (.str "other")))), ?_, trivial⟩
    exact .inline (by simp) (by simp) (by simpa using ⟨.scalar (.str "path"), .scalar (.str "track")⟩)
  have notReached : ¬ nameless.Reached := by
    rintro ⟨key, -, -⟩
    have output := (Grammar.inTurn_cons_cons.mp (Grammar.isExpression_choose.mp key)).2.1
    simp [Grammar.isExpression_call] at output
  exact ⟨⟨askedFits, reached, (slots_read_apart asked askedFits).1 reached⟩,
    namelessFits, notReached, (slots_read_apart nameless namelessFits).2 notReached⟩

/-- A condition that compares with nothing is unknown, and so is the filter beside it that does. -/
example : (trailSlot (.arr [.str "get", .str "class"])).ReadsAs (.arr [.str "==", .str "foot"])
    (.combine .all [.unknown,
      .member false (.choose [(.unknown, .get "class")] (.literal (.string "other")))
        [.string "path", .string "track"],
      .present false "name"]) := ⟨rfl, fun _ => rfl⟩

end StyledTiles
