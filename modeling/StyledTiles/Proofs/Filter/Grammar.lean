import StyledTiles.Proofs.Filter.Reading

/-!
# The grammar of filters

Filters and expressions as a grammar of JSON values, beside the reader. A filter is in the grammar
exactly when it is read without a part that was not understood; an expression exactly when it is read
at all, whatever the conditions in it are.

The grammar is stated of values whose integers fit. It says nothing about the tree that is read.
-/
namespace StyledTiles

open Outcome Filter.Reader

namespace Grammar

/-- A text, a number or a truth. -/
inductive IsScalar : Json → Prop
  | str (s : String) : IsScalar (.str s)
  | num (n : Number) : IsScalar (.num n)
  | bool (b : Bool) : IsScalar (.bool b)

/-- A scalar, which may be wrapped as a literal once. -/
inductive IsOperand : Json → Prop
  | scalar {j : Json} : IsScalar j → IsOperand j
  | literal {j : Json} : IsScalar j → IsOperand (.arr [.str "literal", j])

/-- A scalar, or an array of at least one operand. -/
inductive IsLabel : Json → Prop
  | scalar {j : Json} : IsScalar j → IsLabel j
  | alternatives {js : List Json} : js ≠ [] → (∀ j ∈ js, IsOperand j) → IsLabel (.arr js)

/-- The values of a membership filter: one array of operands, itself or as a literal, or operands one
by one. -/
inductive IsListed : List Json → Prop
  | array {js : List Json} : (∀ j ∈ js, IsOperand j) → IsListed [.arr js]
  | literal {js : List Json} : (∀ j ∈ js, IsOperand j) → IsListed [.arr [.str "literal", .arr js]]
  | inline {js : List Json} : js ≠ [] → (∀ items, js ≠ [.arr items]) → (∀ j ∈ js, IsOperand j) →
      IsListed js

/-- Heads and outputs in turn, then one output more. -/
inductive InTurn (Head Output : Json → Prop) : List Json → Prop
  | fallback {j : Json} : Output j → InTurn Head Output [j]
  | pair {head output : Json} {rest : List Json} : Head head → Output output →
      InTurn Head Output rest → InTurn Head Output (head :: output :: rest)

/-- An expression whose conditions are as given. -/
inductive IsExpression (Condition : Json → Prop) : Json → Prop
  | scalar {j : Json} : IsScalar j → IsExpression Condition j
  | get (name : String) : IsExpression Condition (.arr [.str "get", .str name])
  | literal {j : Json} : IsOperand j → IsExpression Condition (.arr [.str "literal", j])
  | zoom (rest : List Json) : IsExpression Condition (.arr (.str "zoom" :: rest))
  | geometryType (rest : List Json) : IsExpression Condition (.arr (.str "geometry-type" :: rest))
  | id (rest : List Json) : IsExpression Condition (.arr (.str "id" :: rest))
  | switch {input : Json} {rest : List Json} : IsExpression Condition input →
      InTurn IsLabel (IsExpression Condition) rest →
      IsExpression Condition (.arr (.str "match" :: input :: rest))
  | choose {rest : List Json} : InTurn Condition (IsExpression Condition) rest →
      IsExpression Condition (.arr (.str "case" :: rest))
  | coalesce {rest : List Json} : (∀ j ∈ rest, IsExpression Condition j) →
      IsExpression Condition (.arr (.str "coalesce" :: rest))

/-- A name, or an expression that is an array. -/
inductive IsKey (Condition : Json → Prop) : Json → Prop
  | name (s : String) : IsKey Condition (.str s)
  | expression {items : List Json} : IsExpression Condition (.arr items) →
      IsKey Condition (.arr items)

/-- A filter, in which every condition is a filter. -/
inductive IsFilter : Json → Prop
  | truth (b : Bool) : IsFilter (.bool b)
  | compare {name : String} {k v : Json} : name ∈ ["==", "!="] → IsKey IsFilter k → IsOperand v →
      IsFilter (.arr [.str name, k, v])
  | member {name : String} {k : Json} {vs : List Json} : name ∈ ["in", "!in"] → IsKey IsFilter k →
      IsListed vs → IsFilter (.arr (.str name :: k :: vs))
  | present {name : String} (property : String) : name ∈ ["has", "!has"] →
      IsFilter (.arr [.str name, .str property])
  | combine {name : String} {js : List Json} : name ∈ ["all", "any", "none"] →
      (∀ j ∈ js, IsFilter j) → IsFilter (.arr (.str name :: js))

end Grammar

/-! ## Trees without a part that was not understood -/

/-- Every condition in the expression has the property. -/
inductive Expression.Over (P : Filter → Prop) : Expression → Prop
  | get (name : String) : Over P (.get name)
  | literal (v : Scalar) : Over P (.literal v)
  | zoom : Over P .zoom
  | geometryType : Over P .geometryType
  | id : Over P .id
  | switch {input : Expression} {cases : List (List Scalar × Expression)} {fallback : Expression} :
      Over P input → (∀ c ∈ cases, Over P c.2) → Over P fallback →
      Over P (.switch input cases fallback)
  | choose {branches : List (Filter × Expression)} {fallback : Expression} :
      (∀ b ∈ branches, P b.1) → (∀ b ∈ branches, Over P b.2) → Over P fallback →
      Over P (.choose branches fallback)
  | coalesce {candidates : List Expression} : (∀ e ∈ candidates, Over P e) →
      Over P (.coalesce candidates)

/-- The unknown filter is nowhere in the tree, conditions included. -/
inductive Filter.Understood : Filter → Prop
  | compare (negated : Bool) {key : Expression} (value : Scalar) : key.Over Filter.Understood →
      Understood (.compare negated key value)
  | member (negated : Bool) {key : Expression} (values : List Scalar) :
      key.Over Filter.Understood → Understood (.member negated key values)
  | present (negated : Bool) (key : String) : Understood (.present negated key)
  | combine (how : Connective) {filters : List Filter} : (∀ f ∈ filters, Understood f) →
      Understood (.combine how filters)

namespace Expression

variable {P : Filter → Prop}

theorem over_switch {input fallback : Expression} {cases : List (List Scalar × Expression)} :
    (switch input cases fallback).Over P ↔
      input.Over P ∧ (∀ c ∈ cases, c.2.Over P) ∧ fallback.Over P := by
  constructor
  · intro h
    cases h with
    | switch hi hc hf => exact ⟨hi, hc, hf⟩
  · rintro ⟨hi, hc, hf⟩
    exact .switch hi hc hf

theorem over_choose {branches : List (Filter × Expression)} {fallback : Expression} :
    (choose branches fallback).Over P ↔
      (∀ b ∈ branches, P b.1 ∧ b.2.Over P) ∧ fallback.Over P := by
  constructor
  · intro h
    cases h with
    | choose hc ho hf => exact ⟨fun b hb => ⟨hc b hb, ho b hb⟩, hf⟩
  · rintro ⟨hb, hf⟩
    exact .choose (fun b h => (hb b h).1) (fun b h => (hb b h).2) hf

theorem over_coalesce {candidates : List Expression} :
    (coalesce candidates).Over P ↔ ∀ e ∈ candidates, e.Over P := by
  constructor
  · intro h
    cases h with
    | coalesce he => exact he
  · exact .coalesce

mutual

/-- Nothing is asked of the conditions. -/
theorem over_true : ∀ e : Expression, e.Over fun _ => True
  | .get name => .get name
  | .literal v => .literal v
  | .zoom => .zoom
  | .geometryType => .geometryType
  | .id => .id
  | .switch input cases fallback => .switch input.over_true (cases_over_true cases) fallback.over_true
  | .choose branches fallback =>
    .choose (fun _ _ => trivial) (branches_over_true branches) fallback.over_true
  | .coalesce candidates => .coalesce (all_over_true candidates)

theorem cases_over_true :
    ∀ cases : List (List Scalar × Expression), ∀ c ∈ cases, c.2.Over fun _ => True
  | [] => by simp
  | (_, output) :: rest => List.forall_mem_cons.mpr ⟨output.over_true, cases_over_true rest⟩

theorem branches_over_true :
    ∀ branches : List (Filter × Expression), ∀ b ∈ branches, b.2.Over fun _ => True
  | [] => by simp
  | (_, output) :: rest => List.forall_mem_cons.mpr ⟨output.over_true, branches_over_true rest⟩

theorem all_over_true : ∀ es : List Expression, ∀ e ∈ es, e.Over fun _ => True
  | [] => by simp
  | e :: rest => List.forall_mem_cons.mpr ⟨e.over_true, all_over_true rest⟩

end

end Expression

namespace Filter

theorem understood_compare {negated : Bool} {key : Expression} {value : Scalar} :
    (compare negated key value).Understood ↔ key.Over Understood := by
  constructor
  · intro h
    cases h with
    | compare _ _ h => exact h
  · exact .compare negated value

theorem understood_member {negated : Bool} {key : Expression} {values : List Scalar} :
    (member negated key values).Understood ↔ key.Over Understood := by
  constructor
  · intro h
    cases h with
    | member _ _ h => exact h
  · exact .member negated values

theorem understood_combine {how : Connective} {filters : List Filter} :
    (combine how filters).Understood ↔ ∀ f ∈ filters, f.Understood := by
  constructor
  · intro h
    cases h with
    | combine _ h => exact h
  · exact .combine how

theorem not_understood_unknown : ¬ Understood .unknown := by
  intro h
  cases h

end Filter

/-! ## Forms of the grammar -/

namespace Grammar

theorem not_isScalar_arr {items : List Json} : ¬ IsScalar (.arr items) := by
  intro h
  cases h

theorem isOperand_arr {items : List Json} :
    IsOperand (.arr items) ↔ ∃ j, items = [.str "literal", j] ∧ IsScalar j := by
  constructor
  · intro h
    cases h with
    | scalar h => exact absurd h not_isScalar_arr
    | literal h => exact ⟨_, rfl, h⟩
  · rintro ⟨j, rfl, h⟩
    exact .literal h

theorem isOperand_atom {j : Json} (hatom : ∀ items, j ≠ .arr items) : IsOperand j ↔ IsScalar j := by
  constructor
  · intro h
    cases h with
    | scalar h => exact h
    | literal h => exact absurd rfl (hatom _)
  · exact .scalar

/-- A label and its output are two, so the fallback makes the number odd. -/
theorem InTurn.odd {Head Output : Json → Prop} {js : List Json} (h : InTurn Head Output js) :
    js.length % 2 = 1 := by
  induction h with
  | fallback h => rfl
  | pair _ _ _ ih =>
    simp only [List.length_cons]
    omega

theorem inTurn_singleton {Head Output : Json → Prop} {j : Json} :
    InTurn Head Output [j] ↔ Output j := by
  constructor
  · intro h
    cases h with
    | fallback h => exact h
  · exact .fallback

theorem inTurn_cons_cons {Head Output : Json → Prop} {head output : Json} {rest : List Json} :
    InTurn Head Output (head :: output :: rest) ↔
      Head head ∧ Output output ∧ InTurn Head Output rest := by
  constructor
  · intro h
    cases h with
    | pair hh ho hr => exact ⟨hh, ho, hr⟩
  · rintro ⟨hh, ho, hr⟩
    exact .pair hh ho hr

/-- What the name at the head of an array asks of the rest, if the array is an expression. -/
theorem isExpression_call {Condition : Json → Prop} {name : String} {args : List Json} :
    IsExpression Condition (.arr (.str name :: args)) ↔
      name = "get" ∧ (∃ property, args = [.str property]) ∨
      name = "literal" ∧ (∃ j, args = [j] ∧ IsOperand j) ∨
      name = "zoom" ∨ name = "geometry-type" ∨ name = "id" ∨
      name = "match" ∧ (∃ input rest, args = input :: rest ∧ IsExpression Condition input ∧
        InTurn IsLabel (IsExpression Condition) rest) ∨
      name = "case" ∧ InTurn Condition (IsExpression Condition) args ∨
      name = "coalesce" ∧ (∀ j ∈ args, IsExpression Condition j) := by
  constructor
  · intro h
    generalize hj : Json.arr (.str name :: args) = j at h
    cases h with
    | scalar h => exact absurd (hj ▸ h) not_isScalar_arr
    | get property => cases hj; simp
    | literal h => cases hj; simp [h]
    | zoom rest => cases hj; simp
    | geometryType rest => cases hj; simp
    | id rest => cases hj; simp
    | switch hi hr =>
      cases hj
      exact .inr (.inr (.inr (.inr (.inr (.inl ⟨rfl, _, _, rfl, hi, hr⟩)))))
    | choose h => cases hj; simp [h]
    | coalesce h => cases hj; simpa using h
  · rintro (⟨rfl, property, rfl⟩ | ⟨rfl, j, rfl, h⟩ | rfl | rfl | rfl | ⟨rfl, input, rest, rfl, hi, hr⟩ |
      ⟨rfl, h⟩ | ⟨rfl, h⟩)
    · exact .get property
    · exact .literal h
    · exact .zoom args
    · exact .geometryType args
    · exact .id args
    · exact .switch hi hr
    · exact .choose h
    · exact .coalesce h

theorem isExpression_switch {Condition : Json → Prop} {input : Json} {rest : List Json} :
    IsExpression Condition (.arr (.str "match" :: input :: rest)) ↔
      IsExpression Condition input ∧ InTurn IsLabel (IsExpression Condition) rest := by
  simp [isExpression_call, and_assoc]

theorem isExpression_choose {Condition : Json → Prop} {args : List Json} :
    IsExpression Condition (.arr (.str "case" :: args)) ↔
      InTurn Condition (IsExpression Condition) args := by
  simp [isExpression_call]

theorem isExpression_coalesce {Condition : Json → Prop} {args : List Json} :
    IsExpression Condition (.arr (.str "coalesce" :: args)) ↔
      ∀ j ∈ args, IsExpression Condition j := by
  simp [isExpression_call]

theorem isExpression_atom {Condition : Json → Prop} {j : Json} (hatom : ∀ items, j ≠ .arr items) :
    IsExpression Condition j ↔ IsScalar j := by
  constructor
  · intro h
    cases h with
    | scalar h => exact h
    | _ => exact absurd rfl (hatom _)
  · exact .scalar

/-- What the name at the head of an array asks of the rest, if the array is a filter. -/
theorem isFilter_call {name : String} {args : List Json} :
    IsFilter (.arr (.str name :: args)) ↔
      name ∈ ["==", "!="] ∧ (∃ k v, args = [k, v] ∧ IsKey IsFilter k ∧ IsOperand v) ∨
      name ∈ ["in", "!in"] ∧ (∃ k vs, args = k :: vs ∧ IsKey IsFilter k ∧ IsListed vs) ∨
      name ∈ ["has", "!has"] ∧ (∃ property, args = [.str property]) ∨
      name ∈ ["all", "any", "none"] ∧ (∀ j ∈ args, IsFilter j) := by
  constructor
  · intro h
    cases h with
    | compare hn hk hv => exact .inl ⟨hn, _, _, rfl, hk, hv⟩
    | member hn hk hv => exact .inr (.inl ⟨hn, _, _, rfl, hk, hv⟩)
    | present property hn => exact .inr (.inr (.inl ⟨hn, property, rfl⟩))
    | combine hn h => exact .inr (.inr (.inr ⟨hn, h⟩))
  · rintro (⟨hn, k, v, rfl, hk, hv⟩ | ⟨hn, k, vs, rfl, hk, hv⟩ | ⟨hn, property, rfl⟩ | ⟨hn, h⟩)
    · exact .compare hn hk hv
    · exact .member hn hk hv
    · exact .present property hn
    · exact .combine hn h

end Grammar

/-! ## The reader and the grammar -/

namespace Filter.Reader

open Grammar

theorem scalarOf_reads {j : Json} (h : j.Fits) :
    Yields (scalarOf j) (fun _ => True) ↔ IsScalar j := by
  obtain ⟨v, hv⟩ := Scalar.ofJson_ok h
  cases j with
  | str s => simpa [scalarOf, Scalar.ofJson] using IsScalar.str s
  | bool b => simpa [scalarOf, Scalar.ofJson] using IsScalar.bool b
  | num n =>
    obtain ⟨x, hx, rfl⟩ := map_eq_ok.mp hv
    simpa [scalarOf, hv] using IsScalar.num n
  | _ => exact iff_of_false (by simp [scalarOf, Scalar.ofJson]) (by intro h; cases h)

theorem operand_reads {j : Json} (h : j.Fits) :
    Yields (operand j) (fun _ => True) ↔ IsOperand j := by
  unfold operand
  split
  · rename_i items
    cases hu : unwrap? items with
    | some wrapped =>
      rw [unwrap?_eq_some] at hu
      subst hu
      have hfits : wrapped.Fits := by simpa [Json.fits_arr] using h
      simp [scalarOf_reads hfits, isOperand_arr]
    | none =>
      refine iff_of_false (by simp) ?_
      rw [isOperand_arr]
      rintro ⟨j, rfl, _⟩
      cases hu
  · rename_i hatom
    rw [scalarOf_reads h, isOperand_atom hatom]

theorem operands_reads {js : List Json} (h : Json.ItemsFit js) :
    Yields (operands js) (fun _ => True) ↔ ∀ j ∈ js, IsOperand j := by
  induction js with
  | nil => simp [operands]
  | cons j js ih =>
    rw [Json.itemsFit_cons] at h
    simp only [operands, yields_bind, yields_pure]
    rw [yields_const, operand_reads h.1, ih h.2, List.forall_mem_cons]

theorem listed_reads {v : Json} {vs : List Json} (h : Json.ItemsFit (v :: vs)) :
    Yields (listed (v :: vs)) (fun _ => True) ↔ IsListed (v :: vs) := by
  unfold listed
  split
  · rename_i items heq
    rw [heq, Json.itemsFit_cons, Json.fits_arr] at h
    rw [heq]
    split
    · rename_i wrapped hu
      rw [unwrap?_eq_some] at hu
      subst hu
      have hfits : Json.ItemsFit wrapped := by simpa [Json.fits_arr] using h
      rw [operands_reads hfits]
      constructor
      · exact .literal
      · intro hl
        cases hl with
        | literal hw => exact hw
        | inline _ hne _ => exact absurd rfl (hne _)
        | array hw =>
          -- The array then lists the word itself and one more operand, which wraps a scalar.
          obtain ⟨j, rfl, hj⟩ := isOperand_arr.mp (hw (.arr wrapped) (by simp))
          simpa using ⟨IsOperand.scalar (.str "literal"), IsOperand.scalar hj⟩
    · rename_i hu
      rw [operands_reads h.1]
      constructor
      · exact .array
      · intro hl
        cases hl with
        | array hw => exact hw
        | literal hw => exact absurd rfl (hu _)
        | inline _ hne _ => exact absurd rfl (hne _)
  · rename_i hne
    rw [operands_reads h]
    constructor
    · exact .inline (by simp) hne
    · intro hl
      generalize hvs : v :: vs = js at hl hne
      cases hl with
      | array hw => exact absurd rfl (hne _)
      | literal hw => exact absurd rfl (hne _)
      | inline _ _ hw => exact hw

theorem label_reads {j : Json} (h : j.Fits) : Yields (label j) (fun _ => True) ↔ IsLabel j := by
  unfold label
  split
  · refine iff_of_false (by simp) ?_
    intro hl
    cases hl with
    | scalar hs => exact absurd hs not_isScalar_arr
    | alternatives hne _ => exact hne rfl
  · rename_i items hne
    rw [operands_reads (Json.fits_arr.mp h)]
    constructor
    · exact .alternatives (by simpa using hne)
    · intro hl
      cases hl with
      | scalar hs => exact absurd hs not_isScalar_arr
      | alternatives _ hw => exact hw
  · rename_i hatom
    rw [yields_map, scalarOf_reads h]
    constructor
    · exact .scalar
    · intro hl
      cases hl with
      | scalar hs => exact hs
      | alternatives _ _ => exact absurd rfl (hatom _)

theorem key_reads {Condition : Json → Prop} {P : Filter → Prop} {j : Json}
    (h : Yields (expression j) (·.Over P) ↔ IsExpression Condition j) :
    Yields (key j (expression j)) (·.Over P) ↔ IsKey Condition j := by
  unfold key
  split
  · rename_i name
    exact iff_of_true (by simpa using Expression.Over.get name) (.name name)
  · rw [h]
    constructor
    · exact .expression
    · intro hk
      cases hk with
      | expression he => exact he
  · rename_i hname harr
    refine iff_of_false (by simp) ?_
    intro hk
    cases hk with
    | name s => exact hname s rfl
    | expression _ => exact harr _ rfl

theorem ofRange_yields {α : Type} {x : Except OutOfRange α} {P : α → Prop} :
    Yields (ExpressionFault.ofRange x) P ↔ Yields x P := by
  cases x with
  | ok a => simp [ExpressionFault.ofRange]
  | error e => simp [ExpressionFault.ofRange]

/-! Expressions are read as the grammar says if the conditions in them are. Only the values below a
given size can be conditions in what is read. -/

section Conditions

variable {Condition : Json → Prop} {P : Filter → Prop} {n : Nat}

mutual

theorem expression_reads (hc : ∀ c, sizeOf c < n → c.Fits → (Yields (filter c) P ↔ Condition c))
    (j : Json) (h : j.Fits) (hn : sizeOf j ≤ n) :
    Yields (expression j) (·.Over P) ↔ IsExpression Condition j := by
  cases Expression.form j with
  | get args =>
    rw [expression_get, isExpression_call]
    split
    · simpa using Expression.Over.get _
    · rename_i hne
      simpa using hne
  | literal args =>
    rw [expression_literal, isExpression_call]
    split
    · rename_i j
      have hj : j.Fits := by simpa [Json.fits_arr] using h
      simp [Expression.Over.literal, operand_reads hj]
    · rename_i hne
      simpa using fun j hj => absurd hj (hne j)
  | zoom args => exact iff_of_true (by simpa [expression_zoom] using .zoom) (.zoom args)
  | geometryType args =>
    exact iff_of_true (by simpa [expression_geometryType] using .geometryType) (.geometryType args)
  | id args => exact iff_of_true (by simpa [expression_id] using .id) (.id args)
  | switch args =>
    rw [expression_switch]
    cases args with
    | nil => simp [isExpression_call]
    | cons input rest =>
      have hj : input.Fits ∧ Json.ItemsFit rest := by simpa [Json.fits_arr] using h
      simp only [Json.arr.sizeOf_spec, List.cons.sizeOf_spec] at hn
      have hi := expression_reads hc input hj.1 (by omega)
      have hr := switchCases_reads hc rest hj.2 (by omega)
      rw [isExpression_switch]
      by_cases hodd : rest.length % 2 = 1
      · simp only [if_pos hodd, yields_bind, yields_pure, Expression.over_switch]
        rw [← hi, ← hr, ← yields_and_right]
        simp only [yields_and_left]
      · simp only [if_neg hodd]
        exact iff_of_false not_yields_error fun hg => hodd hg.2.odd
  | choose args =>
    have hj : Json.ItemsFit args := by simpa [Json.fits_arr] using h
    simp only [Json.arr.sizeOf_spec, List.cons.sizeOf_spec] at hn
    have hr := chooseBranches_reads hc args hj (by omega)
    rw [expression_choose, isExpression_choose]
    by_cases hodd : args.length % 2 = 1
    · simp only [if_pos hodd, yields_bind, yields_pure, Expression.over_choose]
      exact hr
    · simp only [if_neg hodd]
      exact iff_of_false not_yields_error fun hg => hodd hg.odd
  | coalesce args =>
    have hj : Json.ItemsFit args := by simpa [Json.fits_arr] using h
    simp only [Json.arr.sizeOf_spec, List.cons.sizeOf_spec] at hn
    simp only [expression_coalesce, yields_bind, yields_pure, Expression.over_coalesce]
    rw [isExpression_coalesce, expressions_reads hc args hj (by omega)]
  | @unnamed name args hop =>
    rw [expression_unnamed args hop, isExpression_call]
    refine iff_of_false not_yields_error ?_
    rintro (⟨rfl, _⟩ | ⟨rfl, _⟩ | rfl | rfl | rfl | ⟨rfl, _⟩ | ⟨rfl, _⟩ | ⟨rfl, _⟩) <;> cases hop
  | headless hitems =>
    rw [expression_headless hitems]
    refine iff_of_false not_yields_error ?_
    intro hg
    cases hg with
    | scalar hs => exact not_isScalar_arr hs
    | _ => exact hitems _ _ rfl
  | atom hatom =>
    rw [expression_atom hatom, isExpression_atom hatom, ← scalarOf_reads h, yields_map]
    simp only [Expression.Over.literal]
termination_by sizeOf j

theorem switchCases_reads (hc : ∀ c, sizeOf c < n → c.Fits → (Yields (filter c) P ↔ Condition c))
    (js : List Json) (h : Json.ItemsFit js) (hn : sizeOf js ≤ n) :
    Yields (switchCases js) (fun r => (∀ c ∈ r.1, c.2.Over P) ∧ r.2.Over P) ↔
      InTurn IsLabel (IsExpression Condition) js := by
  match js with
  | [] => exact iff_of_false (by simp [switchCases]) (by rintro (_ | _))
  | [fallback] =>
    simp only [List.cons.sizeOf_spec] at hn
    have hf := expression_reads hc fallback (by simpa using h) (by omega)
    simp only [switchCases, yields_bind, yields_pure, inTurn_singleton]
    simpa using hf
  | labels :: output :: rest =>
    simp only [Json.itemsFit_cons] at h
    simp only [List.cons.sizeOf_spec] at hn
    have ho := expression_reads hc output h.2.1 (by omega)
    have hr := switchCases_reads hc rest h.2.2 (by omega)
    simp only [switchCases, yields_bind, yields_pure, List.forall_mem_cons, and_assoc,
      yields_and_left, yields_and_right]
    rw [inTurn_cons_cons, yields_const, label_reads h.1, ho, hr]
    exact and_left_comm
termination_by sizeOf js

theorem chooseBranches_reads
    (hc : ∀ c, sizeOf c < n → c.Fits → (Yields (filter c) P ↔ Condition c))
    (js : List Json) (h : Json.ItemsFit js) (hn : sizeOf js ≤ n) :
    Yields (chooseBranches js) (fun r => (∀ b ∈ r.1, P b.1 ∧ b.2.Over P) ∧ r.2.Over P) ↔
      InTurn Condition (IsExpression Condition) js := by
  match js with
  | [] => exact iff_of_false (by simp [chooseBranches]) (by rintro (_ | _))
  | [fallback] =>
    simp only [List.cons.sizeOf_spec] at hn
    have hf := expression_reads hc fallback (by simpa using h) (by omega)
    simp only [chooseBranches, yields_bind, yields_pure, inTurn_singleton]
    simpa using hf
  | condition :: output :: rest =>
    simp only [Json.itemsFit_cons] at h
    simp only [List.cons.sizeOf_spec] at hn
    have hcond := hc condition (by omega) h.1
    have ho := expression_reads hc output h.2.1 (by omega)
    have hr := chooseBranches_reads hc rest h.2.2 (by omega)
    simp only [chooseBranches, yields_bind, yields_pure, List.forall_mem_cons, and_assoc,
      yields_and_left, yields_and_right, ofRange_yields]
    rw [inTurn_cons_cons, hcond, ho, hr]
termination_by sizeOf js

theorem expressions_reads (hc : ∀ c, sizeOf c < n → c.Fits → (Yields (filter c) P ↔ Condition c))
    (js : List Json) (h : Json.ItemsFit js) (hn : sizeOf js ≤ n) :
    Yields (expressions js) (fun es => ∀ e ∈ es, e.Over P) ↔ ∀ j ∈ js, IsExpression Condition j := by
  match js with
  | [] => simp [expressions]
  | j :: rest =>
    rw [Json.itemsFit_cons] at h
    simp only [List.cons.sizeOf_spec] at hn
    have hj := expression_reads hc j h.1 (by omega)
    have hr := expressions_reads hc rest h.2 (by omega)
    simp only [expressions, yields_bind, yields_pure, List.forall_mem_cons, yields_and_left,
      yields_and_right]
    rw [hj, hr]
termination_by sizeOf js

end

end Conditions

/-- Whatever their conditions are, expressions are read just as the grammar says. -/
theorem expression_reads_any {j : Json} (h : j.Fits) :
    Yields (expression j) (·.Over fun _ => True) ↔ IsExpression (fun _ => True) j := by
  have any_condition (c : Json) (_ : sizeOf c < sizeOf j) (hc : c.Fits) :
      Yields (filter c) (fun _ => True) ↔ True := by
    obtain ⟨f, hf⟩ := filter_ok c hc
    simp [hf]
  exact expression_reads any_condition j h (Nat.le_refl _)

theorem confine_yields {x : Except ExpressionFault Filter} :
    Yields (ExpressionFault.confine x) Understood ↔ Yields x Understood := by
  cases x with
  | ok f => simp [ExpressionFault.confine]
  | error e => cases e <;> simp [ExpressionFault.confine, not_understood_unknown]

theorem isFilter_compare {negated : Bool} {args : List Json} :
    IsFilter (.arr (.str (FilterOperator.compare negated).name :: args)) ↔
      ∃ k v, args = [k, v] ∧ IsKey IsFilter k ∧ IsOperand v := by
  cases negated <;> simp [isFilter_call, FilterOperator.name]

theorem isFilter_member {negated : Bool} {args : List Json} :
    IsFilter (.arr (.str (FilterOperator.member negated).name :: args)) ↔
      ∃ k vs, args = k :: vs ∧ IsKey IsFilter k ∧ IsListed vs := by
  cases negated <;> simp [isFilter_call, FilterOperator.name]

theorem isFilter_present {negated : Bool} {args : List Json} :
    IsFilter (.arr (.str (FilterOperator.present negated).name :: args)) ↔
      ∃ property, args = [.str property] := by
  cases negated <;> simp [isFilter_call, FilterOperator.name]

theorem isFilter_combine {how : Connective} {args : List Json} :
    IsFilter (.arr (.str how.name :: args)) ↔ ∀ j ∈ args, IsFilter j := by
  cases how <;> simp [isFilter_call, Connective.name]

theorem not_isFilter_unnamed {name : String} {args : List Json}
    (hop : FilterOperator.ofName? name = none) : ¬ IsFilter (.arr (.str name :: args)) := by
  rw [isFilter_call]
  simp only [List.mem_cons, List.not_mem_nil, or_false]
  rintro (⟨rfl | rfl, _⟩ | ⟨rfl | rfl, _⟩ | ⟨rfl | rfl, _⟩ | ⟨rfl | rfl | rfl, _⟩) <;> cases hop

theorem not_isListed_nil : ¬ IsListed [] := by
  intro h
  cases h with
  | inline hne _ _ => exact hne rfl

mutual

theorem filter_reads (j : Json) (h : j.Fits) : Yields (filter j) Understood ↔ IsFilter j := by
  cases Filter.form j with
  | truth b =>
    refine iff_of_true ?_ (.truth b)
    cases b <;> simp [filter_truth, always, never, understood_combine]
  | compare negated args =>
    rw [filter_compare, isFilter_compare]
    split
    · rename_i k v
      have hj : k.Fits ∧ v.Fits := by simpa [Json.fits_arr] using h
      have hk := key_reads (expression_reads (fun c _ hc => filter_reads c hc) k hj.1 (Nat.le_refl _))
      simp only [confine_yields, yields_bind, yields_pure, understood_compare]
      rw [yields_then, hk, operand_reads hj.2]
      simp [and_assoc]
    · rename_i hne
      simpa [not_understood_unknown] using fun k v hkv => absurd hkv (hne k v)
  | member negated args =>
    rw [filter_member, isFilter_member]
    split
    · rename_i k v vs
      have hj : k.Fits ∧ Json.ItemsFit (v :: vs) := by simpa [Json.fits_arr] using h
      have hk := key_reads (expression_reads (fun c _ hc => filter_reads c hc) k hj.1 (Nat.le_refl _))
      simp only [confine_yields, yields_bind, yields_pure, understood_member]
      rw [yields_then, hk, listed_reads hj.2]
      simp [and_assoc]
    · rename_i hne
      refine iff_of_false (by simp [not_understood_unknown]) ?_
      rintro ⟨k, vs, rfl, _, hl⟩
      cases vs with
      | nil => exact not_isListed_nil hl
      | cons v vs => exact hne k v vs rfl
  | present negated args =>
    rw [filter_present, isFilter_present]
    split
    · simpa using .present negated _
    · rename_i hne
      simpa [not_understood_unknown] using hne
  | combine how args =>
    have hj : Json.ItemsFit args := by simpa [Json.fits_arr] using h
    simp only [filter_combine, yields_bind, yields_pure, understood_combine]
    rw [isFilter_combine, filters_reads args hj]
  | unnamed args hop =>
    rw [filter_unnamed args hop]
    exact iff_of_false (by simp [not_understood_unknown]) (not_isFilter_unnamed hop)
  | headless hitems =>
    rw [filter_headless hitems]
    refine iff_of_false (by simp [not_understood_unknown]) ?_
    intro hg
    cases hg <;> exact hitems _ _ rfl
  | atom hatom hb =>
    rw [filter_atom hatom hb]
    refine iff_of_false (by simp [not_understood_unknown]) ?_
    intro hg
    cases hg with
    | truth b => exact hb b rfl
    | _ => exact hatom _ rfl
termination_by sizeOf j
decreasing_by
  all_goals
    subst_vars
    simp only [Json.arr.sizeOf_spec, List.cons.sizeOf_spec]
    omega

theorem filters_reads (js : List Json) (h : Json.ItemsFit js) :
    Yields (filters js) (fun fs => ∀ f ∈ fs, f.Understood) ↔ ∀ j ∈ js, IsFilter j := by
  match js with
  | [] => simp [filters]
  | j :: rest =>
    rw [Json.itemsFit_cons] at h
    simp only [filters, yields_bind, yields_pure, List.forall_mem_cons, yields_and_left,
      yields_and_right]
    rw [filter_reads j h.1, filters_reads rest h.2]
termination_by sizeOf js

end

end Filter.Reader

open Grammar in
/-- Reading a value that fits never fails. It gives an expression exactly for the expressions of the
grammar, whatever their conditions are; and it gives no filter, or one that is understood throughout,
exactly for the empty array and the filters of the grammar. -/
theorem reads_exactly_the_grammar (j : Json) (h : j.Fits) :
    (∃ e, Expression.ofJson j = .ok e ∧ (e.isSome ↔ IsExpression (fun _ => True) j)) ∧
      ∃ f, Filter.ofJson j = .ok f ∧
        ((∀ tree, f = some tree → tree.Understood) ↔ j = .arr [] ∨ IsFilter j) := by
  constructor
  · have reads := expression_reads_any h
    have inRange := expression_inRange j h
    unfold Expression.ofJson
    rw [← reads]
    cases hj : expression j with
    | ok e => exact ⟨some e, rfl, by simpa using e.over_true⟩
    | error e =>
      cases e with
      | malformed => exact ⟨none, rfl, by simp⟩
      | outOfRange e => exact absurd hj (inRange e)
  · have reads := filter_reads j h
    obtain ⟨f, hf⟩ := filter_ok j h
    unfold Filter.ofJson
    split
    · exact ⟨none, rfl, by simp⟩
    · rename_i hne
      rw [← reads]
      exact ⟨some f, by simp [hf, Except.map], by simpa [hf] using fun heq => absurd heq hne⟩

/-- A filter whose key chooses by another filter, with a literal among its labels. -/
theorem reads_exactly_the_grammar_nested :
    let j : Json := .arr [.str "!in",
      .arr [.str "match", .arr [.str "get", .str "kind"],
        .arr [.str "a", .arr [.str "literal", .int 2]],
        .arr [.str "case", .arr [.str "none", .arr [.str "has", .str "x"]], .arr [.str "id"], .bool true],
        .str "other"],
      .arr [.str "literal", .arr [.str "z", .int 3]]]
    j.Fits ∧ Grammar.IsFilter j ∧ ∃ f, Filter.ofJson j = .ok f ∧
      ∀ tree, f = some tree → tree.Understood := by
  intro j
  have fits : j.Fits := by
    simp only [j, Json.int, Json.Fits, Json.ItemsFit, and_true, true_and]
    decide +kernel
  have condition : Grammar.IsFilter (.arr [.str "none", .arr [.str "has", .str "x"]]) :=
    .combine (by simp) (by simpa using .present "x" (by simp))
  have chosen : Grammar.IsExpression Grammar.IsFilter (.arr [.str "case",
      .arr [.str "none", .arr [.str "has", .str "x"]], .arr [.str "id"], .bool true]) :=
    .choose (.pair condition (.id []) (.fallback (.scalar (.bool true))))
  have labels : Grammar.IsLabel (.arr [.str "a", .arr [.str "literal", .int 2]]) := by
    refine .alternatives (by simp) ?_
    simpa using ⟨.scalar (.str "a"), .literal (.num (.int 2))⟩
  have listed : Grammar.IsListed [.arr [.str "literal", .arr [.str "z", .int 3]]] := by
    refine .literal ?_
    simpa using ⟨.scalar (.str "z"), .scalar (.num (.int 3))⟩
  have inGrammar : Grammar.IsFilter j :=
    .member (by simp) (.expression (.switch (.get "kind")
      (.pair labels chosen (.fallback (.scalar (.str "other")))))) listed
  obtain ⟨f, hf, understood⟩ := (reads_exactly_the_grammar j fits).2
  exact ⟨fits, inGrammar, f, hf, understood.mpr (.inr inGrammar)⟩

end StyledTiles
