import StyledTiles.Filter.Reader
import StyledTiles.Proofs.Range

/-!
# Reading by form

A value is read by the operator at its head. `Expression.Form` and `Filter.Form` list the forms that
reading tells apart, operator by operator, and for each of them one equation says what is read. What
has no operator at its head reads as a scalar, as a truth, or not at all.

A value that fits is read without a number out of range being met.
-/
namespace StyledTiles

open Outcome

/-- The array does not start with a name. -/
def Json.Headless (items : List Json) : Prop := ∀ name args, items ≠ .str name :: args

/-- The forms of what is read as an expression. -/
inductive Expression.Form : Json → Prop
  | get (args : List Json) : Form (.arr (.str "get" :: args))
  | literal (args : List Json) : Form (.arr (.str "literal" :: args))
  | zoom (args : List Json) : Form (.arr (.str "zoom" :: args))
  | geometryType (args : List Json) : Form (.arr (.str "geometry-type" :: args))
  | id (args : List Json) : Form (.arr (.str "id" :: args))
  | switch (args : List Json) : Form (.arr (.str "match" :: args))
  | choose (args : List Json) : Form (.arr (.str "case" :: args))
  | coalesce (args : List Json) : Form (.arr (.str "coalesce" :: args))
  | unnamed {name : String} (args : List Json) (h : ExpressionOperator.ofName? name = none) :
      Form (.arr (.str name :: args))
  | headless {items : List Json} (h : Json.Headless items) : Form (.arr items)
  | atom {j : Json} (h : ∀ items, j ≠ .arr items) : Form j

/-- The forms of what is read as a filter. -/
inductive Filter.Form : Json → Prop
  | truth (b : Bool) : Form (.bool b)
  | compare (negated : Bool) (args : List Json) :
      Form (.arr (.str (FilterOperator.compare negated).name :: args))
  | member (negated : Bool) (args : List Json) :
      Form (.arr (.str (FilterOperator.member negated).name :: args))
  | present (negated : Bool) (args : List Json) :
      Form (.arr (.str (FilterOperator.present negated).name :: args))
  | combine (how : Connective) (args : List Json) : Form (.arr (.str how.name :: args))
  | unnamed {name : String} (args : List Json) (h : FilterOperator.ofName? name = none) :
      Form (.arr (.str name :: args))
  | headless {items : List Json} (h : Json.Headless items) : Form (.arr items)
  | atom {j : Json} (h : ∀ items, j ≠ .arr items) (hb : ∀ b, j ≠ .bool b) : Form j

theorem Json.headless_or_named (items : List Json) :
    Json.Headless items ∨ ∃ name args, items = .str name :: args := by
  by_cases h : ∃ name args, items = .str name :: args
  · exact .inr h
  · exact .inl fun name args heq => h ⟨name, args, heq⟩

theorem Connective.ofName?_eq_some {name : String} {how : Connective} :
    Connective.ofName? name = some how ↔ name = how.name := by
  constructor
  · intro h
    unfold ofName? at h
    split at h <;> cases h <;> rfl
  · rintro rfl
    cases how <;> rfl

theorem FilterOperator.ofName?_eq_some {name : String} {op : FilterOperator} :
    FilterOperator.ofName? name = some op ↔ name = op.name := by
  constructor
  · intro h
    unfold ofName? at h
    split at h
    case h_7 =>
      obtain ⟨how, hhow, rfl⟩ := Option.map_eq_some_iff.mp h
      exact Connective.ofName?_eq_some.mp hhow
    all_goals cases h; rfl
  · rintro rfl
    cases op with
    | compare negated => cases negated <;> rfl
    | member negated => cases negated <;> rfl
    | present negated => cases negated <;> rfl
    | combine how => cases how <;> rfl

theorem ExpressionOperator.ofName?_eq_some {name : String} {op : ExpressionOperator} :
    ExpressionOperator.ofName? name = some op ↔ name = op.name := by
  constructor
  · intro h
    unfold ofName? at h
    split at h <;> cases h <;> rfl
  · rintro rfl
    cases op <;> rfl

theorem Expression.form (j : Json) : Expression.Form j := by
  cases j with
  | arr items =>
    rcases Json.headless_or_named items with h | ⟨name, args, rfl⟩
    · exact .headless h
    · cases hop : ExpressionOperator.ofName? name with
      | none => exact .unnamed args hop
      | some op =>
        rw [ExpressionOperator.ofName?_eq_some] at hop
        subst hop
        cases op with
        | get => exact .get args
        | literal => exact .literal args
        | zoom => exact .zoom args
        | geometryType => exact .geometryType args
        | id => exact .id args
        | switch => exact .switch args
        | choose => exact .choose args
        | coalesce => exact .coalesce args
  | _ => exact .atom (by simp)

theorem Filter.form (j : Json) : Filter.Form j := by
  cases j with
  | arr items =>
    rcases Json.headless_or_named items with h | ⟨name, args, rfl⟩
    · exact .headless h
    · cases hop : FilterOperator.ofName? name with
      | none => exact .unnamed args hop
      | some op =>
        rw [FilterOperator.ofName?_eq_some] at hop
        subst hop
        cases op with
        | compare negated => exact .compare negated args
        | member negated => exact .member negated args
        | present negated => exact .present negated args
        | combine how => exact .combine how args
  | bool b => exact .truth b
  | _ => exact .atom (by simp) (by simp)

namespace Filter.Reader

/-! ## One equation for each form -/

theorem expression_get (args : List Json) :
    expression (.arr (.str "get" :: args)) =
      match args with
      | [.str property] => .ok (.get property)
      | _ => .error .malformed := rfl

theorem expression_literal (args : List Json) :
    expression (.arr (.str "literal" :: args)) =
      match args with
      | [j] => (operand j).map .literal
      | _ => .error .malformed := rfl

theorem expression_zoom (args : List Json) :
    expression (.arr (.str "zoom" :: args)) = .ok .zoom := rfl

theorem expression_geometryType (args : List Json) :
    expression (.arr (.str "geometry-type" :: args)) = .ok .geometryType := rfl

theorem expression_id (args : List Json) : expression (.arr (.str "id" :: args)) = .ok .id := rfl

theorem expression_switch (args : List Json) :
    expression (.arr (.str "match" :: args)) =
      match args with
      | input :: rest =>
        if rest.length % 2 = 1 then do
          let input ← expression input
          let (cases, fallback) ← switchCases rest
          return .switch input cases fallback
        else .error .malformed
      | [] => .error .malformed := by
  cases args <;> rfl

theorem expression_choose (args : List Json) :
    expression (.arr (.str "case" :: args)) =
      if args.length % 2 = 1 then do
        let (branches, fallback) ← chooseBranches args
        return .choose branches fallback
      else .error .malformed := rfl

theorem expression_coalesce (args : List Json) :
    expression (.arr (.str "coalesce" :: args)) = do
      let candidates ← expressions args
      return .coalesce candidates := rfl

theorem expression_unnamed {name : String} (args : List Json)
    (h : ExpressionOperator.ofName? name = none) :
    expression (.arr (.str name :: args)) = .error .malformed := by
  unfold expression
  rw [h]

theorem expression_headless {items : List Json} (h : Json.Headless items) :
    expression (.arr items) = .error .malformed := by
  rw [expression]
  exact h

theorem expression_atom {j : Json} (h : ∀ items, j ≠ .arr items) :
    expression j = (scalarOf j).map .literal := by
  rw [expression]
  · exact fun name args => h _
  · exact h

theorem filter_truth (b : Bool) : filter (.bool b) = .ok (if b then .always else .never) := rfl

theorem filter_compare (negated : Bool) (args : List Json) :
    filter (.arr (.str (FilterOperator.compare negated).name :: args)) =
      match args with
      | [k, v] => ExpressionFault.confine do
        let k ← key k (expression k)
        let v ← operand v
        return .compare negated k v
      | _ => .ok .unknown := by
  rewrite [filter, FilterOperator.ofName?_eq_some.mpr rfl]
  rfl

theorem filter_member (negated : Bool) (args : List Json) :
    filter (.arr (.str (FilterOperator.member negated).name :: args)) =
      match args with
      | k :: v :: vs => ExpressionFault.confine do
        let k ← key k (expression k)
        let values ← listed (v :: vs)
        return .member negated k values
      | _ => .ok .unknown := by
  rewrite [filter, FilterOperator.ofName?_eq_some.mpr rfl]
  rfl

theorem filter_present (negated : Bool) (args : List Json) :
    filter (.arr (.str (FilterOperator.present negated).name :: args)) =
      match args with
      | [.str property] => .ok (.present negated property)
      | _ => .ok .unknown := by
  rewrite [filter, FilterOperator.ofName?_eq_some.mpr rfl]
  rfl

theorem filter_combine (how : Connective) (args : List Json) :
    filter (.arr (.str how.name :: args)) = do
      let fs ← filters args
      return .combine how fs := by
  cases how <;> rfl

theorem filter_unnamed {name : String} (args : List Json)
    (h : FilterOperator.ofName? name = none) : filter (.arr (.str name :: args)) = .ok .unknown := by
  rw [filter, h]

theorem filter_headless {items : List Json} (h : Json.Headless items) :
    filter (.arr items) = .ok .unknown := by
  rw [filter]
  · simp
  · intro name args heq
    exact h name args (Json.arr.inj heq)

theorem filter_atom {j : Json} (h : ∀ items, j ≠ .arr items) (hb : ∀ b, j ≠ .bool b) :
    filter j = .ok .unknown := by
  rw [filter]
  · exact hb
  · exact fun name args => h _

/-! ## Within range -/

/-- No number out of range was met, though the reading may have failed for its form. -/
def InRange {α : Type} (x : Except ExpressionFault α) : Prop := ∀ e, x ≠ .error (.outOfRange e)

namespace InRange

variable {α β : Type}

theorem ok (a : α) : InRange (.ok a) := by simp [InRange]

theorem malformed : InRange (.error .malformed : Except ExpressionFault α) := by simp [InRange]

theorem bind {x : Except ExpressionFault α} {f : α → Except ExpressionFault β} (hx : InRange x)
    (hf : ∀ a, InRange (f a)) : InRange (x >>= f) := by
  intro e h
  rcases bind_eq_error.mp h with h | ⟨a, _, h⟩
  · exact hx e h
  · exact hf a e h

theorem map {x : Except ExpressionFault α} (hx : InRange x) (f : α → β) : InRange (x.map f) := by
  intro e h
  exact hx e (map_eq_error.mp h)

theorem ofRange {x : Except OutOfRange α} (hx : ∃ a, x = .ok a) :
    InRange (ExpressionFault.ofRange x) := by
  obtain ⟨a, rfl⟩ := hx
  exact ok a

/-- A reading in range is confined to a filter. -/
theorem confine {x : Except ExpressionFault Filter} (hx : InRange x) :
    ∃ f, ExpressionFault.confine x = .ok f := by
  cases x with
  | ok f => exact ⟨f, rfl⟩
  | error e =>
    cases e with
    | malformed => exact ⟨.unknown, rfl⟩
    | outOfRange e => exact absurd rfl (hx e)

end InRange

theorem scalarOf_inRange {j : Json} (h : j.Fits) : InRange (scalarOf j) := by
  obtain ⟨v, hv⟩ := Scalar.ofJson_ok h
  unfold scalarOf
  rw [hv]
  cases v with
  | some v => exact .ok v
  | none => exact .malformed

theorem unwrap?_eq_some {items : List Json} {j : Json} :
    unwrap? items = some j ↔ items = [.str "literal", j] := by
  constructor
  · intro h
    unfold unwrap? at h
    split at h
    · cases h
      rfl
    · cases h
  · rintro rfl
    rfl

theorem operand_inRange {j : Json} (h : j.Fits) : InRange (operand j) := by
  unfold operand
  split
  · rename_i items
    cases hu : unwrap? items with
    | none => exact .malformed
    | some wrapped =>
      rw [unwrap?_eq_some] at hu
      subst hu
      exact scalarOf_inRange (by simpa [Json.fits_arr] using h)
  · exact scalarOf_inRange h

theorem operands_inRange {js : List Json} (h : Json.ItemsFit js) : InRange (operands js) := by
  induction js with
  | nil => exact .ok []
  | cons j js ih =>
    rw [Json.itemsFit_cons] at h
    exact .bind (operand_inRange h.1) fun v => .bind (ih h.2) fun vs => .ok _

theorem listed_inRange {js : List Json} (h : Json.ItemsFit js) : InRange (listed js) := by
  unfold listed
  split
  · rename_i items
    have hitems : Json.ItemsFit items := by simpa [Json.fits_arr] using h
    split
    · rename_i wrapped hu
      rw [unwrap?_eq_some] at hu
      subst hu
      exact operands_inRange (by simpa [Json.fits_arr] using hitems)
    · exact operands_inRange hitems
  · exact operands_inRange h

theorem label_inRange {j : Json} (h : j.Fits) : InRange (label j) := by
  unfold label
  split
  · exact .malformed
  · exact operands_inRange (Json.fits_arr.mp h)
  · exact (scalarOf_inRange h).map _

theorem key_inRange {j : Json} {read : Except ExpressionFault Expression} (h : InRange read) :
    InRange (key j read) := by
  unfold key
  split
  · exact .ok _
  · exact h
  · exact .malformed

mutual

theorem expression_inRange (j : Json) (h : j.Fits) : InRange (expression j) := by
  cases Expression.form j with
  | get args =>
    rw [expression_get]
    split
    · exact .ok _
    · exact .malformed
  | literal args =>
    rw [expression_literal]
    split
    · exact (operand_inRange (by simpa [Json.fits_arr] using h)).map _
    · exact .malformed
  | zoom args => exact .ok _
  | geometryType args => exact .ok _
  | id args => exact .ok _
  | switch args =>
    rw [expression_switch]
    split
    · rename_i input rest
      have hrest : input.Fits ∧ Json.ItemsFit rest := by simpa [Json.fits_arr] using h
      split
      · exact .bind (expression_inRange input hrest.1) fun _ =>
          .bind (switchCases_inRange rest hrest.2) fun _ => .ok _
      · exact .malformed
    · exact .malformed
  | choose args =>
    rw [expression_choose]
    split
    · exact .bind (chooseBranches_inRange args (by simpa [Json.fits_arr] using h)) fun _ => .ok _
    · exact .malformed
  | coalesce args =>
    rw [expression_coalesce]
    exact .bind (expressions_inRange args (by simpa [Json.fits_arr] using h)) fun _ => .ok _
  | unnamed args hop =>
    rw [expression_unnamed args hop]
    exact .malformed
  | headless hitems =>
    rw [expression_headless hitems]
    exact .malformed
  | atom hatom =>
    rw [expression_atom hatom]
    exact (scalarOf_inRange h).map _
termination_by sizeOf j

theorem switchCases_inRange (js : List Json) (h : Json.ItemsFit js) : InRange (switchCases js) := by
  match js with
  | [] =>
    rw [switchCases]
    exact .malformed
  | [fallback] =>
    rw [switchCases]
    exact .bind (expression_inRange fallback (by simpa using h)) fun _ => .ok _
  | labels :: output :: rest =>
    simp only [Json.itemsFit_cons] at h
    rw [switchCases]
    exact .bind (label_inRange h.1) fun _ => .bind (expression_inRange output h.2.1) fun _ =>
      .bind (switchCases_inRange rest h.2.2) fun _ => .ok _
termination_by sizeOf js

theorem chooseBranches_inRange (js : List Json) (h : Json.ItemsFit js) :
    InRange (chooseBranches js) := by
  match js with
  | [] =>
    rw [chooseBranches]
    exact .malformed
  | [fallback] =>
    rw [chooseBranches]
    exact .bind (expression_inRange fallback (by simpa using h)) fun _ => .ok _
  | condition :: output :: rest =>
    simp only [Json.itemsFit_cons] at h
    rw [chooseBranches]
    exact .bind (.ofRange (filter_ok condition h.1)) fun _ =>
      .bind (expression_inRange output h.2.1) fun _ =>
        .bind (chooseBranches_inRange rest h.2.2) fun _ => .ok _
termination_by sizeOf js

theorem expressions_inRange (js : List Json) (h : Json.ItemsFit js) : InRange (expressions js) := by
  match js with
  | [] =>
    rw [expressions]
    exact .ok _
  | j :: rest =>
    rw [Json.itemsFit_cons] at h
    rw [expressions]
    exact .bind (expression_inRange j h.1) fun _ => .bind (expressions_inRange rest h.2) fun _ =>
      .ok _
termination_by sizeOf js

theorem filter_ok (j : Json) (h : j.Fits) : ∃ f, filter j = .ok f := by
  cases Filter.form j with
  | truth b => exact ⟨_, filter_truth b⟩
  | compare negated args =>
    rw [filter_compare]
    split
    · rename_i k v
      have hargs : k.Fits ∧ v.Fits := by simpa [Json.fits_arr] using h
      exact InRange.confine (.bind (key_inRange (expression_inRange k hargs.1)) fun _ =>
        .bind (operand_inRange hargs.2) fun _ => .ok _)
    · exact ⟨.unknown, rfl⟩
  | member negated args =>
    rw [filter_member]
    split
    · rename_i k v vs
      have hargs : k.Fits ∧ Json.ItemsFit (v :: vs) := by simpa [Json.fits_arr] using h
      exact InRange.confine (.bind (key_inRange (expression_inRange k hargs.1)) fun _ =>
        .bind (listed_inRange hargs.2) fun _ => .ok _)
    · exact ⟨.unknown, rfl⟩
  | present negated args =>
    rw [filter_present]
    split
    · exact ⟨_, rfl⟩
    · exact ⟨.unknown, rfl⟩
  | combine how args =>
    obtain ⟨fs, hfs⟩ := filters_ok args (by simpa [Json.fits_arr] using h)
    exact ⟨.combine how fs, by rw [filter_combine, hfs]; rfl⟩
  | unnamed args hop => exact ⟨.unknown, filter_unnamed args hop⟩
  | headless hitems => exact ⟨.unknown, filter_headless hitems⟩
  | atom hatom hb => exact ⟨.unknown, filter_atom hatom hb⟩
termination_by sizeOf j

theorem filters_ok (js : List Json) (h : Json.ItemsFit js) : ∃ fs, filters js = .ok fs := by
  match js with
  | [] => exact ⟨[], by rw [filters]⟩
  | j :: rest =>
    rw [Json.itemsFit_cons] at h
    obtain ⟨f, hf⟩ := filter_ok j h.1
    obtain ⟨fs, hfs⟩ := filters_ok rest h.2
    exact ⟨f :: fs, by rw [filters, hf, hfs]; rfl⟩
termination_by sizeOf js

end

end Filter.Reader

/-! ## Expressions and the filters of layers -/

theorem Expression.ofJson_eq_some {j : Json} {e : Expression} :
    Expression.ofJson j = .ok (some e) ↔ Filter.Reader.expression j = .ok e := by
  unfold Expression.ofJson
  cases Filter.Reader.expression j with
  | ok e => simp
  | error fault => cases fault <;> simp

theorem Filter.ofJson_eq_some {j : Json} {a : Filter} :
    Filter.ofJson j = .ok (some a) ↔ j ≠ .arr [] ∧ Filter.Reader.filter j = .ok a := by
  unfold Filter.ofJson
  split
  · simp
  · rename_i hne
    simpa [map_eq_ok] using fun _ => hne

end StyledTiles
