import StyledTiles.Proofs.Filter.Grammar
import StyledTiles.Proofs.Filter.Rewritten
import StyledTiles.Proofs.Pairing

/-!
# Wrapped constants

A constant may be wrapped as a literal wherever it is an operand: as the value of a comparison, among the
values of a membership filter, among the alternatives of a label, and as an expression. The filter that is
read is the same.

Two places are left out, since an array has a meaning of its own there: the only value of a membership
filter, when it is not in an array, and a label that stands alone. A wrapped constant is read there as two
values, of which the first is the word "literal".
-/
namespace StyledTiles

open Grammar

namespace Json

/-- The operand is left as it is, or is a scalar that is wrapped. -/
inductive OperandWrapped : Json → Json → Prop
  | same (j : Json) : OperandWrapped j j
  | wrapped {j : Json} (h : IsScalar j) : OperandWrapped j (.arr [.str "literal", j])

/-- Some of the listed values are wrapped: of two or more, of an array, or of an array that is itself
wrapped. -/
inductive ListedWrapped : List Json → List Json → Prop
  | same (js : List Json) : ListedWrapped js js
  | inline {js ks : List Json} (hmany : 2 ≤ js.length) (h : List.Forall₂ OperandWrapped js ks) :
      ListedWrapped js ks
  | array {js ks : List Json} (hjs : ∀ j ∈ js, IsOperand j) (h : List.Forall₂ OperandWrapped js ks) :
      ListedWrapped [.arr js] [.arr ks]
  | literal {js ks : List Json} (h : List.Forall₂ OperandWrapped js ks) :
      ListedWrapped [.arr [.str "literal", .arr js]] [.arr [.str "literal", .arr ks]]

/-- Some of the alternatives of a label are wrapped. -/
inductive LabelWrapped : Json → Json → Prop
  | same (j : Json) : LabelWrapped j j
  | alternatives {js ks : List Json} (h : List.Forall₂ OperandWrapped js ks) :
      LabelWrapped (.arr js) (.arr ks)

/-- Wrapping constants as literals. Keys are not constants. -/
def wrapping : Rewriting where
  operand := OperandWrapped
  listed := ListedWrapped
  label := LabelWrapped
  key := Eq
  expression := OperandWrapped

theorem isOperand_wrapped {j k : Json} (h : OperandWrapped j k) (hj : IsOperand j) : IsOperand k := by
  cases h with
  | same => exact hj
  | wrapped h => exact .literal h

end Json

namespace Filter.Reader

open Json (OperandWrapped ListedWrapped LabelWrapped wrapping)

theorem operand_scalar {j : Json} (h : IsScalar j) : operand j = scalarOf j := by
  cases h <;> rfl

theorem operand_wrapped {j k : Json} (h : OperandWrapped j k) : operand k = operand j := by
  cases h with
  | same => rfl
  | wrapped h => exact (operand_scalar h).symm

theorem operands_wrapped {js ks : List Json} (h : List.Forall₂ OperandWrapped js ks) :
    operands ks = operands js := by
  induction h with
  | nil => rfl
  | cons head _ ih => rw [operands, operands, operand_wrapped head, ih]

theorem listed_inline {js : List Json} (h : 2 ≤ js.length) : listed js = operands js := by
  rw [listed]
  rintro items rfl
  simp at h

/-- An array of operands is the list of them. Where it looks like a wrapped array, the array inside is
itself a wrapped constant, and it does not matter which of the two it is taken for. -/
theorem listed_array {js : List Json} (h : ∀ j ∈ js, IsOperand j) :
    listed [.arr js] = operands js := by
  rw [listed]
  split
  next items hitems =>
    obtain rfl := unwrap?_eq_some.mp hitems
    obtain ⟨j, rfl, hj⟩ := isOperand_arr.mp (h (.arr items) (by simp))
    exact (operands_wrapped (.cons (.same _) (.cons (.wrapped hj) .nil))).symm
  · rfl

theorem listed_wrapped {js ks : List Json} (h : ListedWrapped js ks) : listed ks = listed js := by
  cases h with
  | same => rfl
  | inline hmany h =>
    rw [listed_inline hmany, listed_inline (h.length_eq ▸ hmany), operands_wrapped h]
  | array hjs h =>
    have hks : ∀ k ∈ _, IsOperand k := fun k hk => by
      obtain ⟨j, hj, hjk⟩ := exists_partner_right h k hk
      exact Json.isOperand_wrapped hjk (hjs j hj)
    rw [listed_array hjs, listed_array hks, operands_wrapped h]
  | literal h => exact operands_wrapped h

theorem label_wrapped {j k : Json} (h : LabelWrapped j k) : label k = label j := by
  cases h with
  | same => rfl
  | alternatives h =>
    cases h with
    | nil => rfl
    | cons head tail => exact operands_wrapped (.cons head tail)

/-- What is read of a wrapped constant that is the only value of a membership filter, and of one that is
a label. -/
theorem listed_and_label_of_wrapped {j : Json} (h : IsScalar j) :
    listed [.arr [.str "literal", j]] = operands [.str "literal", j] ∧
      label (.arr [.str "literal", j]) = operands [.str "literal", j] := by
  refine ⟨?_, rfl⟩
  cases h <;> rfl

theorem expression_wrapped {j k : Json} (h : OperandWrapped j k) : expression k = expression j := by
  cases h with
  | same => rfl
  | wrapped h =>
    have hatom (items : List Json) : j ≠ .arr items := by
      rintro rfl
      exact not_isScalar_arr h
    rw [expression_literal, expression_atom hatom]
    simp only [operand_scalar h]

theorem preserves_wrapping : Preserves wrapping where
  operand := operand_wrapped
  listed := listed_wrapped
  label := label_wrapped
  key := by
    rintro j _ rfl
    rfl
  expression := expression_wrapped

end Filter.Reader

/-- Constants may be wrapped as literals at any depth of a filter, and the same filter is read. -/
theorem wrapping_constants_changes_nothing {j k : Json} (h : Json.FilterRewritten Json.wrapping j k) :
    Filter.ofJson k = Filter.ofJson j :=
  Filter.ofJson_rewritten Filter.Reader.preserves_wrapping h

/-! ## Roads by class -/

/-- Nothing is wrapped in this filter. -/
def plainRoads : Json := .arr [.str "all",
  .arr [.str "in", .str "class", .arr [.str "primary"]],
  .arr [.str "!in", .str "class", .str "rail", .str "pier"],
  .arr [.str "==",
    .arr [.str "match", .arr [.str "get", .str "kind"], .arr [.str "ford"], .str "wet",
      .arr [.str "case", .arr [.str "!=", .str "tunnel", .bool true], .str "dry", .str "damp"]],
    .str "dry"]]

/-- All constants are wrapped in this one. -/
def wrappedRoads : Json := .arr [.str "all",
  .arr [.str "in", .str "class", .arr [.arr [.str "literal", .str "primary"]]],
  .arr [.str "!in", .str "class", .arr [.str "literal", .str "rail"], .arr [.str "literal", .str "pier"]],
  .arr [.str "==",
    .arr [.str "match", .arr [.str "get", .str "kind"], .arr [.arr [.str "literal", .str "ford"]],
      .arr [.str "literal", .str "wet"],
      .arr [.str "case", .arr [.str "!=", .str "tunnel", .arr [.str "literal", .bool true]],
        .arr [.str "literal", .str "dry"], .arr [.str "literal", .str "damp"]]],
    .arr [.str "literal", .str "dry"]]]

/-- What both of them are read as. -/
def roads : Filter := .combine .all [
  .member false (.get "class") [.string "primary"],
  .member true (.get "class") [.string "rail", .string "pier"],
  .compare false
    (.switch (.get "kind") [([.string "ford"], .literal (.string "wet"))]
      (.choose [(.compare true (.get "tunnel") (.boolean true), .literal (.string "dry"))]
        (.literal (.string "damp"))))
    (.string "dry")]

theorem roads_understood : roads.Understood := by
  have hlevel : Filter.Understood (.compare true (.get "tunnel") (.boolean true)) :=
    .compare true (.boolean true) (.get "tunnel")
  have hconstant (s : String) : (Expression.literal (.string s)).Over Filter.Understood := .literal _
  rw [roads, Filter.understood_combine]
  simp [Filter.understood_member, Filter.understood_compare, Expression.over_switch,
    Expression.over_choose, hlevel, hconstant, Expression.Over.get]

theorem wrapped_roads_read_as_plain : Json.FilterRewritten Json.wrapping plainRoads wrappedRoads ∧
    Filter.ofJson plainRoads = .ok (some roads) ∧ roads.Understood ∧
    Filter.ofJson wrappedRoads = .ok (some roads) := by
  have constant (s : String) : Json.OperandWrapped (.str s) (.arr [.str "literal", .str s]) :=
    .wrapped (.str s)
  have output (s : String) :
      Json.ExpressionRewritten Json.wrapping (.str s) (.arr [.str "literal", .str s]) :=
    .replaced (constant s)
  have hlevel : Json.BranchesRewritten Json.wrapping
      [.arr [.str "!=", .str "tunnel", .bool true], .str "dry", .str "damp"]
      [.arr [.str "!=", .str "tunnel", .arr [.str "literal", .bool true]],
        .arr [.str "literal", .str "dry"], .arr [.str "literal", .str "damp"]] :=
    .pair (.compare true (.same _) (.cons (.wrapped (.bool true)) .nil)) (output "dry")
      (.fallback (output "damp"))
  have hford : Json.LabelWrapped (.arr [.str "ford"]) (.arr [.arr [.str "literal", .str "ford"]]) :=
    .alternatives (.cons (constant "ford") .nil)
  have hprimary : Json.ListedWrapped [.arr [.str "primary"]]
      [.arr [.arr [.str "literal", .str "primary"]]] :=
    .array (by simpa using .scalar (.str "primary")) (.cons (constant "primary") .nil)
  have hothers : Json.ListedWrapped [.str "rail", .str "pier"]
      [.arr [.str "literal", .str "rail"], .arr [.str "literal", .str "pier"]] :=
    .inline (by decide) (.cons (constant "rail") (.cons (constant "pier") .nil))
  have hwrapped : Json.FilterRewritten Json.wrapping plainRoads wrappedRoads :=
    .combine .all (.cons (.member false (.same _) hprimary (by simp))
      (.cons (.member true (.same _) hothers (by simp)) (.cons (.compare false (.expression
        (.switch (.same _) (.pair hford (output "wet") (.fallback (.choose hlevel)))))
        (.cons (constant "dry") .nil)) .nil)))
  have hplain : Filter.ofJson plainRoads = .ok (some roads) := rfl
  exact ⟨hwrapped, hplain, roads_understood, (wrapping_constants_changes_nothing hwrapped).trans hplain⟩

/-- Roads whose class is the value. -/
def roadsOf (value : Json) : Json := .arr [.str "in", .str "class", value]

/-- Roads whose kind has the label. -/
def roadsBy (label : Json) : Json := .arr [.str "==",
  .arr [.str "match", .arr [.str "get", .str "kind"], label, .bool true, .bool false], .bool true]

/-- The only value of a membership filter cannot be wrapped, nor can a label that stands alone. -/
theorem wrapping_alone_changes_the_filter :
    (∃ a, Filter.ofJson (roadsOf (.str "primary")) = .ok (some a) ∧ a.Understood ∧
      Filter.ofJson (roadsOf (.arr [.str "literal", .str "primary"])) ≠ .ok (some a)) ∧
    ∃ a, Filter.ofJson (roadsBy (.str "ford")) = .ok (some a) ∧ a.Understood ∧
      Filter.ofJson (roadsBy (.arr [.str "literal", .str "ford"])) ≠ .ok (some a) := by
  have hvalue : Filter.ofJson (roadsOf (.arr [.str "literal", .str "primary"])) =
      .ok (some (.member false (.get "class") [.string "literal", .string "primary"])) := rfl
  have hlabel : Filter.ofJson (roadsBy (.arr [.str "literal", .str "ford"])) =
      .ok (some (.compare false (.switch (.get "kind") [([.string "literal", .string "ford"],
        .literal (.boolean true))] (.literal (.boolean false))) (.boolean true))) := rfl
  rw [hvalue, hlabel]
  refine ⟨⟨.member false (.get "class") [.string "primary"], rfl, ?_, by simp⟩,
    .compare false (.switch (.get "kind") [([.string "ford"], .literal (.boolean true))]
      (.literal (.boolean false))) (.boolean true), rfl, ?_, by simp⟩
  · exact .member false _ (.get "class")
  · simp [Filter.understood_compare, Expression.over_switch, Expression.Over.get,
      Expression.Over.literal]

end StyledTiles
