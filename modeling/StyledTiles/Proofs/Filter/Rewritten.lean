import Mathlib.Data.List.Forall2
import StyledTiles.Proofs.Filter.Reading

/-!
# Rewritten filters

A rewriting says what may be put for what in the places of a filter: for an operand, for the listed values
of a membership filter, for a label, for a key and for an expression. A filter is rewritten when that is
done in any number of places, at any depth, in the conditions of expressions as well. If what is put in a
place reads there as what was there, the filter reads as it did, and fails to where it did. A filter that
is malformed may be rewritten as well.

Nothing but these places is touched. A rewriting that changes a place only together with another one is
not described.
-/
namespace StyledTiles

/-- What may be put for what, in each kind of place. -/
structure Json.Rewriting where
  operand : Json → Json → Prop
  listed : List Json → List Json → Prop
  label : Json → Json → Prop
  key : Json → Json → Prop
  expression : Json → Json → Prop

namespace Json

mutual

/-- The second expression is the first one, rewritten. -/
inductive ExpressionRewritten (R : Rewriting) : Json → Json → Prop
  | same (j : Json) : ExpressionRewritten R j j
  | replaced {j k : Json} (h : R.expression j k) : ExpressionRewritten R j k
  | literal {j k : Json} (h : R.operand j k) :
      ExpressionRewritten R (.arr [.str "literal", j]) (.arr [.str "literal", k])
  | switch {input input' : Json} {js ks : List Json} (hinput : ExpressionRewritten R input input')
      (hrest : CasesRewritten R js ks) :
      ExpressionRewritten R (.arr (.str "match" :: input :: js)) (.arr (.str "match" :: input' :: ks))
  | choose {js ks : List Json} (h : BranchesRewritten R js ks) :
      ExpressionRewritten R (.arr (.str "case" :: js)) (.arr (.str "case" :: ks))
  | coalesce {js ks : List Json} (h : ExpressionsRewritten R js ks) :
      ExpressionRewritten R (.arr (.str "coalesce" :: js)) (.arr (.str "coalesce" :: ks))

/-- Labels and outputs in turn, then the fallback if there is one. -/
inductive CasesRewritten (R : Rewriting) : List Json → List Json → Prop
  | nil : CasesRewritten R [] []
  | fallback {j k : Json} (h : ExpressionRewritten R j k) : CasesRewritten R [j] [k]
  | pair {label label' output output' : Json} {js ks : List Json} (hlabel : R.label label label')
      (houtput : ExpressionRewritten R output output') (hrest : CasesRewritten R js ks) :
      CasesRewritten R (label :: output :: js) (label' :: output' :: ks)

/-- Conditions and outputs in turn, then the fallback if there is one. -/
inductive BranchesRewritten (R : Rewriting) : List Json → List Json → Prop
  | nil : BranchesRewritten R [] []
  | fallback {j k : Json} (h : ExpressionRewritten R j k) : BranchesRewritten R [j] [k]
  | pair {condition condition' output output' : Json} {js ks : List Json}
      (hcondition : FilterRewritten R condition condition')
      (houtput : ExpressionRewritten R output output') (hrest : BranchesRewritten R js ks) :
      BranchesRewritten R (condition :: output :: js) (condition' :: output' :: ks)

inductive ExpressionsRewritten (R : Rewriting) : List Json → List Json → Prop
  | nil : ExpressionsRewritten R [] []
  | cons {j k : Json} {js ks : List Json} (head : ExpressionRewritten R j k)
      (tail : ExpressionsRewritten R js ks) : ExpressionsRewritten R (j :: js) (k :: ks)

/-- The second key is the first one, rewritten. -/
inductive KeyRewritten (R : Rewriting) : Json → Json → Prop
  | same (j : Json) : KeyRewritten R j j
  | replaced {j k : Json} (h : R.key j k) : KeyRewritten R j k
  | expression {js ks : List Json} (h : ExpressionRewritten R (.arr js) (.arr ks)) :
      KeyRewritten R (.arr js) (.arr ks)

/-- The second filter is the first one, rewritten. -/
inductive FilterRewritten (R : Rewriting) : Json → Json → Prop
  | same (j : Json) : FilterRewritten R j j
  | compare (negated : Bool) {k k' : Json} {vs vs' : List Json} (hkey : KeyRewritten R k k')
      (hvalues : List.Forall₂ R.operand vs vs') :
      FilterRewritten R (.arr (.str (FilterOperator.compare negated).name :: k :: vs))
        (.arr (.str (FilterOperator.compare negated).name :: k' :: vs'))
  | member (negated : Bool) {k k' : Json} {vs vs' : List Json} (hkey : KeyRewritten R k k')
      (hlisted : R.listed vs vs') (hnone : vs' = [] ↔ vs = []) :
      FilterRewritten R (.arr (.str (FilterOperator.member negated).name :: k :: vs))
        (.arr (.str (FilterOperator.member negated).name :: k' :: vs'))
  | combine (how : Connective) {js ks : List Json} (h : FiltersRewritten R js ks) :
      FilterRewritten R (.arr (.str how.name :: js)) (.arr (.str how.name :: ks))

inductive FiltersRewritten (R : Rewriting) : List Json → List Json → Prop
  | nil : FiltersRewritten R [] []
  | cons {j k : Json} {js ks : List Json} (head : FilterRewritten R j k)
      (tail : FiltersRewritten R js ks) : FiltersRewritten R (j :: js) (k :: ks)

end

variable {R : Rewriting}

theorem CasesRewritten.length_eq {js ks : List Json} (h : CasesRewritten R js ks) :
    ks.length = js.length := by
  cases h with
  | nil | fallback => rfl
  | pair _ _ hrest => simp only [List.length_cons, hrest.length_eq]

theorem BranchesRewritten.length_eq {js ks : List Json} (h : BranchesRewritten R js ks) :
    ks.length = js.length := by
  cases h with
  | nil | fallback => rfl
  | pair _ _ hrest => simp only [List.length_cons, hrest.length_eq]

end Json

namespace Filter.Reader

/-- In each place, what is put there reads as what was there. -/
structure Preserves (R : Json.Rewriting) : Prop where
  operand : ∀ {j k}, R.operand j k → operand k = operand j
  listed : ∀ {js ks}, R.listed js ks → listed ks = listed js
  label : ∀ {j k}, R.label j k → label k = label j
  key : ∀ {j k}, R.key j k → key k (expression k) = key j (expression j)
  expression : ∀ {j k}, R.expression j k → expression k = expression j

variable {R : Json.Rewriting}

mutual

theorem expression_rewritten (hR : Preserves R) {j k : Json} (h : Json.ExpressionRewritten R j k) :
    expression k = expression j := by
  cases h with
  | same => rfl
  | replaced h => exact hR.expression h
  | literal h => simp only [expression_literal, hR.operand h]
  | switch hinput hrest =>
    simp only [expression_switch, expression_rewritten hR hinput, switchCases_rewritten hR hrest,
      hrest.length_eq]
  | choose h => simp only [expression_choose, chooseBranches_rewritten hR h, h.length_eq]
  | coalesce h => rw [expression_coalesce, expression_coalesce, expressions_rewritten hR h]

theorem switchCases_rewritten (hR : Preserves R) {js ks : List Json}
    (h : Json.CasesRewritten R js ks) : switchCases ks = switchCases js := by
  cases h with
  | nil => rfl
  | fallback h => rw [switchCases, switchCases, expression_rewritten hR h]
  | pair hlabel houtput hrest =>
    rw [switchCases, switchCases, hR.label hlabel, expression_rewritten hR houtput,
      switchCases_rewritten hR hrest]

theorem chooseBranches_rewritten (hR : Preserves R) {js ks : List Json}
    (h : Json.BranchesRewritten R js ks) : chooseBranches ks = chooseBranches js := by
  cases h with
  | nil => rfl
  | fallback h => rw [chooseBranches, chooseBranches, expression_rewritten hR h]
  | pair hcondition houtput hrest =>
    rw [chooseBranches, chooseBranches, filter_rewritten hR hcondition,
      expression_rewritten hR houtput, chooseBranches_rewritten hR hrest]

theorem expressions_rewritten (hR : Preserves R) {js ks : List Json}
    (h : Json.ExpressionsRewritten R js ks) : expressions ks = expressions js := by
  cases h with
  | nil => rfl
  | cons head tail =>
    rw [expressions, expressions, expression_rewritten hR head, expressions_rewritten hR tail]

theorem key_rewritten (hR : Preserves R) {j k : Json} (h : Json.KeyRewritten R j k) :
    key k (expression k) = key j (expression j) := by
  cases h with
  | same => rfl
  | replaced h => exact hR.key h
  | expression h => exact expression_rewritten hR h

/-- A filter that is rewritten so that each place reads as before reads as before. -/
theorem filter_rewritten (hR : Preserves R) {j k : Json} (h : Json.FilterRewritten R j k) :
    filter k = filter j := by
  cases h with
  | same => rfl
  | compare negated hkey hvalues =>
    rw [filter_compare, filter_compare]
    -- There is one value, or the filter is of no form that is known.
    cases hvalues with
    | nil => rfl
    | cons hvalue hmore =>
      cases hmore with
      | nil => simp only [key_rewritten hR hkey, hR.operand hvalue]
      | cons => rfl
  | @member negated k k' vs vs' hkey hlisted hnone =>
    rw [filter_member, filter_member]
    cases vs with
    | nil =>
      obtain rfl := hnone.mpr rfl
      rfl
    | cons v vs =>
      obtain ⟨v', vs', rfl⟩ := List.exists_cons_of_ne_nil (hnone.not.mpr (List.cons_ne_nil v vs))
      simp only [key_rewritten hR hkey, hR.listed hlisted]
  | combine how h => rw [filter_combine, filter_combine, filters_rewritten hR h]

theorem filters_rewritten (hR : Preserves R) {js ks : List Json}
    (h : Json.FiltersRewritten R js ks) : filters ks = filters js := by
  cases h with
  | nil => rfl
  | cons head tail => rw [filters, filters, filter_rewritten hR head, filters_rewritten hR tail]

end

end Filter.Reader

/-- So does a filter of a layer: what stands for no filter is not rewritten into one, nor the other way. -/
theorem Filter.ofJson_rewritten {R : Json.Rewriting} (hR : Reader.Preserves R) {j k : Json}
    (h : Json.FilterRewritten R j k) : Filter.ofJson k = Filter.ofJson j := by
  have hread := Reader.filter_rewritten hR h
  cases h with
  | same => rfl
  | compare | member | combine =>
    exact congrArg (Except.map some) hread

end StyledTiles
