import StyledTiles.Proofs.Filter.Induction
import StyledTiles.Proofs.Filter.Reading

/-!
# Writing filters

A tree can be written down so that it is read back as it was, if every case of a switch in it has a label;
and no other tree is ever read. Each form of a tree is written with the operator of that form, an unknown
filter as null. Expressions are written as arrays, so that each of them can be a key.

A filter has more than one written form. Here it is only said that there is one.
-/
namespace StyledTiles

open Outcome

mutual

/-- Every case of a switch in the expression has a label, in the conditions of a choice as well. -/
inductive Expression.Labelled : Expression → Prop
  | get (name : String) : Expression.Labelled (.get name)
  | literal (v : Scalar) : Expression.Labelled (.literal v)
  | zoom : Expression.Labelled .zoom
  | geometryType : Expression.Labelled .geometryType
  | id : Expression.Labelled .id
  | switch {input : Expression} {cases : List (List Scalar × Expression)} {fallback : Expression}
      (hinput : Expression.Labelled input) (hlabels : ∀ c ∈ cases, c.1 ≠ [])
      (houtputs : ∀ c ∈ cases, Expression.Labelled c.2) (hfallback : Expression.Labelled fallback) :
      Expression.Labelled (.switch input cases fallback)
  | choose {branches : List (Filter × Expression)} {fallback : Expression}
      (hconditions : ∀ b ∈ branches, Filter.Labelled b.1)
      (houtputs : ∀ b ∈ branches, Expression.Labelled b.2)
      (hfallback : Expression.Labelled fallback) : Expression.Labelled (.choose branches fallback)
  | coalesce {candidates : List Expression} (h : ∀ e ∈ candidates, Expression.Labelled e) :
      Expression.Labelled (.coalesce candidates)

/-- Every case of a switch in the filter has a label. -/
inductive Filter.Labelled : Filter → Prop
  | compare (negated : Bool) {key : Expression} (value : Scalar) (hkey : Expression.Labelled key) :
      Filter.Labelled (.compare negated key value)
  | member (negated : Bool) {key : Expression} (values : List Scalar)
      (hkey : Expression.Labelled key) : Filter.Labelled (.member negated key values)
  | present (negated : Bool) (key : String) : Filter.Labelled (.present negated key)
  | combine (how : Connective) {filters : List Filter} (h : ∀ a ∈ filters, Filter.Labelled a) :
      Filter.Labelled (.combine how filters)
  | unknown : Filter.Labelled .unknown

end

/-! ## What is read has labels -/

namespace Filter.Reader

theorem ofRange_ensures {α : Type} {x : Except OutOfRange α} {P : α → Prop} :
    Ensures (ExpressionFault.ofRange x) P ↔ Ensures x P := by
  cases x <;> simp [ExpressionFault.ofRange]

/-- A filter that was not understood has the property as well. -/
theorem confine_ensures {x : Except ExpressionFault Filter} {P : Filter → Prop} (h : Ensures x P)
    (unknown : P .unknown) : Ensures (ExpressionFault.confine x) P := by
  cases x with
  | ok a => simpa [ExpressionFault.confine] using h
  | error e => cases e <;> simp [ExpressionFault.confine, unknown]

/-- A label lists at least one alternative. -/
theorem label_ne_nil (j : Json) : Ensures (label j) (· ≠ []) := by
  unfold label
  split
  · exact ensures_error
  · rename_i items hsome
    cases items with
    | nil => exact absurd rfl hsome
    | cons j js =>
      simp only [operands, ensures_bind, ensures_pure]
      intro v _ vs _
      exact List.cons_ne_nil v vs
  · exact ensures_map.mpr fun v _ => List.cons_ne_nil v []

theorem key_labelled {j : Json} {read : Except ExpressionFault Expression}
    (h : Ensures read Expression.Labelled) : Ensures (key j read) Expression.Labelled := by
  unfold key
  split
  · exact ensures_ok.mpr (.get _)
  · exact h
  · exact ensures_error

mutual

theorem expression_labelled (j : Json) : Ensures (expression j) Expression.Labelled := by
  cases Expression.form j with
  | get args =>
    rw [expression_get]
    split
    · exact ensures_ok.mpr (.get _)
    · exact ensures_error
  | literal args =>
    rw [expression_literal]
    split
    · exact ensures_map.mpr fun v _ => .literal v
    · exact ensures_error
  | zoom args => exact ensures_ok.mpr .zoom
  | geometryType args => exact ensures_ok.mpr .geometryType
  | id args => exact ensures_ok.mpr .id
  | switch args =>
    rw [expression_switch]
    split
    · rename_i input rest
      split
      · simp only [ensures_bind, ensures_pure]
        exact (expression_labelled input).imp fun input hinput =>
          (switchCases_labelled rest).imp fun r hr =>
            .switch hinput (fun c hc => (hr.1 c hc).1) (fun c hc => (hr.1 c hc).2) hr.2
      · exact ensures_error
    · exact ensures_error
  | choose args =>
    rw [expression_choose]
    split
    · simp only [ensures_bind, ensures_pure]
      exact (chooseBranches_labelled args).imp fun r hr =>
        .choose (fun b hb => (hr.1 b hb).1) (fun b hb => (hr.1 b hb).2) hr.2
    · exact ensures_error
  | coalesce args =>
    rw [expression_coalesce]
    simp only [ensures_bind, ensures_pure]
    exact (expressions_labelled args).imp fun es hes => .coalesce hes
  | unnamed args hop =>
    rw [expression_unnamed args hop]
    exact ensures_error
  | headless hitems =>
    rw [expression_headless hitems]
    exact ensures_error
  | atom hatom =>
    rw [expression_atom hatom]
    exact ensures_map.mpr fun v _ => .literal v
termination_by sizeOf j

theorem switchCases_labelled (js : List Json) : Ensures (switchCases js) fun r =>
    (∀ c ∈ r.1, c.1 ≠ [] ∧ c.2.Labelled) ∧ r.2.Labelled := by
  match js with
  | [] =>
    rw [switchCases]
    exact ensures_error
  | [fallback] =>
    simp only [switchCases, ensures_bind, ensures_pure]
    exact (expression_labelled fallback).imp fun fallback hfallback => ⟨by simp, hfallback⟩
  | labels :: output :: rest =>
    simp only [switchCases, ensures_bind, ensures_pure]
    exact (label_ne_nil labels).imp fun labels hlabels =>
      (expression_labelled output).imp fun output houtput =>
        (switchCases_labelled rest).imp fun r hr =>
          ⟨List.forall_mem_cons.mpr ⟨⟨hlabels, houtput⟩, hr.1⟩, hr.2⟩
termination_by sizeOf js

theorem chooseBranches_labelled (js : List Json) : Ensures (chooseBranches js) fun r =>
    (∀ b ∈ r.1, b.1.Labelled ∧ b.2.Labelled) ∧ r.2.Labelled := by
  match js with
  | [] =>
    rw [chooseBranches]
    exact ensures_error
  | [fallback] =>
    simp only [chooseBranches, ensures_bind, ensures_pure]
    exact (expression_labelled fallback).imp fun fallback hfallback => ⟨by simp, hfallback⟩
  | condition :: output :: rest =>
    simp only [chooseBranches, ensures_bind, ensures_pure]
    exact (ofRange_ensures.mpr (filter_labelled condition)).imp fun condition hcondition =>
      (expression_labelled output).imp fun output houtput =>
        (chooseBranches_labelled rest).imp fun r hr =>
          ⟨List.forall_mem_cons.mpr ⟨⟨hcondition, houtput⟩, hr.1⟩, hr.2⟩
termination_by sizeOf js

theorem expressions_labelled (js : List Json) :
    Ensures (expressions js) fun es => ∀ e ∈ es, e.Labelled := by
  match js with
  | [] => simp [expressions]
  | j :: rest =>
    simp only [expressions, ensures_bind, ensures_pure]
    exact (expression_labelled j).imp fun e he => (expressions_labelled rest).imp fun es hes =>
      List.forall_mem_cons.mpr ⟨he, hes⟩
termination_by sizeOf js

theorem filter_labelled (j : Json) : Ensures (filter j) Filter.Labelled := by
  cases Filter.form j with
  | truth b =>
    rw [filter_truth]
    cases b <;> exact ensures_ok.mpr (.combine _ (by simp))
  | compare negated args =>
    rw [filter_compare]
    split
    · rename_i k v
      refine confine_ensures ?_ .unknown
      simp only [ensures_bind, ensures_pure]
      exact (key_labelled (expression_labelled k)).imp fun k hk v _ => .compare negated v hk
    · exact ensures_ok.mpr .unknown
  | member negated args =>
    rw [filter_member]
    split
    · rename_i k v vs
      refine confine_ensures ?_ .unknown
      simp only [ensures_bind, ensures_pure]
      exact (key_labelled (expression_labelled k)).imp fun k hk vs _ => .member negated vs hk
    · exact ensures_ok.mpr .unknown
  | present negated args =>
    rw [filter_present]
    split
    · exact ensures_ok.mpr (.present negated _)
    · exact ensures_ok.mpr .unknown
  | combine how args =>
    rw [filter_combine]
    simp only [ensures_bind, ensures_pure]
    exact (filters_labelled args).imp fun as has => .combine how has
  | unnamed args hop =>
    rw [filter_unnamed args hop]
    exact ensures_ok.mpr .unknown
  | headless hitems =>
    rw [filter_headless hitems]
    exact ensures_ok.mpr .unknown
  | atom hatom hb =>
    rw [filter_atom hatom hb]
    exact ensures_ok.mpr .unknown
termination_by sizeOf j

theorem filters_labelled (js : List Json) :
    Ensures (filters js) fun as => ∀ a ∈ as, a.Labelled := by
  match js with
  | [] => simp [filters]
  | j :: rest =>
    simp only [filters, ensures_bind, ensures_pure]
    exact (filter_labelled j).imp fun a ha => (filters_labelled rest).imp fun as has =>
      List.forall_mem_cons.mpr ⟨ha, has⟩
termination_by sizeOf js

end

end Filter.Reader

/-! ## The written form -/

/-- The constant that reads as the scalar. -/
def Scalar.toJson : Scalar → Json
  | .string s => .str s
  | .number x => .real x
  | .boolean b => .bool b

mutual

/-- An array that reads as the expression. -/
def Expression.toJson : Expression → Json
  | .get name => .arr [.str "get", .str name]
  | .literal v => .arr [.str "literal", v.toJson]
  | .zoom => .arr [.str "zoom"]
  | .geometryType => .arr [.str "geometry-type"]
  | .id => .arr [.str "id"]
  | .switch input cases fallback =>
    .arr (.str "match" :: input.toJson :: Expression.casesToJson fallback.toJson cases)
  | .choose branches fallback =>
    .arr (.str "case" :: Expression.branchesToJson fallback.toJson branches)
  | .coalesce candidates => .arr (.str "coalesce" :: Expression.allToJson candidates)

/-- Labels and outputs in turn, then what is written of the fallback. -/
def Expression.casesToJson (fallback : Json) : List (List Scalar × Expression) → List Json
  | [] => [fallback]
  | (labels, output) :: rest =>
    .arr (labels.map Scalar.toJson) :: output.toJson :: Expression.casesToJson fallback rest

/-- Conditions and outputs in turn, then what is written of the fallback. -/
def Expression.branchesToJson (fallback : Json) : List (Filter × Expression) → List Json
  | [] => [fallback]
  | (condition, output) :: rest =>
    condition.toJson :: output.toJson :: Expression.branchesToJson fallback rest

def Expression.allToJson : List Expression → List Json
  | [] => []
  | e :: es => e.toJson :: Expression.allToJson es

/-- A value that reads as the filter. -/
def Filter.toJson : Filter → Json
  | .compare negated key value =>
    .arr [.str (FilterOperator.compare negated).name, key.toJson, value.toJson]
  | .member negated key values =>
    .arr [.str (FilterOperator.member negated).name, key.toJson,
      .arr [.str "literal", .arr (values.map Scalar.toJson)]]
  | .present negated key => .arr [.str (FilterOperator.present negated).name, .str key]
  | .combine how filters => .arr (.str how.name :: Filter.allToJson filters)
  | .unknown => .null

def Filter.allToJson : List Filter → List Json
  | [] => []
  | a :: as => a.toJson :: Filter.allToJson as

end

/-- No filter is written like a filter that is missing. -/
theorem Filter.toJson_ne_nil (a : Filter) : a.toJson ≠ .arr [] := by
  cases a <;> simp [toJson]

/-! ## What is written fits -/

namespace Scalar

/-- Numbers are written as binary64 numbers, so they fit whatever they are. -/
theorem toJson_fits (v : Scalar) : v.toJson.Fits := by
  cases v with
  | string s => exact Json.fits_str s
  | number x => exact Json.fits_num.mpr ⟨x, rfl⟩
  | boolean b => exact Json.fits_bool b

theorem map_toJson_fits (vs : List Scalar) : Json.ItemsFit (vs.map toJson) := by
  induction vs with
  | nil => exact Json.itemsFit_nil
  | cons v vs ih => exact Json.itemsFit_cons.mpr ⟨v.toJson_fits, ih⟩

end Scalar

namespace Expression

theorem casesToJson_fits {fallback : Json} {cases : List (List Scalar × Expression)}
    (hfallback : fallback.Fits) (h : ∀ c ∈ cases, c.2.toJson.Fits) :
    Json.ItemsFit (casesToJson fallback cases) := by
  induction cases with
  | nil => simpa [casesToJson] using hfallback
  | cons c rest ih =>
    obtain ⟨houtput, hrest⟩ := List.forall_mem_cons.mp h
    simp only [casesToJson, Json.itemsFit_cons]
    exact ⟨Json.fits_arr.mpr (Scalar.map_toJson_fits c.1), houtput, ih hrest⟩

theorem branchesToJson_fits {fallback : Json} {branches : List (Filter × Expression)}
    (hfallback : fallback.Fits) (h : ∀ b ∈ branches, b.1.toJson.Fits ∧ b.2.toJson.Fits) :
    Json.ItemsFit (branchesToJson fallback branches) := by
  induction branches with
  | nil => simpa [branchesToJson] using hfallback
  | cons b rest ih =>
    obtain ⟨⟨hcondition, houtput⟩, hrest⟩ := List.forall_mem_cons.mp h
    simp only [branchesToJson, Json.itemsFit_cons]
    exact ⟨hcondition, houtput, ih hrest⟩

theorem allToJson_fits {es : List Expression} (h : ∀ e ∈ es, e.toJson.Fits) :
    Json.ItemsFit (allToJson es) := by
  induction es with
  | nil => simp [allToJson]
  | cons e es ih =>
    obtain ⟨he, hes⟩ := List.forall_mem_cons.mp h
    simp only [allToJson, Json.itemsFit_cons]
    exact ⟨he, ih hes⟩

end Expression

theorem Filter.allToJson_fits {as : List Filter} (h : ∀ a ∈ as, a.toJson.Fits) :
    Json.ItemsFit (allToJson as) := by
  induction as with
  | nil => simp [allToJson]
  | cons a as ih =>
    obtain ⟨ha, has⟩ := List.forall_mem_cons.mp h
    simp only [allToJson, Json.itemsFit_cons]
    exact ⟨ha, ih has⟩

theorem toJson_fits_by_parts : ByParts (fun e => e.toJson.Fits) (fun a => a.toJson.Fits) where
  get name := by simp [Expression.toJson, Json.fits_arr]
  literal v := by simp [Expression.toJson, Json.fits_arr, v.toJson_fits]
  zoom := by simp [Expression.toJson, Json.fits_arr]
  geometryType := by simp [Expression.toJson, Json.fits_arr]
  id := by simp [Expression.toJson, Json.fits_arr]
  switch hinput hcases hfallback := by
    simp only [Expression.toJson, Json.fits_arr, Json.itemsFit_cons]
    exact ⟨Json.fits_str _, hinput, Expression.casesToJson_fits hfallback hcases⟩
  choose hbranches hfallback := by
    simp only [Expression.toJson, Json.fits_arr, Json.itemsFit_cons]
    exact ⟨Json.fits_str _, Expression.branchesToJson_fits hfallback hbranches⟩
  coalesce hcandidates := by
    simp only [Expression.toJson, Json.fits_arr, Json.itemsFit_cons]
    exact ⟨Json.fits_str _, Expression.allToJson_fits hcandidates⟩
  compare negated _ value hkey := by
    simp [Filter.toJson, Json.fits_arr, hkey, value.toJson_fits]
  member negated _ values hkey := by
    simp [Filter.toJson, Json.fits_arr, hkey, Scalar.map_toJson_fits]
  present negated key := by simp [Filter.toJson, Json.fits_arr]
  combine how _ hfilters := by
    simp only [Filter.toJson, Json.fits_arr, Json.itemsFit_cons]
    exact ⟨Json.fits_str _, Filter.allToJson_fits hfilters⟩
  unknown := by simp [Filter.toJson]

/-! ## What is written reads back -/

namespace Filter.Reader

theorem operand_toJson (v : Scalar) : operand v.toJson = .ok v := by
  cases v <;> rfl

theorem operands_toJson (vs : List Scalar) : operands (vs.map Scalar.toJson) = .ok vs := by
  induction vs with
  | nil => rfl
  | cons v vs ih =>
    rw [List.map_cons, operands, operand_toJson, ih]
    rfl

theorem label_toJson {vs : List Scalar} (h : vs ≠ []) :
    label (.arr (vs.map Scalar.toJson)) = .ok vs := by
  rw [label, operands_toJson]
  simpa using h

theorem length_casesToJson (fallback : Json) (cases : List (List Scalar × Expression)) :
    (Expression.casesToJson fallback cases).length % 2 = 1 := by
  induction cases with
  | nil => rfl
  | cons c rest ih =>
    simp only [Expression.casesToJson, List.length_cons]
    omega

theorem length_branchesToJson (fallback : Json) (branches : List (Filter × Expression)) :
    (Expression.branchesToJson fallback branches).length % 2 = 1 := by
  induction branches with
  | nil => rfl
  | cons b rest ih =>
    simp only [Expression.branchesToJson, List.length_cons]
    omega

theorem switchCases_toJson {fallback : Expression} {cases : List (List Scalar × Expression)}
    (hfallback : expression fallback.toJson = .ok fallback) (hlabels : ∀ c ∈ cases, c.1 ≠ [])
    (houtputs : ∀ c ∈ cases, expression c.2.toJson = .ok c.2) :
    switchCases (Expression.casesToJson fallback.toJson cases) = .ok (cases, fallback) := by
  induction cases with
  | nil =>
    rw [Expression.casesToJson, switchCases, hfallback]
    rfl
  | cons c rest ih =>
    obtain ⟨hlabel, hlabels⟩ := List.forall_mem_cons.mp hlabels
    obtain ⟨houtput, houtputs⟩ := List.forall_mem_cons.mp houtputs
    rw [Expression.casesToJson, switchCases, label_toJson hlabel, houtput, ih hlabels houtputs]
    rfl

theorem chooseBranches_toJson {fallback : Expression} {branches : List (Filter × Expression)}
    (hfallback : expression fallback.toJson = .ok fallback)
    (h : ∀ b ∈ branches, filter b.1.toJson = .ok b.1 ∧ expression b.2.toJson = .ok b.2) :
    chooseBranches (Expression.branchesToJson fallback.toJson branches) =
      .ok (branches, fallback) := by
  induction branches with
  | nil =>
    rw [Expression.branchesToJson, chooseBranches, hfallback]
    rfl
  | cons b rest ih =>
    obtain ⟨⟨hcondition, houtput⟩, hrest⟩ := List.forall_mem_cons.mp h
    rw [Expression.branchesToJson, chooseBranches, hcondition, houtput, ih hrest]
    rfl

theorem expressions_toJson {es : List Expression} (h : ∀ e ∈ es, expression e.toJson = .ok e) :
    expressions (Expression.allToJson es) = .ok es := by
  induction es with
  | nil => rfl
  | cons e es ih =>
    obtain ⟨he, hes⟩ := List.forall_mem_cons.mp h
    rw [Expression.allToJson, expressions, he, ih hes]
    rfl

theorem filters_toJson {as : List Filter} (h : ∀ a ∈ as, filter a.toJson = .ok a) :
    filters (Filter.allToJson as) = .ok as := by
  induction as with
  | nil => rfl
  | cons a as ih =>
    obtain ⟨ha, has⟩ := List.forall_mem_cons.mp h
    rw [Filter.allToJson, filters, ha, ih has]
    rfl

/-- An expression is written as an array, so it is read as a key as well. -/
theorem key_toJson (e : Expression) (read : Except ExpressionFault Expression) :
    key e.toJson read = read := by
  cases e <;> rfl

theorem toJson_reads : ByParts (fun e => e.Labelled → expression e.toJson = .ok e)
    (fun a => a.Labelled → filter a.toJson = .ok a) where
  get name _ := rfl
  literal v _ := by
    rw [Expression.toJson, expression_literal]
    exact congrArg (Except.map Expression.literal) (operand_toJson v)
  zoom _ := rfl
  geometryType _ := rfl
  id _ := rfl
  switch hinput hcases hfallback h := by
    cases h with
    | switch input_labelled labels outputs fallback_labelled =>
      have read_cases := switchCases_toJson (hfallback fallback_labelled) labels
        fun c hc => hcases c hc (outputs c hc)
      rw [Expression.toJson, expression_switch]
      simp only [length_casesToJson, hinput input_labelled, read_cases]
      rfl
  choose hbranches hfallback h := by
    cases h with
    | choose conditions outputs fallback_labelled =>
      have read_branches := chooseBranches_toJson (hfallback fallback_labelled)
        fun b hb => ⟨(hbranches b hb).1 (conditions b hb), (hbranches b hb).2 (outputs b hb)⟩
      rw [Expression.toJson, expression_choose]
      simp only [length_branchesToJson, read_branches]
      rfl
  coalesce hcandidates h := by
    cases h with
    | coalesce labelled =>
      rw [Expression.toJson, expression_coalesce,
        expressions_toJson fun e he => hcandidates e he (labelled e he)]
      rfl
  compare negated key value hkey h := by
    cases h with
    | compare _ _ labelled =>
      rw [Filter.toJson, filter_compare]
      simp only [key_toJson, hkey labelled, operand_toJson]
      rfl
  member negated key values hkey h := by
    cases h with
    | member _ _ labelled =>
      have read_values : listed [.arr [.str "literal", .arr (values.map Scalar.toJson)]] = .ok values :=
        operands_toJson values
      rw [Filter.toJson, filter_member]
      simp only [key_toJson, hkey labelled, read_values]
      rfl
  present negated key _ := by
    rw [Filter.toJson, filter_present]
  combine how filters hfilters h := by
    cases h with
    | combine _ labelled =>
      rw [Filter.toJson, filter_combine, filters_toJson fun a ha => hfilters a ha (labelled a ha)]
      rfl
  unknown _ := rfl

end Filter.Reader

/-- There may be no values, no cases and no candidates, a condition may be unknown and a key a literal. -/
example :
    let key : Expression :=
      .choose [(.unknown, .switch .id [] (.coalesce [])), (.compare true (.literal (.boolean true))
        (.string "x"), .zoom)] (.literal (.boolean false))
    let a : Filter := .member false key []
    Filter.Reader.filter a.toJson = .ok a := rfl

end StyledTiles
