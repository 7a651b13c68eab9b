import StyledTiles.Proofs.Filter.Evaluation
import StyledTiles.Proofs.Filter.Grammar
import StyledTiles.Proofs.Filter.Parts

/-!
# Resolved filters

An expression is resolved by a feature that carries what the expression cannot do without: the property
it names, each output that a switch or a choice may take, one of the candidates of a coalescence. A
filter is resolved when its keys are. A resolved expression yields a scalar and a resolved filter decides
definitely, so a filter is in doubt only for the want of something that the feature does not carry.

The conditions of a choice need not be resolved: one that is unknown is passed over. The one thing that
remains to be excluded is a number out of range, where nothing is yielded or decided at all.
-/
namespace StyledTiles

open Outcome

namespace Feature

/-- What is under a name, whether it is a scalar or not. -/
def value (f : Feature) (name : String) : Json :=
  if name = typeKey then .str f.geometry.name
  else if name = idKey then f.id
  else Json.member f.properties name

/-- There is a scalar under the name. -/
def Carries (f : Feature) (name : String) : Prop := Grammar.IsScalar (f.value name)

theorem get_eq_ofJson (f : Feature) (name : String) : f.get name = Scalar.ofJson (f.value name) := by
  unfold get value
  split
  · rfl
  · split
    · rfl
    · rfl

end Feature

/-- The feature carries what the expression cannot do without. -/
inductive Expression.Resolved (f : Feature) : Expression → Prop
  | get {name : String} (h : f.Carries name) : Resolved f (.get name)
  | zoomByName : Resolved f (.get zoomKey)
  | literal (v : Scalar) : Resolved f (.literal v)
  | zoom : Resolved f .zoom
  | geometryType : Resolved f .geometryType
  | id (h : Grammar.IsScalar f.id) : Resolved f .id
  | switch {input : Expression} {cases : List (List Scalar × Expression)} {fallback : Expression}
      (input_resolved : Resolved f input) (cases_resolved : ∀ c ∈ cases, Resolved f c.2)
      (fallback_resolved : Resolved f fallback) : Resolved f (.switch input cases fallback)
  | choose {branches : List (Filter × Expression)} {fallback : Expression}
      (branches_resolved : ∀ b ∈ branches, Resolved f b.2) (fallback_resolved : Resolved f fallback) :
      Resolved f (.choose branches fallback)
  | coalesce {candidates : List Expression} {e : Expression} (mem : e ∈ candidates)
      (h : Resolved f e) : Resolved f (.coalesce candidates)

/-- Every key of the filter is resolved, and every part of it was understood. -/
inductive Filter.Resolved (f : Feature) : Filter → Prop
  | compare (negated : Bool) {key : Expression} (value : Scalar) (h : key.Resolved f) :
      Resolved f (.compare negated key value)
  | member (negated : Bool) {key : Expression} (values : List Scalar) (h : key.Resolved f) :
      Resolved f (.member negated key values)
  | present (negated : Bool) (key : String) : Resolved f (.present negated key)
  | combine (how : Connective) {filters : List Filter} (h : ∀ a ∈ filters, Resolved f a) :
      Resolved f (.combine how filters)

variable {f : Feature} {z : Zoom}

theorem Scalar.ofJson_ne_none {j : Json} (h : Grammar.IsScalar j) : ofJson j ≠ .ok none := by
  intro hnone
  cases h with
  | str s => cases hnone
  | bool b => cases hnone
  | num n =>
    obtain ⟨_, _, heq⟩ := map_eq_ok.mp hnone
    cases heq

/-- A resolved expression does not yield nothing. -/
theorem Expression.Resolved.eval_ne_none {e : Expression} (h : e.Resolved f) :
    e.eval f z ≠ .ok none := by
  induction h with
  | get h =>
    rw [Ne, eval_get_eq_none, Feature.get_eq_ofJson]
    exact fun hnone => Scalar.ofJson_ne_none h hnone.1
  | zoomByName =>
    rw [Ne, eval_get_eq_none]
    exact fun hnone => hnone.2 rfl
  | literal v =>
    rw [eval]
    intro hnone
    cases hnone
  | zoom =>
    rw [eval, Ne, map_eq_ok]
    rintro ⟨_, _, heq⟩
    cases heq
  | geometryType =>
    rw [eval]
    intro hnone
    cases hnone
  | id h =>
    rw [eval]
    exact Scalar.ofJson_ne_none h
  | switch _ _ _ ihinput ihcases ihfallback =>
    rw [Ne, eval_switch_eq_ok]
    rintro (⟨hinput, _⟩ | ⟨v, _, hnone⟩)
    · exact ihinput hinput
    · exact selected_of_all (P := fun e => e.eval f z ≠ .ok none) ihcases ihfallback v hnone
  | choose _ _ ihbranches ihfallback =>
    intro hnone
    rcases eval_choose_of_ok hnone with hnone | ⟨b, hb, hnone⟩
    · exact ihfallback hnone
    · exact ihbranches b hb hnone
  | coalesce mem _ ih =>
    intro hnone
    rw [eval] at hnone
    exact ih (evalFirst_eq_none hnone _ mem)

namespace Filter

theorem decideOn_ne_unknown {key : Expression} {negated : Bool} {test : Scalar → Bool}
    {r : Option Scalar} (h : key.Resolved f) (hr : key.eval f z = .ok r) :
    decideOn negated test r ≠ .unknown := by
  cases r with
  | none => exact absurd hr h.eval_ne_none
  | some v => exact verdict_ne_unknown negated (test v)

/-- A connective is not in doubt when no filter in it is. -/
theorem evalAll_ne_unknown {how : Connective} {as : List Filter}
    (h : ∀ a ∈ as, a.eval f z ≠ .ok .unknown) : evalAll f z how false as ≠ .ok .unknown := by
  induction as with
  | nil =>
    rw [evalAll]
    exact fun hunknown => how.exhausted_ne_unknown (Except.ok.inj hunknown)
  | cons a as ih =>
    rw [List.forall_mem_cons] at h
    rw [Ne, evalAll_cons_eq_ok]
    rintro ⟨c, hc, ⟨_, hsettled⟩ | ⟨_, hrest⟩⟩
    · exact how.settled_ne_unknown hsettled.symm
    · have hdefinite : c ≠ .unknown := fun heq => h.1 (heq ▸ hc)
      rw [decide_eq_false hdefinite] at hrest
      exact ih h.2 hrest

/-- A resolved filter is not in doubt. -/
theorem Resolved.eval_ne_unknown {a : Filter} (h : a.Resolved f) : a.eval f z ≠ .ok .unknown := by
  induction h with
  | compare negated value h =>
    rw [Ne, eval_compare_eq_ok]
    rintro ⟨r, hr, hunknown⟩
    exact decideOn_ne_unknown h hr hunknown
  | member negated values h =>
    rw [Ne, eval_member_eq_ok]
    rintro ⟨r, hr, hunknown⟩
    exact decideOn_ne_unknown h hr hunknown
  | present negated key =>
    rw [eval]
    exact fun hunknown => verdict_ne_unknown negated (f.has key) (Except.ok.inj hunknown)
  | combine how _ ih =>
    rw [eval]
    exact evalAll_ne_unknown ih

end Filter

/-- A resolved expression yields a scalar whenever it yields anything, and a resolved filter accepts or
rejects whenever it decides; and they do where the zoom and the numbers of the feature are in range. -/
theorem resolved_is_never_in_doubt (f : Feature) (z : Zoom) :
    (∀ e : Expression, e.Resolved f →
      (∀ r, e.eval f z = .ok r → ∃ v, r = some v) ∧
      (z.Fits → f.Fits → ∃ v, e.eval f z = .ok (some v))) ∧
    ∀ a : Filter, a.Resolved f →
      (∀ d, a.eval f z = .ok d → d = .yes ∨ d = .no) ∧
      (z.Fits → f.Fits → a.eval f z = .ok .yes ∨ a.eval f z = .ok .no) := by
  constructor
  · intro e he
    have present : ∀ r, e.eval f z = .ok r → ∃ v, r = some v := by
      intro r hr
      cases r with
      | none => exact absurd hr he.eval_ne_none
      | some v => exact ⟨v, rfl⟩
    refine ⟨present, fun hz hf => ?_⟩
    obtain ⟨r, hr⟩ := Expression.eval_ok hf hz e
    obtain ⟨v, rfl⟩ := present r hr
    exact ⟨v, hr⟩
  · intro a ha
    have definite : ∀ d, a.eval f z = .ok d → d = .yes ∨ d = .no := by
      intro d hd
      cases d with
      | yes => exact .inl rfl
      | no => exact .inr rfl
      | unknown => exact absurd hd ha.eval_ne_unknown
    refine ⟨definite, fun hz hf => ?_⟩
    obtain ⟨d, hd⟩ := Filter.eval_ok hf hz a
    rcases definite d hd with rfl | rfl
    · exact .inl hd
    · exact .inr hd

/-! ## A lake whose depth is not known -/

def unsoundedLake : Feature :=
  { geometry := .polygon, properties := [("name", .str "Como")] }

def isDeep : Filter := .compare false (.get "depth") (.string "deep")

/-- What the lake is called: deep lakes by their number, others by an alias or else by name. -/
def calling : Expression :=
  .choose [(isDeep, .zoom)] (.coalesce [.get "alias", .get "name"])

def calledComo : Filter := .combine .all [
  .compare false calling (.string "Como"),
  .member true (.switch .geometryType [([.string "Point"], calling)] (.get zoomKey)) [.string "none"]]

theorem lake_is_not_in_doubt :
    calledComo.Resolved unsoundedLake ∧ unsoundedLake.Fits ∧
    isDeep.eval unsoundedLake (.int 3) = .ok .unknown ∧
    (∃ v, calling.eval unsoundedLake (.int 3) = .ok (some v)) ∧
    (calledComo.eval unsoundedLake (.int 3) = .ok .yes ∨
      calledComo.eval unsoundedLake (.int 3) = .ok .no) := by
  have calling_resolved : calling.Resolved unsoundedLake := by
    refine .choose (by simpa using .zoom) (.coalesce (e := .get "name") (by simp) (.get ?_))
    exact .str "Como"
  have resolved : calledComo.Resolved unsoundedLake := by
    refine .combine .all ?_
    simpa using ⟨.compare false _ calling_resolved,
      .member true _ (.switch .geometryType (by simpa using calling_resolved) .zoomByName)⟩
  have fits : unsoundedLake.Fits := ⟨by simp [unsoundedLake], by simp [unsoundedLake, Json.MembersFit]⟩
  have zoom_fits : Number.Fits (.int 3) := by decide
  obtain ⟨expressions, filters⟩ := resolved_is_never_in_doubt unsoundedLake (.int 3)
  exact ⟨resolved, fits, rfl, (expressions calling calling_resolved).2 zoom_fits fits,
    (filters calledComo resolved).2 zoom_fits fits⟩

/-- One word for deep lakes and another for those that are not. -/
def deepOrShallow : Expression :=
  .choose [(isDeep, .literal (.string "deep"))] (.literal (.string "shallow"))

/-- A resolved expression may yield nothing for another reason: a condition, of which nothing is asked,
may meet a number out of range. -/
theorem resolved_may_fail : ¬ ∀ (f : Feature) (z : Zoom),
    (∀ e : Expression, e.Resolved f → ∃ v, e.eval f z = .ok (some v)) ∧
    ∀ a : Filter, a.Resolved f → a.eval f z = .ok .yes ∨ a.eval f z = .ok .no := by
  intro always
  have resolved : deepOrShallow.Resolved fathomlessLake :=
    .choose (by simpa using .literal (.string "deep")) (.literal (.string "shallow"))
  obtain ⟨v, hv⟩ := (always fathomlessLake (.int 3)).1 deepOrShallow resolved
  have fails : (deepOrShallow.eval fathomlessLake (.int 3)).isOk = false := by decide +kernel
  rw [hv] at fails
  cases fails

end StyledTiles
