import StyledTiles.Proofs.Filter.Congruence
import StyledTiles.Proofs.Filter.Induction
import StyledTiles.Proofs.Pairing

/-!
# Membership by comparisons

A membership filter with at least one value decides as the comparisons of its key with each of the values,
combined: `any` of them for the plain filter, `all` of the negated ones or `none` of them for the negated
filter. A switch takes its outputs as a choice by membership in the labels does. This may be put for that
at any depth of a tree, and the tree evaluates to what it did, or fails where it did.

Without a value there is nothing to combine. The comparisons then decide although the key may be absent,
in which case the membership filter cannot tell. For the same reason a choice without branches does not
look at the input of the switch, which is why that is looked at first.
-/
namespace StyledTiles

open Outcome

/-- The ways to write a membership filter, negated or not, as a connective of comparisons, negated or
not. -/
inductive Connective.Spells : Connective → Bool → Bool → Prop
  | any : Spells .any false false
  | all : Spells .all true true
  | none : Spells .none true false

/-- The comparisons of a key with each of several values. -/
def Filter.comparisons (negated : Bool) (key : Expression) (values : List Scalar) : List Filter :=
  values.map (.compare negated key ·)

/-- The branches of a choice by membership, one for each case of a switch. -/
def Expression.memberships (input : Expression) (cases : List (List Scalar × Expression)) :
    List (Filter × Expression) :=
  cases.map fun c => (.member false input c.1, c.2)

mutual

/-- The second expression is the first with membership filters in it written as comparisons. -/
inductive Expression.Compared : Expression → Expression → Prop
  | same (e : Expression) : Expression.Compared e e
  | switch {input input' : Expression} {cases cases' : List (List Scalar × Expression)}
      {fallback fallback' : Expression} (hinput : Expression.Compared input input')
      (hlabels : List.Forall₂ Eq (cases.map Prod.fst) (cases'.map Prod.fst))
      (houtputs : List.Forall₂ Expression.Compared (cases.map Prod.snd) (cases'.map Prod.snd))
      (hfallback : Expression.Compared fallback fallback') :
      Expression.Compared (.switch input cases fallback) (.switch input' cases' fallback')
  | choose {branches branches' : List (Filter × Expression)} {fallback fallback' : Expression}
      (hconditions : List.Forall₂ Filter.Compared (branches.map Prod.fst) (branches'.map Prod.fst))
      (houtputs : List.Forall₂ Expression.Compared (branches.map Prod.snd) (branches'.map Prod.snd))
      (hfallback : Expression.Compared fallback fallback') :
      Expression.Compared (.choose branches fallback) (.choose branches' fallback')
  | coalesce {candidates candidates' : List Expression}
      (h : List.Forall₂ Expression.Compared candidates candidates') :
      Expression.Compared (.coalesce candidates) (.coalesce candidates')

/-- The second filter is the first with membership filters in it, itself or further down, written as
comparisons. Those that have no value stay as they are. -/
inductive Filter.Compared : Filter → Filter → Prop
  | same (a : Filter) : Filter.Compared a a
  | compare (negated : Bool) {key key' : Expression} (value : Scalar)
      (hkey : Expression.Compared key key') :
      Filter.Compared (.compare negated key value) (.compare negated key' value)
  | member (negated : Bool) {key key' : Expression} (values : List Scalar)
      (hkey : Expression.Compared key key') :
      Filter.Compared (.member negated key values) (.member negated key' values)
  | spelled {negated turned : Bool} {how : Connective} (h : how.Spells negated turned)
      {key key' : Expression} {values : List Scalar} (hsome : values ≠ [])
      (hkey : Expression.Compared key key') :
      Filter.Compared (.member negated key values) (.combine how (Filter.comparisons turned key' values))
  | combine (how : Connective) {as bs : List Filter} (h : List.Forall₂ Filter.Compared as bs) :
      Filter.Compared (.combine how as) (.combine how bs)

end

variable {f : Feature} {z : Zoom}

/-! ## A membership filter -/

namespace Connective.Spells

variable {how : Connective} {negated turned : Bool}

/-- A comparison that holds settles the connective. -/
theorem stop (h : how.Spells negated turned) : Filter.verdict turned true = how.stop := by
  cases h <;> rfl

theorem goes_on (h : how.Spells negated turned) : Filter.verdict turned false ≠ how.stop := by
  cases h <;> decide

/-- The connective comes to what the membership filter decides, settled by a comparison or not. -/
theorem settled (h : how.Spells negated turned) : how.settled = Filter.verdict negated true := by
  cases h <;> rfl

theorem exhausted (h : how.Spells negated turned) : how.finish false = Filter.verdict negated false := by
  cases h <;> rfl

end Connective.Spells

namespace Filter

variable {key : Expression}

/-- Without a key no comparison can tell, so the connective cannot either, once there is one. -/
theorem evalAll_comparisons_absent (hkey : key.eval f z = .ok none) (how : Connective) (turned : Bool)
    (values : List Scalar) (sawUnknown : Bool) :
    evalAll f z how sawUnknown (comparisons turned key values) =
      .ok (how.finish (sawUnknown || !values.isEmpty)) := by
  induction values generalizing sawUnknown with
  | nil => simp [comparisons, evalAll]
  | cons v values ih =>
    have unknown : (compare turned key v).eval f z = .ok .unknown := by
      rw [eval_compare, hkey]
      rfl
    have hstop : Decision.unknown ≠ how.stop := how.stop_ne_unknown.symm
    have hrest := ih true
    rw [comparisons] at hrest
    rw [comparisons, List.map_cons, evalAll, unknown]
    simp only [bind, Except.bind, if_neg hstop, decide_true, Bool.or_true, hrest]
    simp

/-- With a key the connective stops at the first value that is close to it. -/
theorem evalAll_comparisons_present {how : Connective} {negated turned : Bool}
    (h : how.Spells negated turned) {v : Scalar} (hkey : key.eval f z = .ok (some v))
    (values : List Scalar) : evalAll f z how false (comparisons turned key values) =
      .ok (verdict negated (v.closeToAny values)) := by
  induction values with
  | nil =>
    rw [comparisons, List.map_nil, evalAll, h.exhausted]
    rfl
  | cons w values ih =>
    have first : (compare turned key w).eval f z = .ok (verdict turned (v.close w)) := by
      rw [eval_compare, hkey]
      rfl
    rw [comparisons] at ih
    rw [comparisons, List.map_cons, evalAll, first, Scalar.closeToAny, List.any_cons]
    simp only [bind, Except.bind]
    cases v.close w with
    | true =>
      rw [if_pos h.stop, h.settled]
      rfl
    | false =>
      rw [if_neg h.goes_on, decide_eq_false (verdict_ne_unknown turned false)]
      exact ih

/-- A membership filter that has a value decides as its comparisons do. -/
theorem eval_spelled {how : Connective} {negated turned : Bool} (h : how.Spells negated turned)
    {values : List Scalar} (hsome : values ≠ []) :
    (combine how (comparisons turned key values)).eval f z =
      (member negated key values).eval f z := by
  rw [eval_member, eval]
  cases hkey : key.eval f z with
  | error e =>
    -- The first comparison already fails.
    obtain ⟨v, rest, rfl⟩ := List.exists_cons_of_ne_nil hsome
    rw [comparisons, List.map_cons, evalAll, eval_compare, hkey]
    rfl
  | ok r =>
    cases r with
    | none =>
      have hdoubt : (!values.isEmpty) = true := by simpa using hsome
      rw [evalAll_comparisons_absent hkey, hdoubt]
      rfl
    | some v => exact evalAll_comparisons_present h hkey values

/-- A membership filter without a value is decided by whether there is a key. -/
theorem eval_member_nil (negated : Bool) (key : Expression) :
    (member negated key []).eval f z = (key.eval f z).map fun
      | none => .unknown
      | some _ => .ofBool negated := by
  rw [eval_member]
  congr 1
  funext r
  cases r with
  | none => rfl
  | some v => cases negated <;> rfl

end Filter

/-! ## A switch -/

namespace Expression

/-- Where there is an input, the choice takes the output that the switch takes. -/
theorem eval_choose_memberships {input : Expression} {v : Scalar}
    (hinput : input.eval f z = .ok (some v)) (cases : List (List Scalar × Expression))
    (fallback : Expression) : (choose (memberships input cases) fallback).eval f z =
      (selected v fallback cases).eval f z := by
  induction cases with
  | nil => exact eval_choose_nil fallback
  | cons c rest ih =>
    obtain ⟨labels, output⟩ := c
    have condition : (Filter.member false input labels).eval f z =
        .ok (.ofBool (v.closeToAny labels)) := by
      rw [Filter.eval_member, hinput]
      simp [Except.map, Filter.decideOn, Filter.verdict]
    rw [memberships] at ih
    rw [memberships, List.map_cons, eval_choose_cons, condition, selected]
    cases v.closeToAny labels with
    | true => rfl
    | false => exact ih

/-- A switch yields nothing without an input, and else what the choice by membership yields. -/
theorem eval_switch_memberships (input fallback : Expression)
    (cases : List (List Scalar × Expression)) :
    (switch input cases fallback).eval f z = input.eval f z >>= fun
      | none => .ok none
      | some _ => (choose (memberships input cases) fallback).eval f z := by
  rw [eval_switch]
  cases hinput : input.eval f z with
  | error e => rfl
  | ok r =>
    cases r with
    | none => rfl
    | some v => exact (eval_choose_memberships hinput cases fallback).symm

end Expression

/-! ## At any depth -/

theorem compared_alike (f : Feature) (z : Zoom) :
    ByParts (fun e => ∀ e', e.Compared e' → e.eval f z = e'.eval f z)
      (fun a => ∀ b, a.Compared b → a.eval f z = b.eval f z) where
  get name e' h := by
    cases h
    rfl
  literal v e' h := by
    cases h
    rfl
  zoom e' h := by
    cases h
    rfl
  geometryType e' h := by
    cases h
    rfl
  id e' h := by
    cases h
    rfl
  switch hinput hcases hfallback e' h := by
    cases h with
    | same => rfl
    | switch input_compared labels outputs fallback_compared =>
      refine Expression.eval_switch_related .eq (hinput _ input_compared) ?_
        (hfallback _ fallback_compared)
      exact forall₂_imp_of_mem (forall₂_of_parts labels outputs)
        fun c hc c' h => ⟨fun v => by rw [h.1], hcases c hc _ h.2⟩
  choose hbranches hfallback e' h := by
    cases h with
    | same => rfl
    | choose conditions outputs fallback_compared =>
      refine Expression.eval_choose_related .eq ?_ (hfallback _ fallback_compared)
      exact forall₂_imp_of_mem (forall₂_of_parts conditions outputs)
        fun b hb b' h => ⟨(hbranches b hb).1 _ h.1, (hbranches b hb).2 _ h.2⟩
  coalesce hcandidates e' h := by
    cases h with
    | same => rfl
    | coalesce compared =>
      exact Expression.eval_coalesce_related .eq (forall₂_imp_of_mem compared hcandidates)
  compare negated key value hkey b h := by
    cases h with
    | same => rfl
    | compare _ _ compared =>
      exact Filter.eval_compare_related .eq (hkey _ compared) negated value
  member negated key values hkey b h := by
    cases h with
    | same => rfl
    | member _ _ compared =>
      exact Filter.eval_member_related .eq (hkey _ compared) (fun _ => rfl) negated
    | spelled hspells hsome compared =>
      rw [Filter.eval_spelled hspells hsome]
      exact Filter.eval_member_related .eq (hkey _ compared) (fun _ => rfl) negated
  present negated key b h := by
    cases h
    rfl
  combine how filters hfilters b h := by
    cases h with
    | same => rfl
    | combine _ compared =>
      exact Filter.eval_combine_related .eq (forall₂_imp_of_mem compared hfilters) how
  unknown b h := by
    cases h
    rfl

/-- A membership filter with a value decides as `any` of the comparisons, the negated one as `all` of the
negated comparisons and as `none` of the comparisons; without a value it is decided by whether there is a
key. A switch yields nothing without an input, and else what the choice by membership in the labels does.
A tree in which membership filters that have a value are written as comparisons, at any depth, evaluates to
what it did. All of this holds of failures as well. -/
theorem membership_reduces_to_comparisons (f : Feature) (z : Zoom) :
    (∀ (key : Expression) (values : List Scalar), values ≠ [] →
      (Filter.member false key values).eval f z =
        (Filter.combine .any (Filter.comparisons false key values)).eval f z ∧
      (Filter.member true key values).eval f z =
        (Filter.combine .all (Filter.comparisons true key values)).eval f z ∧
      (Filter.member true key values).eval f z =
        (Filter.combine .none (Filter.comparisons false key values)).eval f z) ∧
    (∀ (negated : Bool) (key : Expression),
      (Filter.member negated key []).eval f z = (key.eval f z).map fun
        | none => .unknown
        | some _ => .ofBool negated) ∧
    (∀ (input fallback : Expression) (cases : List (List Scalar × Expression)),
      (Expression.switch input cases fallback).eval f z = input.eval f z >>= fun
        | none => .ok none
        | some _ => (Expression.choose (input.memberships cases) fallback).eval f z) ∧
    (∀ a b : Filter, a.Compared b → a.eval f z = b.eval f z) ∧
    ∀ e e' : Expression, e.Compared e' → e.eval f z = e'.eval f z := by
  refine ⟨fun key values hsome => ⟨?_, ?_, ?_⟩, fun negated key => Filter.eval_member_nil negated key,
    fun input fallback cases => Expression.eval_switch_memberships input fallback cases,
    (compared_alike f z).filter, (compared_alike f z).expression⟩
  · exact (Filter.eval_spelled .any hsome).symm
  · exact (Filter.eval_spelled .all hsome).symm
  · exact (Filter.eval_spelled .none hsome).symm

/-! ## Running water -/

def brook : Feature := { geometry := .line, properties := [("class", .str "stream")] }

/-- The class of water, or that it stands still where a condition on its kind is not met. -/
def currentUnless (still : Filter) : Expression :=
  .choose [(still, .literal (.string "still"))] (.get "class")

/-- Water is still if its shape, by the kind where there is one, is that of a lake. -/
def isStill : Filter := .member false
  (.switch .geometryType [([.string "LineString"], .coalesce [.get "kind", .literal (.string "ditch")])]
    (.literal (.string "lake")))
  [.string "lake", .string "pond"]

def isStillCompared : Filter := .combine .any (Filter.comparisons false
  (.switch .geometryType [([.string "LineString"], .coalesce [.get "kind", .literal (.string "ditch")])]
    (.literal (.string "lake")))
  [.string "lake", .string "pond"])

def isRunning : Filter := .combine .all [
  .member true (currentUnless isStill) [.string "still", .string "tidal"],
  .member true (currentUnless isStill) []]

/-- The filter without a value stays a membership filter. -/
def isRunningCompared : Filter := .combine .all [
  .combine .none (Filter.comparisons false (currentUnless isStillCompared)
    [.string "still", .string "tidal"]),
  .member true (currentUnless isStillCompared) []]

theorem current_compared : (currentUnless isStill).Compared (currentUnless isStillCompared) :=
  .choose (.cons (.spelled .any (by simp) (.same _)) .nil) (.cons (.same _) .nil) (.same _)

theorem running_by_comparisons :
    [Scalar.string "still", .string "tidal"] ≠ [] ∧ isRunning.Compared isRunningCompared ∧
    (currentUnless isStill).Compared (currentUnless isStillCompared) ∧
    (Filter.member true (.get "class") [.string "still", .string "tidal"]).eval brook (.int 3) =
      (Filter.combine .none (Filter.comparisons false (.get "class")
        [.string "still", .string "tidal"])).eval brook (.int 3) ∧
    isRunning.eval brook (.int 3) = .ok .yes ∧ isRunningCompared.eval brook (.int 3) = .ok .yes ∧
    (currentUnless isStillCompared).eval brook (.int 3) = .ok (some (.string "stream")) := by
  have hsome : [Scalar.string "still", .string "tidal"] ≠ [] := by simp
  have compared : isRunning.Compared isRunningCompared :=
    .combine .all (.cons (.spelled .none hsome current_compared)
      (.cons (.member true [] current_compared) .nil))
  obtain ⟨spelled, _, _, filters, expressions⟩ := membership_reduces_to_comparisons brook (.int 3)
  have decides : isRunning.eval brook (.int 3) = .ok .yes := rfl
  have yields : (currentUnless isStill).eval brook (.int 3) = .ok (some (.string "stream")) := rfl
  exact ⟨hsome, compared, current_compared, (spelled (.get "class") _ hsome).2.2, decides,
    (filters _ _ compared).symm.trans decides, (expressions _ _ current_compared).symm.trans yields⟩

/-- Without a value there are no comparisons left that could meet the key that is missing. -/
example :
    (Filter.member false (.get "kind") []).eval brook (.int 3) = .ok .unknown ∧
    (Filter.combine .any (Filter.comparisons false (.get "kind") [])).eval brook (.int 3) = .ok .no :=
  ⟨rfl, rfl⟩

end StyledTiles
