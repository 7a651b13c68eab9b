import Mathlib.Data.List.Forall2
import StyledTiles.Proofs.Filter.Induction
import StyledTiles.Proofs.Filter.Parts

/-!
# Dual filters

The dual of a filter accepts what the filter rejects and rejects what it accepts; where the filter cannot
tell, neither can its dual. It is written down without evaluating anything: comparisons and tests for
presence are turned round, `all` becomes `any` over the duals and `any` becomes `all` over them. The dual
of `none` is `any` over the same filters, which are not turned round.

A filter and its dual ask the same questions in the same order and stop at the same one. So the law is of
outcomes as they are: the dual fails where the filter does, and nothing is assumed about numbers.
-/
namespace StyledTiles

open Outcome

mutual

/-- The filter that decides the opposite. -/
def Filter.dual : Filter → Filter
  | .compare negated key value => .compare (!negated) key value
  | .member negated key values => .member (!negated) key values
  | .present negated key => .present (!negated) key
  | .combine .all filters => .combine .any (Filter.duals filters)
  | .combine .any filters => .combine .all (Filter.duals filters)
  | .combine .none filters => .combine .any filters
  | .unknown => .unknown

def Filter.duals : List Filter → List Filter
  | [] => []
  | a :: as => a.dual :: Filter.duals as

end

/-! ## Connectives that mirror each other -/

/-- Reading each decision turned, the second connective stops where the first does and comes to the
opposite. -/
structure Connective.Mirrors (turn : Decision → Decision) (how how' : Connective) : Prop where
  stop : ∀ d, turn d = how'.stop ↔ d = how.stop
  unknown : ∀ d, turn d = .unknown ↔ d = .unknown
  settled : how'.settled = how.settled.not
  exhausted : how'.exhausted = how.exhausted.not

namespace Connective

theorem all_mirrors_any : Mirrors Decision.not .all .any where
  stop d := by cases d <;> decide
  unknown d := by cases d <;> decide
  settled := rfl
  exhausted := rfl

theorem any_mirrors_all : Mirrors Decision.not .any .all where
  stop d := by cases d <;> decide
  unknown d := by cases d <;> decide
  settled := rfl
  exhausted := rfl

/-- Both stop at a yes, so here nothing is turned but the result. -/
theorem none_mirrors_any : Mirrors id .none .any where
  stop _ := Iff.rfl
  unknown _ := Iff.rfl
  settled := rfl
  exhausted := rfl

theorem Mirrors.finish {turn : Decision → Decision} {how how' : Connective}
    (m : Mirrors turn how how') (sawUnknown : Bool) :
    how'.finish sawUnknown = (how.finish sawUnknown).not := by
  cases sawUnknown with
  | true => rfl
  | false => exact m.exhausted

end Connective

namespace Filter

variable {f : Feature} {z : Zoom}

/-- Where each filter of the second list decides as that of the first but turned, a connective that
mirrors another comes to the opposite. -/
theorem evalAll_mirrored {turn : Decision → Decision} {how how' : Connective} {as bs : List Filter}
    (m : how.Mirrors turn how')
    (h : List.Forall₂ (fun a b => b.eval f z = (a.eval f z).map turn) as bs) (sawUnknown : Bool) :
    evalAll f z how' sawUnknown bs = (evalAll f z how sawUnknown as).map Decision.not := by
  induction h generalizing sawUnknown with
  | nil =>
    rw [evalAll, evalAll, m.finish]
    rfl
  | @cons a b as bs head _ ih =>
    rw [evalAll, evalAll, head]
    cases a.eval f z with
    | error e => rfl
    | ok d =>
      simp only [Except.map, bind, Except.bind, m.stop, m.unknown]
      split
      · rw [m.settled]
        rfl
      · exact ih _

theorem verdict_not (negated truth : Bool) : verdict (!negated) truth = (verdict negated truth).not := by
  cases negated <;> cases truth <;> rfl

theorem decideOn_not (negated : Bool) (test : Scalar → Bool) (r : Option Scalar) :
    decideOn (!negated) test r = (decideOn negated test r).not := by
  cases r with
  | none => rfl
  | some v => exact verdict_not negated (test v)

/-- A key that fails, fails the comparison and the one turned round. -/
theorem map_decideOn_not (negated : Bool) (test : Scalar → Bool)
    (key : Except OutOfRange (Option Scalar)) :
    key.map (decideOn (!negated) test) = (key.map (decideOn negated test)).map Decision.not := by
  cases key with
  | error e => rfl
  | ok r => exact congrArg Except.ok (decideOn_not negated test r)

theorem duals_turned {as : List Filter}
    (h : ∀ a ∈ as, a.dual.eval f z = (a.eval f z).map Decision.not) :
    List.Forall₂ (fun a b => b.eval f z = (a.eval f z).map Decision.not) as (duals as) := by
  induction as with
  | nil =>
    rw [duals]
    exact .nil
  | cons a as ih =>
    rw [List.forall_mem_cons] at h
    rw [duals]
    exact .cons h.1 (ih h.2)

/-- The dual of a filter decides the opposite of what the filter decides, cannot tell where it cannot
tell, and fails where it fails. -/
theorem dual_decides_the_opposite (a : Filter) (f : Feature) (z : Zoom) :
    a.dual.eval f z = (a.eval f z).map Decision.not := by
  induction a using Filter.induct with
  | compare negated key value =>
    rw [dual, eval_compare, eval_compare]
    exact map_decideOn_not negated _ (key.eval f z)
  | member negated key values =>
    rw [dual, eval_member, eval_member]
    exact map_decideOn_not negated _ (key.eval f z)
  | present negated key =>
    rw [dual, eval, eval]
    exact congrArg Except.ok (verdict_not negated (f.has key))
  | combine how filters ih =>
    cases how with
    | all =>
      rw [dual, eval, eval]
      exact evalAll_mirrored Connective.all_mirrors_any (duals_turned ih) false
    | any =>
      rw [dual, eval, eval]
      exact evalAll_mirrored Connective.any_mirrors_all (duals_turned ih) false
    | none =>
      rw [dual, eval, eval]
      refine evalAll_mirrored Connective.none_mirrors_any (List.forall₂_same.mpr fun a _ => ?_) false
      cases a.eval f z <;> rfl
  | unknown =>
    rw [dual, eval]
    rfl

end Filter

end StyledTiles
