import StyledTiles.Filter.Reader
import StyledTiles.Proofs.Filter.Induction
import StyledTiles.Proofs.Filter.Parts
import StyledTiles.Proofs.Range

/-!
# Filters within range

A filter evaluates to a decision for every feature and zoom that fit, and a value that fits reads as a
filter. The only failure of either is a number out of range, so what remains to be excluded is that one
is met.
-/
namespace StyledTiles

open Outcome

/-! ## Evaluating -/

section Eval

variable {f : Feature} {z : Zoom}

/-! Each loop of the evaluator ends in a result if all that it may look at does. -/

theorem Expression.evalBranches_ok {branches : List (Filter × Expression)}
    (h : ∀ b ∈ branches, (∃ d, b.1.eval f z = .ok d) ∧ ∃ v, b.2.eval f z = .ok v) :
    ∃ r, evalBranches f z branches = .ok r := by
  induction branches with
  | nil => exact ⟨none, by rw [evalBranches]⟩
  | cons b rest ih =>
    obtain ⟨condition, output⟩ := b
    obtain ⟨⟨⟨d, hd⟩, w, hw⟩, hrest⟩ := List.forall_mem_cons.mp h
    rw [evalBranches, hd]
    cases d with
    | yes => exact ⟨some w, map_eq_ok.mpr ⟨w, hw, rfl⟩⟩
    | unknown => exact ih hrest
    | no => exact ih hrest

theorem Expression.evalFirst_ok {candidates : List Expression}
    (h : ∀ e ∈ candidates, ∃ v, e.eval f z = .ok v) :
    ∃ v, evalFirst f z candidates = .ok v := by
  induction candidates with
  | nil => exact ⟨none, by rw [evalFirst]⟩
  | cons e rest ih =>
    obtain ⟨⟨v, hv⟩, hrest⟩ := List.forall_mem_cons.mp h
    rw [evalFirst, hv]
    cases v with
    | some v => exact ⟨some v, rfl⟩
    | none => exact ih hrest

theorem Filter.evalAll_ok {filters : List Filter} (h : ∀ a ∈ filters, ∃ d, a.eval f z = .ok d)
    (how : Connective) (sawUnknown : Bool) : ∃ d, evalAll f z how sawUnknown filters = .ok d := by
  induction filters generalizing sawUnknown with
  | nil => exact ⟨how.finish sawUnknown, by rw [evalAll]⟩
  | cons a rest ih =>
    obtain ⟨⟨c, hc⟩, hrest⟩ := List.forall_mem_cons.mp h
    by_cases hstop : c = how.stop
    · exact ⟨how.settled, evalAll_cons_eq_ok.mpr ⟨c, hc, .inl ⟨hstop, rfl⟩⟩⟩
    · obtain ⟨d, hd⟩ := ih hrest (sawUnknown || c = .unknown)
      exact ⟨d, evalAll_cons_eq_ok.mpr ⟨c, hc, .inr ⟨hstop, hd⟩⟩⟩

theorem eval_ok_by_parts (hf : f.Fits) (hz : z.Fits) :
    ByParts (fun e => ∃ v, e.eval f z = .ok v) (fun a => ∃ d, a.eval f z = .ok d) where
  get name := by
    obtain ⟨v, hv⟩ := Feature.get_ok hf name
    obtain ⟨x, hx⟩ := Scalar.ofNumber_ok hz
    cases v with
    | some v => exact ⟨some v, Expression.eval_get_eq_some.mpr (.inl hv)⟩
    | none =>
      by_cases hname : name = zoomKey
      · exact ⟨some x, Expression.eval_get_eq_some.mpr (.inr ⟨hv, hname, hx⟩)⟩
      · exact ⟨none, Expression.eval_get_eq_none.mpr ⟨hv, hname⟩⟩
  literal v := ⟨some v, by rw [Expression.eval]⟩
  zoom := by
    obtain ⟨x, hx⟩ := Scalar.ofNumber_ok hz
    exact ⟨some x, by rw [Expression.eval, hx]; rfl⟩
  geometryType := ⟨some (.string f.geometry.name), by rw [Expression.eval]⟩
  id := by
    obtain ⟨v, hv⟩ := Feature.idScalar_ok hf
    exact ⟨v, by rw [Expression.eval, hv]⟩
  switch hinput hcases hfallback := by
    obtain ⟨v, hv⟩ := hinput
    rw [Expression.eval_switch, hv]
    cases v with
    | none => exact ⟨none, rfl⟩
    | some v =>
      exact Expression.selected_of_all (P := fun e => ∃ r, e.eval f z = .ok r) hcases hfallback v
  choose hbranches hfallback := by
    obtain ⟨result, hr⟩ := Expression.evalBranches_ok hbranches
    rw [Expression.eval, hr]
    cases result with
    | some result => exact ⟨result, rfl⟩
    | none => exact hfallback
  coalesce hcandidates := by
    rw [Expression.eval]
    exact Expression.evalFirst_ok hcandidates
  compare negated _ value hkey := by
    obtain ⟨v, hv⟩ := hkey
    exact ⟨_, Filter.eval_compare_eq_ok.mpr ⟨v, hv, rfl⟩⟩
  member negated _ values hkey := by
    obtain ⟨v, hv⟩ := hkey
    exact ⟨_, Filter.eval_member_eq_ok.mpr ⟨v, hv, rfl⟩⟩
  present negated key := ⟨_, by rw [Filter.eval]⟩
  combine how filters hfilters := by
    rw [Filter.eval]
    exact Filter.evalAll_ok hfilters how false
  unknown := ⟨.unknown, by rw [Filter.eval]⟩

theorem Expression.eval_ok (hf : f.Fits) (hz : z.Fits) (e : Expression) :
    ∃ v, e.eval f z = .ok v := (eval_ok_by_parts hf hz).expression e

theorem Filter.eval_ok (hf : f.Fits) (hz : z.Fits) (a : Filter) :
    ∃ d, a.eval f z = .ok d := (eval_ok_by_parts hf hz).filter a

end Eval

end StyledTiles
