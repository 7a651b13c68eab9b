import Mathlib.Data.List.Forall2
import StyledTiles.Proofs.Filter.Parts

/-!
# Exchanging parts of a tree

Where the parts of a tree are exchanged for others whose outcomes are related to theirs, the outcome of the
tree is related to what it was, by any relation of outcomes that sequencing keeps. There is one fact for
each form of a tree; labels may be exchanged as well, for such as the same scalars are close to.

Equality is such a relation, and so is agreement of those outcomes that are no failures.
-/
namespace StyledTiles

open Outcome

variable {R : ∀ {α : Type}, Except OutOfRange α → Except OutOfRange α → Prop}
  {f : Feature} {z : Zoom}

namespace Expression

theorem selected_related {cases cases' : List (List Scalar × Expression)}
    {fallback fallback' : Expression}
    (hcases : List.Forall₂ (fun c c' => (∀ v : Scalar, v.closeToAny c.1 = v.closeToAny c'.1) ∧
      R (c.2.eval f z) (c'.2.eval f z)) cases cases')
    (hfallback : R (fallback.eval f z) (fallback'.eval f z)) (v : Scalar) :
    R ((selected v fallback cases).eval f z) ((selected v fallback' cases').eval f z) := by
  induction hcases with
  | nil => exact hfallback
  | @cons c c' _ _ head _ ih =>
    obtain ⟨labels, output⟩ := c
    obtain ⟨labels', output'⟩ := c'
    rw [selected, selected, head.1 v]
    split
    · exact head.2
    · exact ih

theorem eval_switch_related (hR : Congruence R) {input input' : Expression}
    {cases cases' : List (List Scalar × Expression)} {fallback fallback' : Expression}
    (hinput : R (input.eval f z) (input'.eval f z))
    (hcases : List.Forall₂ (fun c c' => (∀ v : Scalar, v.closeToAny c.1 = v.closeToAny c'.1) ∧
      R (c.2.eval f z) (c'.2.eval f z)) cases cases')
    (hfallback : R (fallback.eval f z) (fallback'.eval f z)) :
    R ((switch input cases fallback).eval f z) ((switch input' cases' fallback').eval f z) := by
  rw [eval_switch, eval_switch]
  refine hR.bind hinput fun r => ?_
  cases r with
  | none => exact hR.refl _
  | some v => exact selected_related hcases hfallback v

theorem evalBranches_related (hR : Congruence R) {branches branches' : List (Filter × Expression)}
    (h : List.Forall₂ (fun b b' => R (b.1.eval f z) (b'.1.eval f z) ∧
      R (b.2.eval f z) (b'.2.eval f z)) branches branches') :
    R (evalBranches f z branches) (evalBranches f z branches') := by
  induction h with
  | nil => exact hR.refl _
  | @cons b b' _ _ head _ ih =>
    obtain ⟨condition, output⟩ := b
    obtain ⟨condition', output'⟩ := b'
    rw [evalBranches, evalBranches]
    refine hR.bind head.1 fun d => ?_
    cases d with
    | yes => exact hR.map head.2 some
    | unknown => exact ih
    | no => exact ih

theorem eval_choose_related (hR : Congruence R) {branches branches' : List (Filter × Expression)}
    {fallback fallback' : Expression}
    (hbranches : List.Forall₂ (fun b b' => R (b.1.eval f z) (b'.1.eval f z) ∧
      R (b.2.eval f z) (b'.2.eval f z)) branches branches')
    (hfallback : R (fallback.eval f z) (fallback'.eval f z)) :
    R ((choose branches fallback).eval f z) ((choose branches' fallback').eval f z) := by
  rw [eval, eval]
  refine hR.bind (evalBranches_related hR hbranches) fun r => ?_
  cases r with
  | some result => exact hR.refl _
  | none => exact hfallback

theorem eval_coalesce_related (hR : Congruence R) {candidates candidates' : List Expression}
    (h : List.Forall₂ (fun e e' => R (e.eval f z) (e'.eval f z)) candidates candidates') :
    R ((coalesce candidates).eval f z) ((coalesce candidates').eval f z) := by
  rw [eval, eval]
  induction h with
  | nil => exact hR.refl _
  | cons head _ ih =>
    rw [evalFirst, evalFirst]
    refine hR.bind head fun r => ?_
    cases r with
    | some v => exact hR.refl _
    | none => exact ih

end Expression

namespace Filter

theorem eval_compare_related (hR : Congruence R) {key key' : Expression}
    (hkey : R (key.eval f z) (key'.eval f z)) (negated : Bool) (value : Scalar) :
    R ((compare negated key value).eval f z) ((compare negated key' value).eval f z) := by
  rw [eval_compare, eval_compare]
  exact hR.map hkey _

theorem eval_member_related (hR : Congruence R) {key key' : Expression} {values values' : List Scalar}
    (hkey : R (key.eval f z) (key'.eval f z))
    (hvalues : ∀ v : Scalar, v.closeToAny values = v.closeToAny values') (negated : Bool) :
    R ((member negated key values).eval f z) ((member negated key' values').eval f z) := by
  rw [eval_member, eval_member, funext hvalues]
  exact hR.map hkey _

theorem eval_combine_related (hR : Congruence R) {as bs : List Filter}
    (h : List.Forall₂ (fun a b => R (a.eval f z) (b.eval f z)) as bs) (how : Connective) :
    R ((combine how as).eval f z) ((combine how bs).eval f z) := by
  rw [eval, eval]
  -- What was seen before does not matter, so the induction is on every run.
  generalize false = sawUnknown
  induction h generalizing sawUnknown with
  | nil => exact hR.refl _
  | cons head _ ih =>
    rw [evalAll, evalAll]
    refine hR.bind head fun d => ?_
    split
    · exact hR.refl _
    · exact ih _

end Filter

end StyledTiles
