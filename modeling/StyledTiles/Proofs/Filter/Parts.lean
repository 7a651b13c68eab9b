import Mathlib.Data.List.Forall2
import StyledTiles.Filter.Eval
import StyledTiles.Proofs.Connective
import StyledTiles.Proofs.Outcome

/-!
# Evaluating by parts

What a tree evaluates to, said by what its parts evaluate to. A comparison decides on the value of its
key; a combination runs its connective over the decisions of its filters, and a filter that the run does
not read may fail. A switch settles which of its outputs it takes from the value of its input alone,
before any output is looked at: `Expression.selected` is that output. What a choice yields is yielded by
one of its outputs, and a coalescence yields nothing only if each of its candidates does.

Which branch a choice takes is said one condition at a time, since a condition may fail.
-/
namespace StyledTiles

open Outcome

/-! ## Expressions -/

namespace Expression

variable {f : Feature} {z : Zoom}

/-- What is under a name is taken, and the zoom where nothing is under its name. -/
theorem eval_get_eq_some {name : String} {v : Scalar} :
    (get name).eval f z = .ok (some v) ↔
      f.get name = .ok (some v) ∨
        f.get name = .ok none ∧ name = zoomKey ∧ Scalar.ofNumber z = .ok v := by
  rw [eval, bind_eq_ok]
  constructor
  · rintro ⟨r, hr, h⟩
    cases r with
    | some w => exact .inl (hr.trans (congrArg Except.ok (pure_eq_ok.mp h)))
    | none =>
      by_cases hname : name = zoomKey
      · rw [if_pos hname, map_eq_ok] at h
        obtain ⟨w, hw, heq⟩ := h
        cases heq
        exact .inr ⟨hr, hname, hw⟩
      · rw [if_neg hname] at h
        cases pure_eq_ok.mp h
  · rintro (hv | ⟨hnone, hname, hz⟩)
    · exact ⟨some v, hv, rfl⟩
    · exact ⟨none, hnone, by rw [if_pos hname, hz]; rfl⟩

theorem eval_get_eq_none {name : String} :
    (get name).eval f z = .ok none ↔ f.get name = .ok none ∧ name ≠ zoomKey := by
  rw [eval, bind_eq_ok]
  constructor
  · rintro ⟨r, hr, h⟩
    cases r with
    | some v => cases pure_eq_ok.mp h
    | none =>
      refine ⟨hr, fun hname => ?_⟩
      rw [if_pos hname, map_eq_ok] at h
      obtain ⟨_, _, heq⟩ := h
      cases heq
  · rintro ⟨hnone, hname⟩
    exact ⟨none, hnone, by rw [if_neg hname]; rfl⟩

/-- The output that a switch takes for the value of its input. -/
def selected (v : Scalar) (fallback : Expression) : List (List Scalar × Expression) → Expression
  | [] => fallback
  | (labels, output) :: rest =>
    if v.closeToAny labels then output else selected v fallback rest

/-- What holds of the fallback and of every output holds of the one that is taken. -/
theorem selected_of_all {P : Expression → Prop} {fallback : Expression}
    {cases : List (List Scalar × Expression)} (hcases : ∀ c ∈ cases, P c.2) (hfallback : P fallback)
    (v : Scalar) : P (selected v fallback cases) := by
  induction cases with
  | nil => exact hfallback
  | cons c rest ih =>
    obtain ⟨houtput, hrest⟩ := List.forall_mem_cons.mp hcases
    rw [selected]
    split
    · exact houtput
    · exact ih hrest

theorem evalCases_eq (v : Scalar) (fallback : Expression)
    (cases : List (List Scalar × Expression)) :
    (evalCases f z v cases >>= fun
      | some result => .ok result
      | none => fallback.eval f z) = (selected v fallback cases).eval f z := by
  induction cases with
  | nil => rw [evalCases, selected]; rfl
  | cons c rest ih =>
    obtain ⟨labels, output⟩ := c
    rw [evalCases, selected]
    split
    · cases output.eval f z with
      | ok result => rfl
      | error e => rfl
    · exact ih

/-- A switch yields nothing without an input, and else what the output yields that is taken. -/
theorem eval_switch (input fallback : Expression) (cases : List (List Scalar × Expression)) :
    (switch input cases fallback).eval f z = input.eval f z >>= fun
      | none => .ok none
      | some v => (selected v fallback cases).eval f z := by
  rw [eval]
  congr 1
  funext v
  cases v with
  | none => rfl
  | some v => exact evalCases_eq v fallback cases

theorem eval_switch_eq_ok {input fallback : Expression} {cases : List (List Scalar × Expression)}
    {r : Option Scalar} : (switch input cases fallback).eval f z = .ok r ↔
      input.eval f z = .ok none ∧ r = none ∨
        ∃ v, input.eval f z = .ok (some v) ∧ (selected v fallback cases).eval f z = .ok r := by
  rw [eval_switch, bind_eq_ok]
  constructor
  · rintro ⟨v, hv, hr⟩
    cases v with
    | none => exact .inl ⟨hv, (Except.ok.inj hr).symm⟩
    | some v => exact .inr ⟨v, hv, hr⟩
  · rintro (⟨hv, rfl⟩ | ⟨v, hv, hr⟩)
    · exact ⟨none, hv, rfl⟩
    · exact ⟨some v, hv, hr⟩

theorem evalBranches_eq_some {branches : List (Filter × Expression)} {r : Option Scalar}
    (h : evalBranches f z branches = .ok (some r)) : ∃ b ∈ branches, b.2.eval f z = .ok r := by
  induction branches with
  | nil =>
    rw [evalBranches] at h
    cases h
  | cons b rest ih =>
    obtain ⟨condition, output⟩ := b
    rw [evalBranches, bind_eq_ok] at h
    obtain ⟨d, _, h⟩ := h
    cases d with
    | yes =>
      obtain ⟨_, houtput, heq⟩ := map_eq_ok.mp h
      cases heq
      exact ⟨(condition, output), List.mem_cons_self, houtput⟩
    | unknown =>
      obtain ⟨b, hb, hr⟩ := ih h
      exact ⟨b, List.mem_cons_of_mem _ hb, hr⟩
    | no =>
      obtain ⟨b, hb, hr⟩ := ih h
      exact ⟨b, List.mem_cons_of_mem _ hb, hr⟩

/-- Whatever the conditions say, a choice yields what one of its outputs yields. -/
theorem eval_choose_of_ok {branches : List (Filter × Expression)} {fallback : Expression}
    {r : Option Scalar} (h : (choose branches fallback).eval f z = .ok r) :
    fallback.eval f z = .ok r ∨ ∃ b ∈ branches, b.2.eval f z = .ok r := by
  rw [eval, bind_eq_ok] at h
  obtain ⟨taken, htaken, h⟩ := h
  cases taken with
  | none => exact .inl h
  | some result =>
    obtain rfl := pure_eq_ok.mp h
    exact .inr (evalBranches_eq_some htaken)

theorem eval_choose_nil (fallback : Expression) :
    (choose [] fallback).eval f z = fallback.eval f z := by
  rw [eval, evalBranches]
  rfl

/-- A choice takes its first output if the condition of that accepts, and else goes on with the others. -/
theorem eval_choose_cons (condition : Filter) (output : Expression)
    (rest : List (Filter × Expression)) (fallback : Expression) :
    (choose ((condition, output) :: rest) fallback).eval f z = condition.eval f z >>= fun d =>
      if d = .yes then output.eval f z else (choose rest fallback).eval f z := by
  rw [eval, evalBranches, eval]
  cases condition.eval f z with
  | error e => rfl
  | ok d =>
    cases d with
    | yes => cases output.eval f z <;> rfl
    | unknown => rfl
    | no => rfl

/-- A coalescence yields nothing only if each candidate does. -/
theorem evalFirst_eq_none {candidates : List Expression}
    (h : evalFirst f z candidates = .ok none) : ∀ e ∈ candidates, e.eval f z = .ok none := by
  induction candidates with
  | nil => simp
  | cons e rest ih =>
    rw [evalFirst, bind_eq_ok] at h
    obtain ⟨v, hv, h⟩ := h
    cases v with
    | none => exact List.forall_mem_cons.mpr ⟨hv, ih h⟩
    | some v => cases pure_eq_ok.mp h

end Expression

/-! ## Filters -/

namespace Filter

variable {f : Feature} {z : Zoom}

theorem verdict_ne_unknown (negated truth : Bool) : verdict negated truth ≠ .unknown := by
  cases negated <;> cases truth <;> decide

/-- The decision on the value of a key by a test: unknown without a value. -/
def decideOn (negated : Bool) (test : Scalar → Bool) : Option Scalar → Decision
  | none => .unknown
  | some v => verdict negated (test v)

theorem eval_compare (negated : Bool) (key : Expression) (value : Scalar) :
    (compare negated key value).eval f z = (key.eval f z).map (decideOn negated (·.close value)) := by
  rw [eval]
  cases key.eval f z with
  | error e => rfl
  | ok r => cases r <;> rfl

theorem eval_compare_eq_ok {negated : Bool} {key : Expression} {value : Scalar} {d : Decision} :
    (compare negated key value).eval f z = .ok d ↔
      ∃ r, key.eval f z = .ok r ∧ decideOn negated (·.close value) r = d := by
  rw [eval_compare, map_eq_ok]

theorem eval_member (negated : Bool) (key : Expression) (values : List Scalar) :
    (member negated key values).eval f z =
      (key.eval f z).map (decideOn negated (·.closeToAny values)) := by
  rw [eval]
  cases key.eval f z with
  | error e => rfl
  | ok r => cases r <;> rfl

theorem eval_member_eq_ok {negated : Bool} {key : Expression} {values : List Scalar}
    {d : Decision} : (member negated key values).eval f z = .ok d ↔
      ∃ r, key.eval f z = .ok r ∧ decideOn negated (·.closeToAny values) r = d := by
  rw [eval_member, map_eq_ok]

/-- One step of a connective. -/
theorem evalAll_cons_eq_ok {how : Connective} {sawUnknown : Bool} {a : Filter} {as : List Filter}
    {d : Decision} : evalAll f z how sawUnknown (a :: as) = .ok d ↔
      ∃ c, a.eval f z = .ok c ∧
        (c = how.stop ∧ d = how.settled ∨
          c ≠ how.stop ∧ evalAll f z how (sawUnknown || c = .unknown) as = .ok d) := by
  rw [evalAll, bind_eq_ok]
  refine exists_congr fun c => and_congr_right fun _ => ?_
  by_cases hc : c = how.stop
  · simp [hc, pure, Except.pure, eq_comm]
  · simp [hc]

/-- A connective is settled exactly when some filter in it settles it. -/
theorem evalAll_eq_settled_iff {how : Connective} {sawUnknown : Bool} {as : List Filter} {d : Decision}
    (h : evalAll f z how sawUnknown as = .ok d) :
    d = how.settled ↔ ∃ a ∈ as, a.eval f z = .ok how.stop := by
  induction as generalizing sawUnknown with
  | nil =>
    rw [evalAll] at h
    cases h
    simp [how.finish_ne_settled]
  | cons a as ih =>
    obtain ⟨c, hc, ⟨rfl, hd⟩ | ⟨hgoes, h⟩⟩ := evalAll_cons_eq_ok.mp h
    · exact ⟨fun _ => ⟨a, List.mem_cons_self, hc⟩, fun _ => hd⟩
    · simp [ih h, hc, hgoes]

/-- A connective that is not settled has asked every filter. -/
theorem evals_of_not_settled {how : Connective} {sawUnknown : Bool} {as : List Filter} {d : Decision}
    (h : evalAll f z how sawUnknown as = .ok d) (hne : d ≠ how.settled) :
    ∀ a ∈ as, ∃ c, a.eval f z = .ok c := by
  induction as generalizing sawUnknown with
  | nil => simp
  | cons a as ih =>
    obtain ⟨c, hc, ⟨_, hd⟩ | ⟨_, h⟩⟩ := evalAll_cons_eq_ok.mp h
    · exact absurd hd hne
    · exact List.forall_mem_cons.mpr ⟨⟨c, hc⟩, ih h⟩

/-- A connective that is not settled is unknown exactly when some filter was. -/
theorem evalAll_eq_unknown_iff {how : Connective} {sawUnknown : Bool} {as : List Filter} {d : Decision}
    (h : evalAll f z how sawUnknown as = .ok d) (hne : d ≠ how.settled) :
    d = .unknown ↔ sawUnknown = true ∨ ∃ a ∈ as, a.eval f z = .ok .unknown := by
  induction as generalizing sawUnknown with
  | nil =>
    rw [evalAll] at h
    cases h
    simp [how.finish_eq_unknown_iff]
  | cons a as ih =>
    obtain ⟨c, hc, ⟨_, hd⟩ | ⟨_, h⟩⟩ := evalAll_cons_eq_ok.mp h
    · exact absurd hd hne
    · simp [ih h, hc, or_assoc]

/-- The decisions are those of the filters that a run over them reads. In the place of one that it does
not read there may be any. -/
def AreRead (f : Feature) (z : Zoom) (how : Connective) (as : List Filter) (ds : List Decision) : Prop :=
  ds.length = as.length ∧
    List.Forall₂ (fun a d => a.eval f z = .ok d) (as.take (how.consumed ds)) (ds.take (how.consumed ds))

theorem areRead_cons_stop {how : Connective} {a : Filter} {as : List Filter} {ds : List Decision} :
    AreRead f z how (a :: as) (how.stop :: ds) ↔
      a.eval f z = .ok how.stop ∧ ds.length = as.length := by
  simp [AreRead, how.consumed_cons_stop, and_comm]

theorem areRead_cons_of_ne {how : Connective} {a : Filter} {as : List Filter} {d : Decision}
    {ds : List Decision} (h : d ≠ how.stop) :
    AreRead f z how (a :: as) (d :: ds) ↔ a.eval f z = .ok d ∧ AreRead f z how as ds := by
  simp [AreRead, Connective.consumed_cons_of_ne h, and_left_comm]

/-- Evaluating filters is a run over their decisions. -/
theorem evalAll_eq_ok_iff {how : Connective} {sawUnknown : Bool} {as : List Filter} {d : Decision}
    (read : Nat) : evalAll f z how sawUnknown as = .ok d ↔
      ∃ ds, AreRead f z how as ds ∧ (how.runFrom sawUnknown read ds).1 = d := by
  induction as generalizing sawUnknown read with
  | nil =>
    rw [evalAll]
    constructor
    · intro h
      cases h
      exact ⟨[], ⟨rfl, by simp⟩, rfl⟩
    · rintro ⟨ds, ⟨hlength, _⟩, rfl⟩
      obtain rfl := List.length_eq_zero_iff.mp hlength
      rfl
  | cons a as ih =>
    rw [evalAll_cons_eq_ok]
    constructor
    · rintro ⟨c, hc, ⟨rfl, rfl⟩ | ⟨hgoes, h⟩⟩
      · -- The filters after this one are not asked; any decision will do for them.
        refine ⟨how.stop :: as.map fun _ => .no, areRead_cons_stop.mpr ⟨hc, List.length_map _⟩, ?_⟩
        rw [Connective.runFrom, if_pos rfl]
      · obtain ⟨ds, hds, hd⟩ := (ih (read + 1)).mp h
        refine ⟨c :: ds, (areRead_cons_of_ne hgoes).mpr ⟨hc, hds⟩, ?_⟩
        rw [Connective.runFrom, if_neg hgoes, hd]
    · rintro ⟨ds, hds, hd⟩
      obtain ⟨c, ds, rfl⟩ := List.exists_cons_of_length_eq_add_one hds.1
      rw [Connective.runFrom] at hd
      by_cases hstop : c = how.stop
      · subst hstop
        rw [if_pos rfl] at hd
        exact ⟨how.stop, (areRead_cons_stop.mp hds).1, .inl ⟨rfl, hd.symm⟩⟩
      · rw [if_neg hstop] at hd
        obtain ⟨hc, hds⟩ := (areRead_cons_of_ne hstop).mp hds
        exact ⟨c, hc, .inr ⟨hstop, (ih (read + 1)).mpr ⟨ds, hds, hd⟩⟩⟩

/-- A combination decides exactly if the filters do that its connective reads, and as it does over their
decisions. -/
theorem eval_combine_eq_ok_iff {how : Connective} {as : List Filter} {d : Decision} :
    (combine how as).eval f z = .ok d ↔ ∃ ds, AreRead f z how as ds ∧ how.combine ds = d := by
  rw [eval]
  exact evalAll_eq_ok_iff 0

end Filter

end StyledTiles
