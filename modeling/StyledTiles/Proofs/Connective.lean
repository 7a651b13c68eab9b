import Mathlib.Order.Bounds.Defs
import Mathlib.Order.Lattice
import StyledTiles.Proofs.Decision

/-!
# Connectives

A connective of a list of decisions is their greatest, their least, or the opposite of their greatest. A
run over the list comes to it without reading more than it has to. As soon as a decision settles the
result, what was read has it for every continuation; before that, what was read has one result if nothing
follows and another if a decision follows that settles it. So no run that comes to the connective of every
list can stop earlier, and a list in which nothing settles it has to be read to its end.
-/
namespace StyledTiles.Connective

/-! ## Ends of a run -/

theorem stop_ne_unknown (how : Connective) : how.stop ≠ .unknown := by
  cases how <;> decide

theorem settled_ne_unknown (how : Connective) : how.settled ≠ .unknown := by
  cases how <;> decide

theorem exhausted_ne_unknown (how : Connective) : how.exhausted ≠ .unknown := by
  cases how <;> decide

theorem finish_ne_settled (how : Connective) (sawUnknown : Bool) :
    how.finish sawUnknown ≠ how.settled := by
  cases how <;> cases sawUnknown <;> decide

theorem finish_eq_unknown_iff (how : Connective) (sawUnknown : Bool) :
    how.finish sawUnknown = .unknown ↔ sawUnknown = true := by
  cases how <;> cases sawUnknown <;> decide

/-- The result of a connective is known by whether it was settled and whether it is unknown. -/
theorem eq_of_settled_unknown {how : Connective} {d d' : Decision}
    (hsettled : d = how.settled ↔ d' = how.settled) (hunknown : d = .unknown ↔ d' = .unknown) :
    d = d' := by
  cases how <;> cases d <;> cases d' <;> simp [settled] at hsettled hunknown ⊢

/-! ## Runs -/

/-- A run over decisions of which none settles the result reads them all. -/
theorem runFrom_of_notMem {how : Connective} {ds : List Decision} (h : how.stop ∉ ds)
    (sawUnknown : Bool) (read : Nat) :
    how.runFrom sawUnknown read ds =
      (how.finish (sawUnknown || decide (.unknown ∈ ds)), read + ds.length) := by
  induction ds generalizing sawUnknown read with
  | nil => simp [runFrom]
  | cons d ds ih =>
    obtain ⟨hgoes, hds⟩ := List.ne_and_not_mem_of_not_mem_cons h
    have hsaw : (sawUnknown || decide (d = .unknown) || decide (.unknown ∈ ds)) =
        (sawUnknown || decide (.unknown ∈ d :: ds)) := by
      simp [Bool.or_assoc, eq_comm]
    have hread : read + 1 + ds.length = read + (d :: ds).length := by
      rw [List.length_cons]
      omega
    rw [runFrom, if_neg hgoes.symm, ih hds, hsaw, hread]

/-- A run reads up to the first decision that settles the result. -/
theorem runFrom_append_stop {how : Connective} {before : List Decision} (h : how.stop ∉ before)
    (after : List Decision) (sawUnknown : Bool) (read : Nat) :
    how.runFrom sawUnknown read (before ++ how.stop :: after) =
      (how.settled, read + (before.length + 1)) := by
  induction before generalizing sawUnknown read with
  | nil => simp [runFrom]
  | cons d before ih =>
    obtain ⟨hgoes, hbefore⟩ := List.ne_and_not_mem_of_not_mem_cons h
    have hread : read + 1 + (before.length + 1) = read + ((d :: before).length + 1) := by
      rw [List.length_cons]
      omega
    rw [List.cons_append, runFrom, if_neg hgoes.symm, ih hbefore, hread]

theorem combine_of_notMem {how : Connective} {ds : List Decision} (h : how.stop ∉ ds) :
    how.combine ds = how.finish (decide (.unknown ∈ ds)) := by
  rw [combine, run, runFrom_of_notMem h, Bool.false_or]

theorem combine_of_mem {how : Connective} {ds : List Decision} (h : how.stop ∈ ds) :
    how.combine ds = how.settled := by
  obtain ⟨before, after, rfl, hbefore⟩ := List.eq_append_cons_of_mem h
  rw [combine, run, runFrom_append_stop hbefore]

theorem consumed_of_notMem {how : Connective} {ds : List Decision} (h : how.stop ∉ ds) :
    how.consumed ds = ds.length := by
  rw [consumed, run, runFrom_of_notMem h, Nat.zero_add]

theorem consumed_append_stop {how : Connective} {before : List Decision} (h : how.stop ∉ before)
    (after : List Decision) : how.consumed (before ++ how.stop :: after) = before.length + 1 := by
  rw [consumed, run, runFrom_append_stop h, Nat.zero_add]

theorem consumed_cons_stop (how : Connective) (ds : List Decision) :
    how.consumed (how.stop :: ds) = 1 :=
  consumed_append_stop List.not_mem_nil ds

theorem consumed_cons_of_ne {how : Connective} {d : Decision} (h : d ≠ how.stop)
    (ds : List Decision) : how.consumed (d :: ds) = how.consumed ds + 1 := by
  by_cases hstop : how.stop ∈ ds
  · obtain ⟨before, after, rfl, hbefore⟩ := List.eq_append_cons_of_mem hstop
    have hbefore' : how.stop ∉ d :: before := List.not_mem_cons_of_ne_of_not_mem h.symm hbefore
    rw [consumed_append_stop hbefore, ← List.cons_append, consumed_append_stop hbefore',
      List.length_cons]
  · have hds : how.stop ∉ d :: ds := List.not_mem_cons_of_ne_of_not_mem h.symm hstop
    rw [consumed_of_notMem hstop, consumed_of_notMem hds, List.length_cons]

/-! ## Three-valued logic -/

/-- A connective in three-valued logic: the greatest decision of a list, the least one, or the opposite of
the greatest. -/
def kleene : Connective → List Decision → Decision
  | .all, ds => ds.foldr min .yes
  | .any, ds => ds.foldr max .no
  | .none, ds => (ds.foldr max .no).not

/-- One more decision settles the result, or leaves in doubt what the others do not settle, or changes
nothing. -/
theorem kleene_cons (how : Connective) (d : Decision) (ds : List Decision) :
    how.kleene (d :: ds) =
      if d = how.stop then how.settled
      else if d = .unknown ∧ how.kleene ds ≠ how.settled then .unknown
      else how.kleene ds := by
  -- The connective of the rest may be any decision, so this is a fact about two of them.
  cases how with
  | all =>
    have hmin : ∀ rest, min d rest =
        if d = .no then .no else if d = .unknown ∧ rest ≠ .no then .unknown else rest := by
      intro rest
      cases d <;> cases rest <;> rfl
    exact hmin (ds.foldr min .yes)
  | any =>
    have hmax : ∀ rest, max d rest =
        if d = .yes then .yes else if d = .unknown ∧ rest ≠ .yes then .unknown else rest := by
      intro rest
      cases d <;> cases rest <;> rfl
    exact hmax (ds.foldr max .no)
  | none =>
    have hmax : ∀ rest, (max d rest).not =
        if d = .yes then .no else if d = .unknown ∧ rest.not ≠ .no then .unknown else rest.not := by
      intro rest
      cases d <;> cases rest <;> rfl
    exact hmax (ds.foldr max .no)

theorem kleene_of_mem {how : Connective} {ds : List Decision} (h : how.stop ∈ ds) :
    how.kleene ds = how.settled := by
  induction h with
  | head ds => rw [kleene_cons, if_pos rfl]
  | @tail d ds _ ih =>
    have hrest : ¬ (d = .unknown ∧ how.kleene ds ≠ how.settled) := fun hd => hd.2 ih
    rw [kleene_cons, if_neg hrest, ih, ite_self]

theorem kleene_of_notMem {how : Connective} {ds : List Decision} (h : how.stop ∉ ds) :
    how.kleene ds = how.finish (decide (.unknown ∈ ds)) := by
  induction ds with
  | nil => cases how <;> rfl
  | cons d ds ih =>
    obtain ⟨hgoes, hds⟩ := List.ne_and_not_mem_of_not_mem_cons h
    rw [kleene_cons, if_neg hgoes.symm, ih hds]
    by_cases hd : d = .unknown
    · subst hd
      rw [if_pos ⟨rfl, how.finish_ne_settled _⟩, decide_eq_true List.mem_cons_self]
      rfl
    · rw [if_neg fun hdoubt => hd hdoubt.1]
      simp [Ne.symm hd]

/-- A list has the settled result exactly if a decision in it settles it. -/
theorem kleene_eq_settled_iff {how : Connective} {ds : List Decision} :
    how.kleene ds = how.settled ↔ how.stop ∈ ds := by
  refine ⟨fun h => ?_, kleene_of_mem⟩
  by_contra hmem
  exact how.finish_ne_settled _ ((kleene_of_notMem hmem).symm.trans h)

theorem combine_eq_kleene (how : Connective) (ds : List Decision) : how.combine ds = how.kleene ds := by
  by_cases h : how.stop ∈ ds
  · rw [combine_of_mem h, kleene_of_mem h]
  · rw [combine_of_notMem h, kleene_of_notMem h]

/-! ## Reading no more than it takes -/

/-- The first `n` decisions determine the connective: it is the same for every list that begins with
them. -/
def DeterminedBy (how : Connective) (ds : List Decision) (n : Nat) : Prop :=
  n ≤ ds.length ∧ ∀ es, ds.take n <+: es → how.kleene es = how.kleene ds

theorem determinedBy_iff {how : Connective} {ds : List Decision} {n : Nat} :
    how.DeterminedBy ds n ↔ n ≤ ds.length ∧ how.stop ∈ ds.take n := by
  refine and_congr_right fun _ => ⟨fun h => ?_, fun hstop es hes => ?_⟩
  · -- Nothing may follow these decisions, or one that settles the result.
    have hends : how.kleene (ds.take n) = how.kleene ds := h _ (List.prefix_refl _)
    have hfollowed : how.kleene (ds.take n ++ [how.stop]) = how.kleene ds :=
      h _ (List.prefix_append _ _)
    have hsettled : how.kleene (ds.take n ++ [how.stop]) = how.settled :=
      kleene_of_mem (List.mem_append_right _ List.mem_cons_self)
    exact kleene_eq_settled_iff.mp (hends.trans (hfollowed.symm.trans hsettled))
  · rw [kleene_of_mem (hes.subset hstop), kleene_of_mem (List.mem_of_mem_take hstop)]

theorem DeterminedBy.stop_mem {how : Connective} {ds : List Decision} {n : Nat}
    (h : how.DeterminedBy ds n) : how.stop ∈ ds :=
  List.mem_of_mem_take (determinedBy_iff.mp h).2

/-- If a decision settles the result, what a run reads determines the connective. -/
theorem determinedBy_consumed {how : Connective} {ds : List Decision} (h : how.stop ∈ ds) :
    how.DeterminedBy ds (how.consumed ds) := by
  obtain ⟨before, after, rfl, hbefore⟩ := List.eq_append_cons_of_mem h
  rw [consumed_append_stop hbefore]
  apply determinedBy_iff.mpr
  constructor
  · rw [List.length_append, List.length_cons]
    omega
  · rw [List.take_length_add_append, List.take_succ_cons]
    exact List.mem_append_right _ List.mem_cons_self

theorem DeterminedBy.consumed_le {how : Connective} {ds : List Decision} {n : Nat}
    (h : how.DeterminedBy ds n) : how.consumed ds ≤ n := by
  obtain ⟨before, after, rfl, hbefore⟩ := List.eq_append_cons_of_mem h.stop_mem
  rw [consumed_append_stop hbefore]
  by_contra hfewer
  have hn : n ≤ before.length := by omega
  have hstop := (determinedBy_iff.mp h).2
  rw [List.take_append_of_le_length hn] at hstop
  exact hbefore (List.mem_of_mem_take hstop)

/-- A run comes to the connective and reads the least number of decisions that determine it, or the whole
list if no number does. -/
theorem reads_the_least_that_determines (how : Connective) (ds : List Decision) :
    how.combine ds = how.kleene ds ∧
      (IsLeast {n | how.DeterminedBy ds n} (how.consumed ds) ∨
        (∀ n, ¬ how.DeterminedBy ds n) ∧ how.consumed ds = ds.length) := by
  refine ⟨how.combine_eq_kleene ds, ?_⟩
  by_cases h : how.stop ∈ ds
  · left
    exact ⟨determinedBy_consumed h, fun n hn => hn.consumed_le⟩
  · right
    exact ⟨fun n hn => h hn.stop_mem, consumed_of_notMem h⟩

example : any.run [.no, .yes, .unknown] = (.yes, 2) := by decide

end StyledTiles.Connective
