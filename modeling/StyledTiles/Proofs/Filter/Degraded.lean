import Mathlib.Data.List.Forall2
import StyledTiles.Proofs.Filter.Parts
import StyledTiles.Proofs.Filter.Reading

/-!
# Degraded filters

A filter is degraded when some filters in it, reached through connectives alone, are replaced by values
that read as unknown. The degraded value reads as the degraded tree, and the tree decides as before or
cannot tell: a connective that has met an unknown decision can still be settled, but only the way it
would have been settled without it.

Nothing is said about filters inside the conditions of an expression, where an unknown filter is not
accepted and the output of a later branch may be chosen.
-/
namespace StyledTiles

open Outcome

/-- The second decision is the first or unknown. -/
def Decision.Degraded (d d' : Decision) : Prop := d' = d ∨ d' = .unknown

mutual

/-- The second value is the first with filters replaced by values that read as unknown. -/
inductive Json.FilterDegraded : Json → Json → Prop
  | same (j : Json) : FilterDegraded j j
  | replaced (j : Json) {k : Json} (h : Filter.Reader.filter k = .ok .unknown) : FilterDegraded j k
  | within (how : Connective) {js ks : List Json} (h : FiltersDegraded js ks) :
      FilterDegraded (.arr (.str how.name :: js)) (.arr (.str how.name :: ks))

inductive Json.FiltersDegraded : List Json → List Json → Prop
  | nil : FiltersDegraded [] []
  | cons {j k : Json} {js ks : List Json} (head : FilterDegraded j k)
      (tail : FiltersDegraded js ks) : FiltersDegraded (j :: js) (k :: ks)

end

mutual

/-- The second tree is the first with some filters made unknown. -/
inductive Filter.Degraded : Filter → Filter → Prop
  | same (a : Filter) : Degraded a a
  | unknown (a : Filter) : Degraded a .unknown
  | within (how : Connective) {as bs : List Filter} (h : AllDegraded as bs) :
      Degraded (.combine how as) (.combine how bs)

inductive Filter.AllDegraded : List Filter → List Filter → Prop
  | nil : AllDegraded [] []
  | cons {a b : Filter} {as bs : List Filter} (head : Degraded a b) (tail : AllDegraded as bs) :
      AllDegraded (a :: as) (b :: bs)

end

/-! ## Reading -/

namespace Filter.Reader

mutual

/-- Where a filter reads, the degraded one reads as a degraded tree. -/
theorem filter_degraded {j k : Json} {a : Filter} (h : Json.FilterDegraded j k)
    (ha : filter j = .ok a) : ∃ b, filter k = .ok b ∧ a.Degraded b := by
  cases h with
  | same => exact ⟨a, ha, .same a⟩
  | replaced _ hk => exact ⟨.unknown, hk, .unknown a⟩
  | within how h =>
    rw [filter_combine, bind_eq_ok] at ha
    obtain ⟨as, has, ha⟩ := ha
    obtain rfl := pure_eq_ok.mp ha
    obtain ⟨bs, hbs, degraded⟩ := filters_degraded h has
    exact ⟨.combine how bs, by rw [filter_combine, hbs]; rfl, .within how degraded⟩

theorem filters_degraded {js ks : List Json} {as : List Filter} (h : Json.FiltersDegraded js ks)
    (has : filters js = .ok as) : ∃ bs, filters ks = .ok bs ∧ AllDegraded as bs := by
  cases h with
  | nil =>
    rw [filters] at has
    cases has
    exact ⟨[], by rw [filters], .nil⟩
  | cons head tail =>
    rw [filters, bind_eq_ok] at has
    obtain ⟨a, ha, has⟩ := has
    obtain ⟨rest, hrest, has⟩ := bind_eq_ok.mp has
    obtain rfl := pure_eq_ok.mp has
    obtain ⟨b, hb, hab⟩ := filter_degraded head ha
    obtain ⟨bs, hbs, habs⟩ := filters_degraded tail hrest
    exact ⟨b :: bs, by rw [filters, hb, hbs]; rfl, .cons hab habs⟩

end

end Filter.Reader

/-! ## Deciding -/

namespace Filter

variable {f : Feature} {z : Zoom}

/-- Once an unknown decision has been met, a connective is settled or cannot tell. -/
theorem evalAll_of_sawUnknown {how : Connective} {as : List Filter} {d : Decision}
    (h : evalAll f z how true as = .ok d) : d = how.settled ∨ d = .unknown := by
  induction as with
  | nil =>
    rw [evalAll] at h
    cases h
    exact .inr rfl
  | cons a as ih =>
    obtain ⟨c, _, ⟨_, hd⟩ | ⟨_, hrest⟩⟩ := evalAll_cons_eq_ok.mp h
    · exact .inl hd
    · exact ih (by simpa using hrest)

/-- Where each filter of the second run decides as that of the first or cannot tell, so does the whole.
Having met an unknown decision before, the second run may only know less than the first. -/
theorem evalAll_degraded {f' : Feature} {how : Connective} {as bs : List Filter} {saw saw' : Bool}
    {d d' : Decision}
    (h : List.Forall₂ (fun a b => ∀ c c', a.eval f z = .ok c → b.eval f' z = .ok c' → c.Degraded c')
      as bs) (hsaw : saw = true → saw' = true)
    (ha : evalAll f z how saw as = .ok d) (hb : evalAll f' z how saw' bs = .ok d') :
    d.Degraded d' := by
  induction h generalizing saw saw' with
  | nil =>
    rw [evalAll] at ha hb
    cases ha
    cases hb
    cases saw' with
    | true => exact .inr rfl
    | false =>
      have hfalse : saw = false := by simpa using hsaw
      rw [hfalse]
      exact .inl rfl
  | cons head _ ih =>
    obtain ⟨c, hc, ha⟩ := evalAll_cons_eq_ok.mp ha
    obtain ⟨c', hc', hb⟩ := evalAll_cons_eq_ok.mp hb
    have hcc := head c c' hc hc'
    rcases ha with ⟨hstop, hd⟩ | ⟨hstop, ha⟩
    · rcases hb with ⟨_, hd'⟩ | ⟨hgoes, hb⟩
      · exact .inl (hd'.trans hd.symm)
      -- The filter that settled the first run is unknown in the second, which goes on.
      · have hunknown : c' = .unknown := hcc.resolve_left fun heq => hgoes (heq.trans hstop)
        rw [hunknown, decide_eq_true rfl, Bool.or_true] at hb
        rw [hd]
        exact evalAll_of_sawUnknown hb
    · rcases hb with ⟨hstop', _⟩ | ⟨_, hb⟩
      · rcases hcc with heq | hunknown
        · exact absurd (heq.symm.trans hstop') hstop
        · exact absurd (hstop'.symm.trans hunknown) how.stop_ne_unknown
      · refine ih (fun h => ?_) ha hb
        rw [Bool.or_eq_true, decide_eq_true_iff] at h ⊢
        rcases h with h | h
        · exact .inl (hsaw h)
        · rcases hcc with heq | hunknown
          · exact .inr (heq.trans h)
          · exact .inr hunknown

mutual

/-- A degraded filter decides as before or cannot tell. -/
theorem eval_degraded {a b : Filter} {d d' : Decision} (h : a.Degraded b)
    (ha : a.eval f z = .ok d) (hb : b.eval f z = .ok d') : d.Degraded d' := by
  cases h with
  | same =>
    rw [ha] at hb
    exact .inl (Except.ok.inj hb).symm
  | unknown =>
    rw [eval] at hb
    exact .inr (Except.ok.inj hb).symm
  | within how h =>
    rw [eval] at ha hb
    exact evalAll_degraded (evals_degraded h) (fun h => h) ha hb

theorem evals_degraded {as bs : List Filter} (h : AllDegraded as bs) :
    List.Forall₂ (fun a b => ∀ c c', a.eval f z = .ok c → b.eval f z = .ok c' → c.Degraded c')
      as bs := by
  cases h with
  | nil => exact .nil
  | cons head tail => exact .cons (fun _ _ => eval_degraded head) (evals_degraded tail)

end

end Filter

end StyledTiles
