import StyledTiles.Proofs.Filter.Congruence
import StyledTiles.Proofs.Filter.Evaluation
import StyledTiles.Proofs.Filter.Induction
import StyledTiles.Proofs.Pairing

/-!
# Reordered filters

A tree is reordered when things that are alternatives or requirements of each other change places in it,
at any number of nodes: the filters of a connective, the values of a membership test, the labels of one
case of a switch. The cases of a switch, the branches of a choice and the candidates of a coalescence
keep their order, since there the first that fits is taken.

A connective stops at the filter that settles it, so the order decides which filters are asked. It does
not decide the result: which filter settles a connective, and which are in doubt, is a matter of the
filters alone. It does decide whether there is a result, as a number out of range is met only by a filter
that is asked.
-/
namespace StyledTiles

open Outcome

mutual

/-- The second expression is the first with the trees and labels in it reordered. -/
inductive Expression.Reordered : Expression → Expression → Prop
  | same (e : Expression) : Expression.Reordered e e
  | switch {input input' : Expression} {cases cases' : List (List Scalar × Expression)}
      {fallback fallback' : Expression} (input_reordered : Expression.Reordered input input')
      (labels : List.Forall₂ List.Perm (cases.map Prod.fst) (cases'.map Prod.fst))
      (outputs : List.Forall₂ Expression.Reordered (cases.map Prod.snd) (cases'.map Prod.snd))
      (fallback_reordered : Expression.Reordered fallback fallback') :
      Expression.Reordered (.switch input cases fallback) (.switch input' cases' fallback')
  | choose {branches branches' : List (Filter × Expression)} {fallback fallback' : Expression}
      (conditions : List.Forall₂ Filter.Reordered (branches.map Prod.fst) (branches'.map Prod.fst))
      (outputs : List.Forall₂ Expression.Reordered (branches.map Prod.snd) (branches'.map Prod.snd))
      (fallback_reordered : Expression.Reordered fallback fallback') :
      Expression.Reordered (.choose branches fallback) (.choose branches' fallback')
  | coalesce {candidates candidates' : List Expression}
      (h : List.Forall₂ Expression.Reordered candidates candidates') :
      Expression.Reordered (.coalesce candidates) (.coalesce candidates')

/-- The second filter is the first with filters, values and labels in it reordered. -/
inductive Filter.Reordered : Filter → Filter → Prop
  | same (a : Filter) : Filter.Reordered a a
  | compare (negated : Bool) {key key' : Expression} (value : Scalar)
      (h : Expression.Reordered key key') :
      Filter.Reordered (.compare negated key value) (.compare negated key' value)
  | member (negated : Bool) {key key' : Expression} {values values' : List Scalar}
      (h : Expression.Reordered key key') (perm : values.Perm values') :
      Filter.Reordered (.member negated key values) (.member negated key' values')
  | combine (how : Connective) {as bs cs : List Filter} (h : List.Forall₂ Filter.Reordered as bs)
      (perm : bs.Perm cs) : Filter.Reordered (.combine how as) (.combine how cs)

end

theorem Scalar.closeToAny_perm {vs ws : List Scalar} (h : vs.Perm ws) (v : Scalar) :
    v.closeToAny vs = v.closeToAny ws := by
  rw [Bool.eq_iff_iff, closeToAny, closeToAny, List.any_eq_true, List.any_eq_true]
  simp only [h.mem_iff]

variable {f : Feature} {z : Zoom}

/-! ## Filters -/

namespace Filter

/-- Each filter of the first list has one in the second that agrees with it. -/
def Matched (f : Feature) (z : Zoom) (as bs : List Filter) : Prop :=
  ∀ a ∈ as, ∃ b ∈ bs, Agree (a.eval f z) (b.eval f z)

/-- What settles one run would settle the other if it were asked. -/
theorem Matched.settled {how : Connective} {as bs : List Filter} {d d' : Decision}
    (h : Matched f z as bs) (hd : evalAll f z how false as = .ok d)
    (hd' : evalAll f z how false bs = .ok d') (hsettled : d = how.settled) : d' = how.settled := by
  by_contra hne
  obtain ⟨a, ha, hstop⟩ := (evalAll_eq_settled_iff hd).mp hsettled
  obtain ⟨b, hb, agree⟩ := h a ha
  obtain ⟨c, hc⟩ := evals_of_not_settled hd' hne b hb
  obtain rfl := agree _ _ hstop hc
  exact hne ((evalAll_eq_settled_iff hd').mpr ⟨b, hb, hc⟩)

/-- Where neither run is settled, all filters of both are asked and one that is in doubt is found. -/
theorem Matched.unknown {how : Connective} {as bs : List Filter} {d d' : Decision}
    (h : Matched f z as bs) (hd : evalAll f z how false as = .ok d)
    (hd' : evalAll f z how false bs = .ok d') (hne : d' ≠ how.settled) (hunknown : d = .unknown) :
    d' = .unknown := by
  have hne' : d ≠ how.settled := fun heq => how.settled_ne_unknown (heq.symm.trans hunknown)
  obtain ⟨a, ha, hdoubt⟩ := ((evalAll_eq_unknown_iff hd hne').mp hunknown).resolve_left nofun
  obtain ⟨b, hb, agree⟩ := h a ha
  obtain ⟨c, hc⟩ := evals_of_not_settled hd' hne b hb
  obtain rfl := agree _ _ hdoubt hc
  exact (evalAll_eq_unknown_iff hd' hne).mpr (.inr ⟨b, hb, hc⟩)

/-- A connective comes to the same result on lists that match each other, however they are ordered. -/
theorem evalAll_agree {how : Connective} {as bs : List Filter} (forth : Matched f z as bs)
    (back : Matched f z bs as) : Agree (evalAll f z how false as) (evalAll f z how false bs) := by
  intro d d' hd hd'
  have hsettled : d = how.settled ↔ d' = how.settled := ⟨forth.settled hd hd', back.settled hd' hd⟩
  refine Connective.eq_of_settled_unknown hsettled ⟨fun hunknown => ?_, fun hunknown => ?_⟩
  · refine forth.unknown hd hd' (fun heq => ?_) hunknown
    exact how.settled_ne_unknown ((hsettled.mpr heq).symm.trans hunknown)
  · refine back.unknown hd' hd (fun heq => ?_) hunknown
    exact how.settled_ne_unknown ((hsettled.mp heq).symm.trans hunknown)

end Filter

/-- Where a tree and the reordered one both yield a result, it is the same. -/
theorem reordered_agree (f : Feature) (z : Zoom) :
    ByParts (fun e => ∀ e', e.Reordered e' → Agree (e.eval f z) (e'.eval f z))
      (fun a => ∀ b, a.Reordered b → Agree (a.eval f z) (b.eval f z)) where
  get name e' h := by
    cases h
    exact .refl _
  literal v e' h := by
    cases h
    exact .refl _
  zoom e' h := by
    cases h
    exact .refl _
  geometryType e' h := by
    cases h
    exact .refl _
  id e' h := by
    cases h
    exact .refl _
  switch hinput hcases hfallback e' h := by
    cases h with
    | same => exact .refl _
    | switch input_reordered labels outputs fallback_reordered =>
      refine Expression.eval_switch_related .agree (hinput _ input_reordered) ?_
        (hfallback _ fallback_reordered)
      exact forall₂_imp_of_mem (forall₂_of_parts labels outputs)
        fun c hc c' h => ⟨Scalar.closeToAny_perm h.1, hcases c hc _ h.2⟩
  choose hbranches hfallback e' h := by
    cases h with
    | same => exact .refl _
    | choose conditions outputs fallback_reordered =>
      refine Expression.eval_choose_related .agree ?_ (hfallback _ fallback_reordered)
      exact forall₂_imp_of_mem (forall₂_of_parts conditions outputs)
        fun b hb b' h => ⟨(hbranches b hb).1 _ h.1, (hbranches b hb).2 _ h.2⟩
  coalesce hcandidates e' h := by
    cases h with
    | same => exact .refl _
    | coalesce hreordered =>
      exact Expression.eval_coalesce_related .agree (forall₂_imp_of_mem hreordered hcandidates)
  compare negated _ value hkey b h := by
    cases h with
    | same => exact .refl _
    | compare _ _ hreordered =>
      exact Filter.eval_compare_related .agree (hkey _ hreordered) negated value
  member negated _ values hkey b h := by
    cases h with
    | same => exact .refl _
    | member _ hreordered perm =>
      exact Filter.eval_member_related .agree (hkey _ hreordered) (Scalar.closeToAny_perm perm) negated
  present negated key b h := by
    cases h
    exact .refl _
  combine how as has b h := by
    cases h with
    | same => exact .refl _
    | combine _ hreordered perm =>
      have agreeing := forall₂_imp_of_mem hreordered has
      rw [Filter.eval, Filter.eval]
      refine Filter.evalAll_agree (fun a ha => ?_) fun c hc => ?_
      · obtain ⟨c, hc, agree⟩ := exists_partner agreeing a ha
        exact ⟨c, perm.mem_iff.mp hc, agree⟩
      · obtain ⟨a, ha, agree⟩ := exists_partner_right agreeing c (perm.mem_iff.mpr hc)
        exact ⟨a, ha, agree.symm⟩
  unknown b h := by
    cases h
    exact .refl _

/-- A filter and the reordered one decide the same wherever both decide, and an expression and the
reordered one yield the same wherever both yield. They do where the zoom and the numbers of the feature
are in range. -/
theorem order_inside_filters_does_not_matter (f : Feature) (z : Zoom) :
    (∀ a b : Filter, a.Reordered b →
      (∀ d d', a.eval f z = .ok d → b.eval f z = .ok d' → d = d') ∧
      (z.Fits → f.Fits → ∃ d, a.eval f z = .ok d ∧ b.eval f z = .ok d)) ∧
    ∀ e e' : Expression, e.Reordered e' →
      (∀ r r', e.eval f z = .ok r → e'.eval f z = .ok r' → r = r') ∧
      (z.Fits → f.Fits → ∃ r, e.eval f z = .ok r ∧ e'.eval f z = .ok r) := by
  have agree := reordered_agree f z
  constructor
  · intro a b h
    have hab := agree.filter a b h
    exact ⟨hab, fun hz hf => hab.both (Filter.eval_ok hf hz a) (Filter.eval_ok hf hz b)⟩
  · intro e e' h
    have hee := agree.expression e e' h
    exact ⟨hee, fun hz hf => hee.both (Expression.eval_ok hf hz e) (Expression.eval_ok hf hz e')⟩

/-! ## Fresh water and salt water -/

/-- Salt water is tidal or called a sea. -/
def isSalt : Filter :=
  .combine .any [.present false "tide", .compare false (.get "class") (.string "sea")]

def isSaltAgain : Filter :=
  .combine .any [.compare false (.get "class") (.string "sea"), .present false "tide"]

/-- The taste of water, if it is not a well. -/
def taste (salt : Filter) (shapes : List Scalar) : Expression :=
  .switch .geometryType [(shapes, .choose [(salt, .literal (.string "salt"))] (.get "class"))]
    (.get "well")

def isFresh : Filter := .combine .none [
  .member false (taste isSalt [.string "Polygon", .string "LineString"])
    [.string "salt", .string "brackish"],
  .compare false (.get "class") (.string "sea")]

def isFreshAgain : Filter := .combine .none [
  .compare false (.get "class") (.string "sea"),
  .member false (taste isSaltAgain [.string "LineString", .string "Polygon"])
    [.string "brackish", .string "salt"]]

def freshLake : Feature := { geometry := .polygon, properties := [("class", .str "lake")] }

theorem taste_reordered : (taste isSalt [.string "Polygon", .string "LineString"]).Reordered
    (taste isSaltAgain [.string "LineString", .string "Polygon"]) := by
  have salt : isSalt.Reordered isSaltAgain :=
    .combine .any (List.forall₂_same.mpr fun a _ => .same a) (.swap _ _ _)
  have output : (Expression.choose [(isSalt, .literal (.string "salt"))] (.get "class")).Reordered
      (.choose [(isSaltAgain, .literal (.string "salt"))] (.get "class")) :=
    .choose (.cons salt .nil) (.cons (.same _) .nil) (.same _)
  exact .switch (.same _) (.cons (.swap _ _ _) .nil) (.cons output .nil) (.same _)

theorem fresh_in_either_order :
    isFresh.Reordered isFreshAgain ∧ freshLake.Fits ∧
    isFresh.eval freshLake (.int 3) = .ok .yes ∧ isFreshAgain.eval freshLake (.int 3) = .ok .yes ∧
    ∃ r, (taste isSalt [.string "Polygon", .string "LineString"]).eval freshLake (.int 3) = .ok r ∧
      (taste isSaltAgain [.string "LineString", .string "Polygon"]).eval freshLake (.int 3) = .ok r := by
  have reordered : isFresh.Reordered isFreshAgain :=
    .combine .none (.cons (.member false taste_reordered (.swap _ _ _)) (.cons (.same _) .nil))
      (.swap _ _ _)
  have fits : freshLake.Fits := ⟨by simp [freshLake], by simp [freshLake, Json.MembersFit]⟩
  have zoom_fits : Number.Fits (.int 3) := by decide
  obtain ⟨filters, expressions⟩ := order_inside_filters_does_not_matter freshLake (.int 3)
  have before : isFresh.eval freshLake (.int 3) = .ok .yes := rfl
  obtain ⟨same, decides⟩ := filters _ _ reordered
  obtain ⟨d, _, after⟩ := decides zoom_fits fits
  obtain rfl := same _ d before after
  exact ⟨reordered, fits, before, after, (expressions _ _ taste_reordered).2 zoom_fits fits⟩

def isDeepWater : Filter := .compare false (.get "depth") (.string "deep")

/-- Whether a filter decides at all may hang on the order: the second of two alternatives is not asked
once the first is met, and it may have come upon a number out of range. -/
theorem reordered_filter_may_not_decide : ¬ ∀ (f : Feature) (z : Zoom) (a b : Filter) (d : Decision),
    a.Reordered b → a.eval f z = .ok d → b.eval f z = .ok d := by
  intro always
  have reordered : (Filter.combine .any [.always, isDeepWater]).Reordered
      (.combine .any [isDeepWater, .always]) :=
    .combine .any (List.forall₂_same.mpr fun a _ => .same a) (.swap _ _ _)
  have decides := always fathomlessLake (.int 3) _ _ .yes reordered rfl
  have fails : (Filter.combine .any [isDeepWater, .always]).eval fathomlessLake (.int 3) =
      .error ⟨⟩ := by decide +kernel
  cases fails.symm.trans decides

end StyledTiles
