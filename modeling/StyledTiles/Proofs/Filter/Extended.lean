import StyledTiles.Proofs.Filter.Degraded
import StyledTiles.Proofs.Filter.Evaluation

/-!
# Features that carry more

A feature is extended when it gets an identifier, or further properties, beside the scalars that it
carries. What a filter decides about a feature it decides about each extension of it, and what an
expression yields it yields there as well: knowing more can only settle what was unknown.

Two kinds of node look at what a feature lacks and are left out: a choice, which goes on to another
branch where a condition is unknown, and a coalescence, which goes on to another candidate. Tests for
presence, and the name of the zoom, have to find the same in both features.

An extension may carry a number out of range. A filter that was settled without it can meet that number,
and then it decides nothing at all.
-/
namespace StyledTiles

open Outcome

/-- The second feature carries every scalar that the first one does. -/
structure Feature.Extended (f f' : Feature) : Prop where
  geometry : f'.geometry = f.geometry
  id : f.id.isNull = true ∨ f'.idScalar = f.idScalar
  properties : ∀ key v, key ≠ Feature.typeKey → key ≠ Feature.idKey →
    f.get key = .ok (some v) → f'.get key = .ok (some v)

/-- The expression makes no choice and looks for the zoom by name only if both features have the same
under that name. -/
inductive Expression.Steady (f f' : Feature) : Expression → Prop
  | get {name : String} (h : name = zoomKey → f'.get zoomKey = f.get zoomKey) :
      Steady f f' (.get name)
  | literal (v : Scalar) : Steady f f' (.literal v)
  | zoom : Steady f f' .zoom
  | geometryType : Steady f f' .geometryType
  | id : Steady f f' .id
  | switch {input : Expression} {cases : List (List Scalar × Expression)} {fallback : Expression}
      (input_steady : Steady f f' input) (cases_steady : ∀ c ∈ cases, Steady f f' c.2)
      (fallback_steady : Steady f f' fallback) : Steady f f' (.switch input cases fallback)

/-- Keys make no choice, and names tested for presence are there in both features or in neither. -/
inductive Filter.Steady (f f' : Feature) : Filter → Prop
  | compare (negated : Bool) {key : Expression} (value : Scalar) (h : key.Steady f f') :
      Steady f f' (.compare negated key value)
  | member (negated : Bool) {key : Expression} (values : List Scalar) (h : key.Steady f f') :
      Steady f f' (.member negated key values)
  | present (negated : Bool) {key : String} (h : f'.has key = f.has key) :
      Steady f f' (.present negated key)
  | combine (how : Connective) {filters : List Filter} (h : ∀ a ∈ filters, Steady f f' a) :
      Steady f f' (.combine how filters)
  | unknown : Steady f f' .unknown

variable {f f' : Feature} {z : Zoom}

namespace Feature.Extended

theorem idScalar (h : f.Extended f') {v : Scalar} (hv : f.idScalar = .ok (some v)) :
    f'.idScalar = .ok (some v) := by
  rcases h.id with hnull | hid
  · have hnone : f.idScalar = .ok none := by
      unfold Feature.idScalar
      cases hj : f.id with
      | null => rfl
      | _ => rw [hj] at hnull; cases hnull
    rw [hnone] at hv
    cases hv
  · rw [hid, hv]

theorem get (h : f.Extended f') {key : String} {v : Scalar} (hv : f.get key = .ok (some v)) :
    f'.get key = .ok (some v) := by
  by_cases htype : key = Feature.typeKey
  · rw [Feature.get, if_pos htype] at hv ⊢
    rw [h.geometry, hv]
  · by_cases hid : key = Feature.idKey
    · rw [Feature.get, if_neg htype, if_pos hid] at hv ⊢
      exact h.idScalar hv
    · exact h.properties key v htype hid hv

end Feature.Extended

/-! ## What is settled stays settled -/

/-- What an expression yields, it yields by every extension. -/
theorem Expression.Steady.eval_extended {e : Expression} (he : e.Steady f f') (h : f.Extended f')
    {v : Scalar} (hv : e.eval f z = .ok (some v)) : e.eval f' z = .ok (some v) := by
  induction he generalizing v with
  | @get name hzoom =>
    rw [Expression.eval_get_eq_some] at hv ⊢
    rcases hv with hv | ⟨hnone, hname, hz⟩
    · exact .inl (h.get hv)
    · refine .inr ⟨?_, hname, hz⟩
      subst hname
      rw [hzoom rfl, hnone]
  | literal w =>
    rw [Expression.eval] at hv ⊢
    exact hv
  | zoom =>
    rw [Expression.eval] at hv ⊢
    exact hv
  | geometryType =>
    rw [Expression.eval] at hv ⊢
    rw [h.geometry, hv]
  | id =>
    rw [Expression.eval] at hv ⊢
    exact h.idScalar hv
  | switch _ _ _ ihinput ihcases ihfallback =>
    rw [Expression.eval_switch_eq_ok] at hv ⊢
    rcases hv with ⟨_, hnone⟩ | ⟨w, hw, hv⟩
    · cases hnone
    · -- The input is the same in both, so the same output is taken.
      have htaken := Expression.selected_of_all
        (P := fun e => ∀ v, e.eval f z = .ok (some v) → e.eval f' z = .ok (some v))
        (fun c hc _ => ihcases c hc) (fun _ => ihfallback) w
      exact .inr ⟨w, ihinput hw, htaken v hv⟩

theorem Filter.decideOn_extended {key : Expression} {negated : Bool} {test : Scalar → Bool}
    {r r' : Option Scalar} (h : f.Extended f') (hkey : key.Steady f f') (hr : key.eval f z = .ok r)
    (hr' : key.eval f' z = .ok r') : (decideOn negated test r').Degraded (decideOn negated test r) := by
  cases r with
  | none => exact .inr rfl
  | some v =>
    have hv := hkey.eval_extended h hr
    obtain rfl : r' = some v := Except.ok.inj (hr'.symm.trans hv)
    exact .inl rfl

/-- By a feature that is extended a filter decides as by the extension, or cannot tell. -/
theorem Filter.Steady.eval_degraded {a : Filter} (ha : a.Steady f f') (h : f.Extended f')
    {d d' : Decision} (hd : a.eval f z = .ok d) (hd' : a.eval f' z = .ok d') : d'.Degraded d := by
  induction ha generalizing d d' with
  | compare negated value hkey =>
    obtain ⟨r, hr, rfl⟩ := eval_compare_eq_ok.mp hd
    obtain ⟨r', hr', rfl⟩ := eval_compare_eq_ok.mp hd'
    exact decideOn_extended h hkey hr hr'
  | member negated values hkey =>
    obtain ⟨r, hr, rfl⟩ := eval_member_eq_ok.mp hd
    obtain ⟨r', hr', rfl⟩ := eval_member_eq_ok.mp hd'
    exact decideOn_extended h hkey hr hr'
  | present negated hhas =>
    rw [eval] at hd hd'
    cases hd
    cases hd'
    rw [hhas]
    exact .inl rfl
  | combine how _ ih =>
    rw [eval] at hd hd'
    refine evalAll_degraded (List.forall₂_same.mpr fun a ha c c' hc hc' => ?_) (fun h => h) hd' hd
    exact ih a ha hc' hc
  | unknown =>
    rw [eval] at hd
    exact .inr (Except.ok.inj hd).symm

/-- A definite decision is the decision by every extension of the feature about which anything is
decided, and it is where the zoom and the numbers of the extension are in range. What an expression
yields it yields by every extension. -/
theorem definite_answers_persist (h : f.Extended f') (z : Zoom) :
    (∀ a : Filter, a.Steady f f' → ∀ d, a.eval f z = .ok d → d ≠ .unknown →
      (∀ d', a.eval f' z = .ok d' → d' = d) ∧ (z.Fits → f'.Fits → a.eval f' z = .ok d)) ∧
    ∀ e : Expression, e.Steady f f' → ∀ v, e.eval f z = .ok (some v) → e.eval f' z = .ok (some v) := by
  constructor
  · intro a ha d hd hdefinite
    have same : ∀ d', a.eval f' z = .ok d' → d' = d := by
      intro d' hd'
      rcases ha.eval_degraded h hd hd' with heq | hunknown
      · exact heq.symm
      · exact absurd hunknown hdefinite
    refine ⟨same, fun hz hf' => ?_⟩
    obtain ⟨d', hd'⟩ := Filter.eval_ok hf' hz a
    rw [hd', same d' hd']
  · intro e he v hv
    exact he.eval_extended h hv

/-! ## A lake of which more becomes known -/

def barelyKnownLake : Feature :=
  { geometry := .polygon, properties := [("name", .str "Como")] }

def betterKnownLake : Feature :=
  { geometry := .polygon
    properties := [("name", .str "Como"), ("depth", .str "deep")]
    id := .int 7 }

/-- Rejects what has no shape of its own, is ruined, or is ruined and deep. -/
def neitherShapelessNorRuined : Filter := .combine .none [
  .compare false (.switch (.get "name") [([.string "Garda"], .get "depth")] .geometryType)
    (.string "Unknown"),
  .combine .all [.compare false (.get "depth") (.string "deep"), .present false "ruined"],
  .present false "ruined"]

theorem betterKnownLake_extends : barelyKnownLake.Extended betterKnownLake where
  geometry := rfl
  id := .inl rfl
  properties := by
    intro key v htype hid hv
    by_cases hname : key = "name"
    · subst hname
      exact hv
    · have hmissing : barelyKnownLake.get key = .ok none := by
        have hne : (key == "name") = false := by simpa using hname
        simp [Feature.get, htype, hid, barelyKnownLake, Json.member, List.lookup_cons, hne,
          Scalar.ofJson]
      rw [hmissing] at hv
      cases hv

theorem definite_answer_persists_for_a_lake :
    barelyKnownLake.Extended betterKnownLake ∧
    neitherShapelessNorRuined.Steady barelyKnownLake betterKnownLake ∧
    neitherShapelessNorRuined.eval barelyKnownLake (.int 3) = .ok .yes ∧
    neitherShapelessNorRuined.eval betterKnownLake (.int 3) = .ok .yes := by
  have extended := betterKnownLake_extends
  have absent : betterKnownLake.has "ruined" = barelyKnownLake.has "ruined" := rfl
  have named (name : String) (h : name ≠ zoomKey) :
      (Expression.get name).Steady barelyKnownLake betterKnownLake := .get fun heq => absurd heq h
  have steady : neitherShapelessNorRuined.Steady barelyKnownLake betterKnownLake := by
    refine .combine .none ?_
    simp only [List.forall_mem_cons, List.not_mem_nil, false_imp_iff, implies_true, and_true]
    refine ⟨.compare false _ (.switch (named "name" (by decide)) ?_ .geometryType), .combine .all ?_,
      .present false absent⟩
    · simpa using named "depth" (by decide)
    · simpa using ⟨.compare false _ (named "depth" (by decide)), .present false absent⟩
  have before : neitherShapelessNorRuined.eval barelyKnownLake (.int 3) = .ok .yes := rfl
  have fits : betterKnownLake.Fits := by
    refine ⟨?_, by simp [betterKnownLake, Json.MembersFit]⟩
    rw [betterKnownLake, Json.int, Json.fits_num]
    decide +kernel
  obtain ⟨_, persists⟩ := (definite_answers_persist extended (.int 3)).1 _ steady _ before (by decide)
  exact ⟨extended, steady, before, persists (by decide +kernel) fits⟩

def deepOrAny : Filter := .combine .any [.compare false (.get "depth") (.string "deep"), .always]

/-- A definite decision may be lost: where the depth is not known the second alternative settles it,
and where the depth is known it may be out of range. -/
theorem definite_answer_may_be_lost : ¬ ∀ (f f' : Feature) (z : Zoom) (a : Filter) (d : Decision),
    f.Extended f' → a.Steady f f' → a.eval f z = .ok d → d ≠ .unknown → a.eval f' z = .ok d := by
  intro always
  have extended : Feature.Extended {} fathomlessLake := by
    refine ⟨rfl, .inl rfl, fun key v htype hid hv => ?_⟩
    have hmissing : Feature.get {} key = .ok none := by
      simp [Feature.get, htype, hid, Json.member, Scalar.ofJson]
    rw [hmissing] at hv
    cases hv
  have steady : deepOrAny.Steady {} fathomlessLake := by
    refine .combine .any ?_
    simpa using ⟨.compare false _ (.get fun heq => absurd heq (by decide)), .combine .all (by simp)⟩
  have kept := always {} fathomlessLake (.int 3) deepOrAny .yes extended steady rfl (by decide)
  have fails : deepOrAny.eval fathomlessLake (.int 3) = .error ⟨⟩ := by decide +kernel
  cases fails.symm.trans kept

end StyledTiles
