import Mathlib.Data.List.TakeWhile
import StyledTiles.Proofs.Pairing
import StyledTiles.Proofs.Style.Deciding

/-!
# A style as a disjunction

The layers of a source-layer that are drawn at a zoom are asked in the order of the document. Each of them
stands for its filter, or for the filter that accepts everything if it has none, and asking them is
evaluating the disjunction of these filters: it gives the same decision, and fails where that fails. The
count beside the decision is that of the unknown decisions before the first yes.

A filter after the first yes is not asked. So the decisions may be listed with anything in the place of
one that is not there because a number is out of range.
-/
namespace StyledTiles

open Outcome

namespace Decision

/-- How many decisions before the first yes are unknown. -/
def unknownsBeforeYes (ds : List Decision) : Nat := (ds.takeWhile fun d => d != .yes).count .unknown

@[simp] theorem unknownsBeforeYes_nil : unknownsBeforeYes [] = 0 := rfl

@[simp] theorem unknownsBeforeYes_yes (ds : List Decision) : unknownsBeforeYes (.yes :: ds) = 0 := rfl

@[simp] theorem unknownsBeforeYes_unknown (ds : List Decision) :
    unknownsBeforeYes (.unknown :: ds) = unknownsBeforeYes ds + 1 := by
  simp [unknownsBeforeYes]

@[simp] theorem unknownsBeforeYes_no (ds : List Decision) :
    unknownsBeforeYes (.no :: ds) = unknownsBeforeYes ds := by
  simp [unknownsBeforeYes]

theorem unknownsBeforeYes_of_notMem {ds : List Decision} (h : .yes ∉ ds) :
    unknownsBeforeYes ds = ds.count .unknown := by
  have hall : ∀ d ∈ ds, (d != .yes) = true := fun d hd => bne_iff_ne.mpr fun hyes => h (hyes ▸ hd)
  rw [unknownsBeforeYes, List.takeWhile_eq_self_iff.mpr hall]

end Decision

open Decision (unknownsBeforeYes)

/-- Without a yes the number of unknown decisions tells the result of a disjunction. -/
theorem Connective.combine_any (ds : List Decision) :
    Connective.any.combine ds =
      if .yes ∈ ds then .yes else if 0 < unknownsBeforeYes ds then .unknown else .no := by
  by_cases h : any.stop ∈ ds
  · have hyes : Decision.yes ∈ ds := h
    rw [combine_of_mem h, if_pos hyes]
    rfl
  · have hyes : Decision.yes ∉ ds := h
    rw [combine_of_notMem h, if_neg hyes, Decision.unknownsBeforeYes_of_notMem hyes]
    simp [finish, exhausted, List.count_pos_iff]

/-- What the layer asks of a feature: its filter, or nothing. -/
def Layer.rule (layer : Layer) : Filter := layer.filter.getD .always

theorem Filter.eval_always (f : Feature) (z : Zoom) : Filter.always.eval f z = .ok .yes := by
  rw [always, eval, evalAll]
  rfl

theorem Layer.answer_of_drawn {layer : Layer} {z : Zoom} (h : layer.isDrawn z = true) (f : Feature) :
    layer.answer z f = layer.rule.eval f z := by
  rw [answer, if_pos h, rule]
  cases layer.filter with
  | none => exact (Filter.eval_always f z).symm
  | some filter => rfl

/-- The list has the decision of each filter that decides; for the others it has any. -/
def Filter.Told (f : Feature) (z : Zoom) (filters : List Filter) (ds : List Decision) : Prop :=
  List.Forall₂ (fun filter d => ∀ d', filter.eval f z = .ok d' → d' = d) filters ds

namespace Style

variable {z : Zoom} {f : Feature}

/-- What the layers that are drawn at a zoom ask of a feature. -/
def rulesAt (z : Zoom) (layers : List Layer) : List Filter :=
  (layers.filter fun layer => layer.isDrawn z).map Layer.rule

theorem rulesAt_drawn {layer : Layer} (h : layer.isDrawn z = true) (rest : List Layer) :
    rulesAt z (layer :: rest) = layer.rule :: rulesAt z rest := by
  simp [rulesAt, h]

theorem rulesAt_hidden {layer : Layer} (h : layer.isDrawn z = false) (rest : List Layer) :
    rulesAt z (layer :: rest) = rulesAt z rest := by
  simp [rulesAt, h]

/-- Asking the layers is evaluating a disjunction, of which the count is the flag. -/
theorem decideFrom_fst (unknowns : Nat) (layers : List Layer) :
    (decideFrom z f unknowns layers).map Prod.fst =
      Filter.evalAll f z .any (unknowns != 0) (rulesAt z layers) := by
  induction layers generalizing unknowns with
  | nil =>
    rw [decideFrom, rulesAt, List.filter_nil, List.map_nil, Filter.evalAll]
    by_cases h : unknowns = 0 <;> simp [Except.map, undecided, Connective.finish, Connective.exhausted, h]
  | cons layer rest ih =>
    rw [decideFrom_cons]
    cases h : layer.isDrawn z with
    | false =>
      rw [Layer.answer_of_not_drawn h, rulesAt_hidden h]
      exact ih unknowns
    | true =>
      rw [Layer.answer_of_drawn h, rulesAt_drawn h, Filter.evalAll]
      cases layer.rule.eval f z with
      | error e => rfl
      | ok d =>
        cases d with
        | yes => rfl
        | unknown =>
          have hflag : (unknowns + 1 != 0) = (unknowns != 0 || decide (Decision.unknown = .unknown)) := by
            simp
          exact (ih (unknowns + 1)).trans (congrArg (Filter.evalAll f z .any · _) hflag)
        | no =>
          have hflag : (unknowns != 0) = (unknowns != 0 || decide (Decision.no = .unknown)) := by simp
          exact (ih unknowns).trans (congrArg (Filter.evalAll f z .any · _) hflag)

/-- Where asking the layers gives a result, it is that of the decisions they make. -/
theorem decideFrom_told {unknowns : Nat} {layers : List Layer} {ds : List Decision}
    {r : Decision × Nat} (h : decideFrom z f unknowns layers = .ok r)
    (told : Filter.Told f z (rulesAt z layers) ds) (read : Nat) :
    r = ((Connective.any.runFrom (unknowns != 0) read ds).1, unknowns + unknownsBeforeYes ds) := by
  induction layers generalizing unknowns ds read with
  | nil =>
    cases h
    obtain rfl := List.forall₂_nil_left_iff.mp told
    by_cases h : unknowns = 0 <;>
      simp [Connective.runFrom, undecided, Connective.finish, Connective.exhausted, h]
  | cons layer rest ih =>
    cases hdrawn : layer.isDrawn z with
    | false =>
      rw [decideFrom_cons, Layer.answer_of_not_drawn hdrawn] at h
      rw [rulesAt_hidden hdrawn] at told
      exact ih h told read
    | true =>
      rw [rulesAt_drawn hdrawn] at told
      cases told with
      | @cons _ d _ ds head tail =>
        obtain ⟨d', hd', hr⟩ := decideFrom_cons_eq_ok.mp h
        rw [Layer.answer_of_drawn hdrawn] at hd'
        obtain rfl := head d' hd'
        rcases hr with ⟨rfl, rfl⟩ | ⟨rfl, hr⟩ | ⟨rfl, hr⟩
        · simp [Connective.runFrom, Connective.stop, Connective.settled]
        · rw [ih hr tail (read + 1)]
          simp [Connective.runFrom, Connective.stop, Nat.add_assoc, Nat.add_comm 1]
        · rw [ih hr tail (read + 1)]
          simp [Connective.runFrom, Connective.stop]

/-- What the layers of a source-layer that are drawn at a zoom ask, in the order of the document. -/
def rules (style : Style) (name : String) (z : Zoom) : List Filter := rulesAt z (style.layersFor name)

/-- A style decides as the disjunction of what its drawn layers ask, and fails where that fails. It counts
the unknown decisions before the first yes: a no comes without any, and an unknown without a yes and with
at least one. -/
theorem decides_as_the_disjunction (style : Style) (name : String) (z : Zoom) (f : Feature) :
    (style.evaluate name z f).map Prod.fst =
      (Filter.combine .any (style.rules name z)).eval f z ∧
    style.decision name z f = (Filter.combine .any (style.rules name z)).eval f z ∧
    (∀ ds, List.Forall₂ (fun filter d => filter.eval f z = .ok d) (style.rules name z) ds →
      style.evaluate name z f = .ok (Connective.any.combine ds, unknownsBeforeYes ds)) ∧
    ∀ d n, style.evaluate name z f = .ok (d, n) → ∀ ds, Filter.Told f z (style.rules name z) ds →
      d = Connective.any.combine ds ∧ n = unknownsBeforeYes ds ∧ (d = .no → n = 0) ∧
        (d = .unknown ↔ .yes ∉ ds ∧ 0 < n) := by
  have hfst : (style.evaluate name z f).map Prod.fst =
      (Filter.combine .any (style.rules name z)).eval f z := by
    rw [Filter.eval]
    exact decideFrom_fst 0 (style.layersFor name)
  have hresult {r : Decision × Nat} (hr : style.evaluate name z f = .ok r) {ds : List Decision}
      (told : Filter.Told f z (style.rules name z) ds) :
      r = (Connective.any.combine ds, unknownsBeforeYes ds) := by
    have h := decideFrom_told hr told 0
    rwa [Nat.zero_add] at h
  refine ⟨hfst, hfst, ?_, ?_⟩
  · intro ds hds
    have told : Filter.Told f z (style.rules name z) ds := by
      refine hds.imp fun filter d hd d' hd' => ?_
      exact Except.ok.inj (hd'.symm.trans hd)
    obtain ⟨d, hd⟩ : ∃ d, (Filter.combine .any (style.rules name z)).eval f z = .ok d := by
      rw [Filter.eval]
      refine Filter.evalAll_ok (fun filter hfilter => ?_) .any false
      obtain ⟨d, _, hd⟩ := exists_partner hds filter hfilter
      exact ⟨d, hd⟩
    rw [← hfst] at hd
    obtain ⟨r, hr, _⟩ := map_eq_ok.mp hd
    rw [hr, hresult hr told]
  · intro d n hdn ds told
    obtain ⟨rfl, rfl⟩ := Prod.mk.inj (hresult hdn told)
    refine ⟨rfl, rfl, ?_, ?_⟩
    · rw [Connective.combine_any]
      intro h
      split at h
      · cases h
      · split at h
        · cases h
        · omega
    · rw [Connective.combine_any]
      split
      · simp [*]
      · split <;> simp [*]

end Style

/-! ## Rules for lakes -/

/-- A rule that asks for deep lakes and is not drawn before zoom 9, one that asks for a name, one that asks
for nothing, and the first one again without its bound. -/
def lakeRules : Style := .ofLayers [
  { sourceLayer := "water", minzoom := some (.int 9),
    filter := some (.compare false (.get "depth") (.string "deep")) },
  { sourceLayer := "water", filter := some (.compare false (.get "name") (.string "Como")) },
  { sourceLayer := "water" },
  { sourceLayer := "water", filter := some (.compare false (.get "depth") (.string "deep")) }]

/-- Nothing is known of the first lake. For the second the last rule would fail, but is not asked. -/
theorem lakes_by_the_rule_for_all :
    List.Forall₂ (fun filter d => filter.eval {} (.int 3) = .ok d) (lakeRules.rules "water" (.int 3))
      [.unknown, .yes, .unknown] ∧
    lakeRules.evaluate "water" (.int 3) {} = .ok (.yes, 1) ∧
    Filter.Told fathomlessLake (.int 3) (lakeRules.rules "water" (.int 3)) [.unknown, .yes, .no] ∧
    lakeRules.evaluate "water" (.int 3) fathomlessLake = .ok (.yes, 1) := by
  have hrules : lakeRules.rules "water" (.int 3) = [
      .compare false (.get "name") (.string "Como"), .always,
      .compare false (.get "depth") (.string "deep")] := rfl
  have decides : List.Forall₂ (fun filter d => filter.eval {} (.int 3) = .ok d)
      (lakeRules.rules "water" (.int 3)) [.unknown, .yes, .unknown] := by
    rw [hrules]
    exact .cons rfl (.cons rfl (.cons rfl .nil))
  have fails : (Filter.compare false (.get "depth") (.string "deep")).eval fathomlessLake (.int 3) =
      .error ⟨⟩ := by decide +kernel
  have told : Filter.Told fathomlessLake (.int 3) (lakeRules.rules "water" (.int 3))
      [.unknown, .yes, .no] := by
    rw [hrules]
    refine .cons (fun d hd => ?_) (.cons (fun d hd => ?_) (.cons (fun d hd => ?_) .nil))
    · cases hd
      rfl
    · cases hd
      rfl
    · rw [fails] at hd
      cases hd
  refine ⟨decides, (Style.decides_as_the_disjunction lakeRules "water" (.int 3) {}).2.2.1 _ decides,
    told, ?_⟩
  obtain ⟨⟨d, n⟩, hr⟩ : ∃ r, lakeRules.evaluate "water" (.int 3) fathomlessLake = .ok r := ⟨_, rfl⟩
  obtain ⟨rfl, rfl, _⟩ :=
    (Style.decides_as_the_disjunction lakeRules "water" (.int 3) fathomlessLake).2.2.2 d n hr _ told
  exact hr

end StyledTiles
