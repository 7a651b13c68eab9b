import StyledTiles.Style.Index
import StyledTiles.Proofs.Filter.Evaluation

/-!
# What a style decides

A layer answers no where it is not drawn, yes where it has no filter, and else what its filter decides.
A style asks for these answers in turn until one is yes. It decides about every feature that fits, and
against every feature of a source-layer of which it draws nothing.

Which layers are drawn is settled by the zoom alone, so nothing here looks at why a layer is not.
-/
namespace StyledTiles

open Outcome

/-- What a layer says about a feature. -/
def Layer.answer (layer : Layer) (z : Zoom) (f : Feature) : Except OutOfRange Decision :=
  if layer.isDrawn z then
    match layer.filter with
    | none => .ok .yes
    | some filter => filter.eval f z
  else .ok .no

namespace Layer

variable {z : Zoom} {f : Feature}

theorem answer_of_not_drawn {layer : Layer} (h : layer.isDrawn z = false) :
    layer.answer z f = .ok .no := by
  rw [answer, h]
  rfl

/-- An answer hangs on whether the layer is drawn and on what its filter decides. -/
theorem answer_congr {z' : Zoom} {f' : Feature} {layer : Layer}
    (hdrawn : layer.isDrawn z = layer.isDrawn z')
    (hfilter : ∀ a, layer.filter = some a → a.eval f z = a.eval f' z') :
    layer.answer z f = layer.answer z' f' := by
  rw [answer, answer, hdrawn]
  cases ha : layer.filter with
  | none => rfl
  | some a => simp only [hfilter a ha]

theorem answer_ok (hf : f.Fits) (hz : z.Fits) (layer : Layer) :
    ∃ d, layer.answer z f = .ok d := by
  unfold answer
  split
  · cases layer.filter with
    | none => exact ⟨_, rfl⟩
    | some filter => exact Filter.eval_ok hf hz filter
  · exact ⟨_, rfl⟩

end Layer

namespace Style

variable {z : Zoom} {f : Feature}

/-- A yes settles the question, an answer of unknown is counted, and a no is passed over. -/
theorem decideFrom_cons (unknowns : Nat) (layer : Layer) (rest : List Layer) :
    decideFrom z f unknowns (layer :: rest) = layer.answer z f >>= fun
      | .yes => .ok (.yes, unknowns)
      | .unknown => decideFrom z f (unknowns + 1) rest
      | .no => decideFrom z f unknowns rest := by
  rw [decideFrom, Layer.answer]
  split
  · cases layer.filter with
    | none => rfl
    | some filter => rfl
  · rfl

theorem decideFrom_cons_eq_ok {unknowns : Nat} {layer : Layer} {rest : List Layer}
    {r : Decision × Nat} : decideFrom z f unknowns (layer :: rest) = .ok r ↔
      ∃ d, layer.answer z f = .ok d ∧
        (d = .yes ∧ r = (.yes, unknowns) ∨
          d = .unknown ∧ decideFrom z f (unknowns + 1) rest = .ok r ∨
          d = .no ∧ decideFrom z f unknowns rest = .ok r) := by
  rw [decideFrom_cons, bind_eq_ok]
  refine exists_congr fun d => and_congr_right fun _ => ?_
  cases d with
  | yes => simp [eq_comm]
  | unknown => simp
  | no => simp

/-- A decision hangs on the answers of the layers alone. -/
theorem decideFrom_congr {z' : Zoom} {f' : Feature} {layers : List Layer}
    (h : ∀ layer ∈ layers, layer.answer z f = layer.answer z' f') (unknowns : Nat) :
    decideFrom z f unknowns layers = decideFrom z' f' unknowns layers := by
  induction layers generalizing unknowns with
  | nil => rfl
  | cons layer rest ih =>
    rw [List.forall_mem_cons] at h
    rw [decideFrom_cons, decideFrom_cons, h.1]
    simp only [ih h.2]

/-- Layers that are not drawn are passed over. -/
theorem decideFrom_hidden {layers : List Layer} (h : ∀ layer ∈ layers, layer.isDrawn z = false)
    (unknowns : Nat) : decideFrom z f unknowns layers = .ok (undecided unknowns, unknowns) := by
  induction layers with
  | nil => rfl
  | cons layer rest ih =>
    rw [List.forall_mem_cons] at h
    rw [decideFrom_cons, Layer.answer_of_not_drawn h.1]
    exact ih h.2

/-- Once a layer could not tell, the decision is not no. -/
theorem decideFrom_of_unknowns {unknowns : Nat} {layers : List Layer} {r : Decision × Nat}
    (hpos : unknowns ≠ 0) (h : decideFrom z f unknowns layers = .ok r) :
    r.1 = .yes ∨ r.1 = .unknown := by
  induction layers generalizing unknowns with
  | nil =>
    cases h
    exact .inr (if_neg hpos)
  | cons layer rest ih =>
    obtain ⟨d, _, ⟨_, rfl⟩ | ⟨_, h⟩ | ⟨_, h⟩⟩ := decideFrom_cons_eq_ok.mp h
    · exact .inl rfl
    · exact ih (Nat.succ_ne_zero unknowns) h
    · exact ih hpos h

/-- Where every layer answers there is a decision, though not all of the answers may be asked for. -/
theorem decideFrom_ok_of_answers {layers : List Layer}
    (h : ∀ layer ∈ layers, ∃ d, layer.answer z f = .ok d) (unknowns : Nat) :
    ∃ r, decideFrom z f unknowns layers = .ok r := by
  induction layers generalizing unknowns with
  | nil => exact ⟨_, rfl⟩
  | cons layer rest ih =>
    rw [List.forall_mem_cons] at h
    obtain ⟨d, hd⟩ := h.1
    rw [decideFrom_cons, hd]
    cases d with
    | yes => exact ⟨_, rfl⟩
    | unknown => exact ih h.2 (unknowns + 1)
    | no => exact ih h.2 unknowns

theorem decideFrom_ok (hf : f.Fits) (hz : z.Fits) (layers : List Layer) (unknowns : Nat) :
    ∃ r, decideFrom z f unknowns layers = .ok r :=
  decideFrom_ok_of_answers (fun layer _ => Layer.answer_ok hf hz layer) unknowns

/-- A decision other than yes is made on the answers of all layers. -/
theorem answers_of_decideFrom {unknowns : Nat} {layers : List Layer} {r : Decision × Nat}
    (h : decideFrom z f unknowns layers = .ok r) (hne : r.1 ≠ .yes) :
    ∀ layer ∈ layers, ∃ d, layer.answer z f = .ok d := by
  induction layers generalizing unknowns with
  | nil => simp
  | cons layer rest ih =>
    obtain ⟨d, hd, ⟨_, rfl⟩ | ⟨_, h⟩ | ⟨_, h⟩⟩ := decideFrom_cons_eq_ok.mp h
    · exact absurd rfl hne
    · exact List.forall_mem_cons.mpr ⟨⟨d, hd⟩, ih h⟩
    · exact List.forall_mem_cons.mpr ⟨⟨d, hd⟩, ih h⟩

/-- A decision is yes exactly when some layer says so. -/
theorem decideFrom_eq_yes_iff {unknowns : Nat} {layers : List Layer} {r : Decision × Nat}
    (h : decideFrom z f unknowns layers = .ok r) :
    r.1 = .yes ↔ ∃ layer ∈ layers, layer.answer z f = .ok .yes := by
  induction layers generalizing unknowns with
  | nil =>
    cases h
    by_cases hzero : unknowns = 0 <;> simp [undecided, hzero]
  | cons layer rest ih =>
    simp only [List.mem_cons, exists_eq_or_imp]
    obtain ⟨d, hd, ⟨rfl, rfl⟩ | ⟨rfl, h⟩ | ⟨rfl, h⟩⟩ := decideFrom_cons_eq_ok.mp h
    · simp [hd]
    · rw [ih h, hd]
      simp
    · rw [ih h, hd]
      simp

/-- A decision is no exactly when all layers say so and none before them was in doubt. -/
theorem decideFrom_eq_no_iff {unknowns : Nat} {layers : List Layer} {r : Decision × Nat}
    (h : decideFrom z f unknowns layers = .ok r) :
    r.1 = .no ↔ unknowns = 0 ∧ ∀ layer ∈ layers, layer.answer z f = .ok .no := by
  induction layers generalizing unknowns with
  | nil =>
    cases h
    by_cases hzero : unknowns = 0 <;> simp [undecided, hzero]
  | cons layer rest ih =>
    rw [List.forall_mem_cons]
    obtain ⟨d, hd, ⟨rfl, rfl⟩ | ⟨rfl, h⟩ | ⟨rfl, h⟩⟩ := decideFrom_cons_eq_ok.mp h
    · simp [hd]
    · rw [ih h, hd]
      simp
    · rw [ih h, hd]
      simp

theorem evaluate_ok (hf : f.Fits) (hz : z.Fits) (style : Style) (name : String) :
    ∃ r, style.evaluate name z f = .ok r := decideFrom_ok hf hz _ 0

theorem decision_ok (hf : f.Fits) (hz : z.Fits) (style : Style) (name : String) :
    ∃ d, style.decision name z f = .ok d := by
  obtain ⟨r, hr⟩ := evaluate_ok hf hz style name
  exact ⟨r.1, map_eq_ok.mpr ⟨r, hr, rfl⟩⟩

/-- Where nothing is drawn the decision is no, and no layer was in doubt. -/
theorem evaluate_of_not_visible {style : Style} {name : String}
    (h : style.isVisible name z = false) : style.evaluate name z f = .ok (.no, 0) := by
  refine decideFrom_hidden ?_ 0
  simpa [isVisible] using h

end Style

end StyledTiles
