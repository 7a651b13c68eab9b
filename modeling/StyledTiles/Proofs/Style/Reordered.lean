import Mathlib.Data.List.Basic
import StyledTiles.Proofs.Decision
import StyledTiles.Proofs.Style.Deciding
import StyledTiles.Proofs.Style.Grouping
import StyledTiles.Proofs.Style.Loading

/-!
# Reordered styles

A style document is reordered when the entries of its array of layers change places. It then loads
whenever it loaded before, its layers come from the same source-layers, and of each source-layer there
are the same layers in some order. What is drawn, and what is decided, is a matter of which layers there
are: a decision is yes when one of them says so, and no when all of them do.

How many layers were in doubt before a decision does depend on the order, and so does whether there is a
decision: a layer after one that said yes is not asked, so a number out of range in its question is not
met. Decisions are compared where both orders make one, which they do unless one of them is yes.
-/
namespace StyledTiles

open Outcome

/-- Style documents of which the second has the entries of the first in some order. -/
inductive Json.StyleReordered : Json → Json → Prop
  | entries {ms ns : Members} {js ks : List Json} (first : member ms "layers" = .arr js)
      (second : member ns "layers" = .arr ks) (h : js.Perm ks) : StyleReordered (.obj ms) (.obj ns)

namespace Style

/-- The entries are read one by one, so their layers change places as they do. -/
theorem readEntries_perm {js ks : List Json} {layers : List Layer} (h : js.Perm ks)
    (hjs : (readEntries js).2 = .ok layers) :
    ∃ layers', (readEntries ks).2 = .ok layers' ∧ layers.Perm layers' := by
  induction h generalizing layers with
  | nil => exact ⟨layers, hjs, .refl _⟩
  | cons j _ ih =>
    obtain ⟨a, rest, ha, hrest, rfl⟩ := readEntries_cons_eq_ok.mp hjs
    obtain ⟨rest', hrest', perm⟩ := ih hrest
    exact ⟨a.toList ++ rest', readEntries_cons_eq_ok.mpr ⟨a, rest', ha, hrest', rfl⟩,
      perm.append_left _⟩
  | swap j k js =>
    obtain ⟨b, _, hb, hlater, rfl⟩ := readEntries_cons_eq_ok.mp hjs
    obtain ⟨a, rest, ha, hrest, rfl⟩ := readEntries_cons_eq_ok.mp hlater
    refine ⟨a.toList ++ (b.toList ++ rest), ?_, List.perm_append_comm_assoc _ _ _⟩
    have hback : (readEntries (k :: js)).2 = .ok (b.toList ++ rest) :=
      readEntries_cons_eq_ok.mpr ⟨b, rest, hb, hrest, rfl⟩
    exact readEntries_cons_eq_ok.mpr ⟨a, _, ha, hback, rfl⟩
  | trans _ _ ih ih' =>
    obtain ⟨between, hbetween, perm⟩ := ih hjs
    obtain ⟨layers', hlayers', perm'⟩ := ih' hbetween
    exact ⟨layers', hlayers', perm.trans perm'⟩

/-- The second style is made of the layers of the first in some order. -/
def Reordered (s s' : Style) : Prop :=
  ∃ layers layers', s = ofLayers layers ∧ s' = ofLayers layers' ∧ layers.Perm layers'

/-- A reordered document loads as a reordered style. -/
theorem ofJson_reordered {j k : Json} {s : Style} (h : j.StyleReordered k) (path path' : Option String)
    (hs : (ofJson j path).result = .ok s) :
    ∃ s', (ofJson k path').result = .ok s' ∧ s.Reordered s' := by
  obtain ⟨first, second, perm⟩ := h
  simp only [ofJson, first] at hs
  obtain ⟨layers, hlayers, hne, rfl⟩ := ofEntries_eq_ok.mp hs
  obtain ⟨layers', hlayers', perm'⟩ := readEntries_perm perm hlayers
  have hne' : layers' ≠ [] := fun hnil => hne (by simpa [hnil] using perm')
  refine ⟨ofLayers layers', ?_, layers, layers', rfl, rfl, perm'⟩
  simp only [ofJson, second]
  exact ofEntries_eq_ok.mpr ⟨layers', hlayers', hne', rfl⟩

namespace Reordered

variable {s s' : Style} {name : String} {z : Zoom} {f : Feature}

theorem symm (h : s.Reordered s') : s'.Reordered s := by
  obtain ⟨layers, layers', hs, hs', perm⟩ := h
  exact ⟨layers', layers, hs', hs, perm.symm⟩

theorem sourceLayers (h : s.Reordered s') : s'.sourceLayers.Perm s.sourceLayers := by
  obtain ⟨layers, layers', rfl, rfl, perm⟩ := h
  rw [List.perm_ext_iff_of_nodup (nodup_sourceLayers_ofLayers _) (nodup_sourceLayers_ofLayers _)]
  intro name
  simp only [mem_sourceLayers_ofLayers, perm.mem_iff]

theorem mem_layersFor (h : s.Reordered s') {l : Layer} :
    l ∈ s'.layersFor name ↔ l ∈ s.layersFor name := by
  obtain ⟨layers, layers', rfl, rfl, perm⟩ := h
  rw [layersFor_ofLayers, layersFor_ofLayers]
  exact (perm.symm.filter _).mem_iff

theorem isVisible (h : s.Reordered s') (name : String) (z : Zoom) :
    s'.isVisible name z = s.isVisible name z := by
  rw [Bool.eq_iff_iff, Style.isVisible, Style.isVisible, List.any_eq_true, List.any_eq_true]
  simp only [h.mem_layersFor]

/-- Where both orders lead to a decision it is the same one. -/
theorem evaluate_fst (h : s.Reordered s') {r r' : Decision × Nat}
    (hr : s.evaluate name z f = .ok r) (hr' : s'.evaluate name z f = .ok r') : r'.1 = r.1 := by
  have hyes : r'.1 = .yes ↔ r.1 = .yes := by
    rw [decideFrom_eq_yes_iff hr, decideFrom_eq_yes_iff hr']
    simp only [h.mem_layersFor]
  have hno : r'.1 = .no ↔ r.1 = .no := by
    rw [decideFrom_eq_no_iff hr, decideFrom_eq_no_iff hr']
    simp only [h.mem_layersFor]
  exact Decision.eq_of_ends hyes hno

theorem decision_eq (h : s.Reordered s') {d d' : Decision} (hd : s.decision name z f = .ok d)
    (hd' : s'.decision name z f = .ok d') : d' = d := by
  obtain ⟨r, hr, rfl⟩ := map_eq_ok.mp hd
  obtain ⟨r', hr', rfl⟩ := map_eq_ok.mp hd'
  exact h.evaluate_fst hr hr'

/-- A decision other than yes is made in every order, since all layers have been asked for it. -/
theorem decision_of_ne_yes (h : s.Reordered s') {d : Decision} (hne : d ≠ .yes)
    (hd : s.decision name z f = .ok d) : s'.decision name z f = .ok d := by
  obtain ⟨r, hr, rfl⟩ := map_eq_ok.mp hd
  have answers : ∀ layer ∈ s'.layersFor name, ∃ d, layer.answer z f = .ok d :=
    fun layer hlayer => answers_of_decideFrom hr hne layer (h.mem_layersFor.mp hlayer)
  obtain ⟨r', hr'⟩ := decideFrom_ok_of_answers answers 0
  exact map_eq_ok.mpr ⟨r', hr', h.evaluate_fst hr hr'⟩

end Reordered

end Style

end StyledTiles
