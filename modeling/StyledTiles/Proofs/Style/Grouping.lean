import Mathlib.Data.List.Basic
import StyledTiles.Style.Index

/-!
# Layers by source-layer

A style made of layers has a group for each source-layer among them, and the group holds the layers of
that source-layer in the order in which they were given. So a style is known by the list of its layers.

The order of the groups, which is that of the first layers in them, is not described.
-/
namespace StyledTiles.Style

/-- A layer goes to the end of its group and leaves the others as they are. -/
theorem layersFor_insert (s : Style) (l : Layer) (name : String) :
    (s.insert l).layersFor name = s.layersFor name ++ [l].filter fun l => l.sourceLayer == name := by
  obtain ⟨groups⟩ := s
  change ((insertInto l groups).lookup name).getD [] = (groups.lookup name).getD [] ++ _
  induction groups with
  | nil =>
    by_cases h : name = l.sourceLayer
    · simp [insertInto, h]
    · have hne : (name == l.sourceLayer) = false := by simp [h]
      simp [insertInto, List.lookup_cons, hne, Ne.symm h]
  | cons g groups ih =>
    obtain ⟨name', layers⟩ := g
    rw [insertInto]
    by_cases hgroup : name' = l.sourceLayer
    · rw [if_pos hgroup]
      by_cases h : name = name'
      · simp [h, hgroup]
      · have hne : (name == name') = false := by simp [h]
        have hother : ¬ l.sourceLayer = name := fun heq => h (heq.symm.trans hgroup.symm)
        simp [List.lookup_cons, hne, hother]
    · rw [if_neg hgroup]
      by_cases h : name = name'
      · have hother : ¬ l.sourceLayer = name := fun heq => hgroup (h.symm.trans heq.symm)
        simp [h, h ▸ hother]
      · have hne : (name == name') = false := by simp [h]
        simpa [List.lookup_cons, hne] using ih

theorem layersFor_foldl_insert (s : Style) (layers : List Layer) (name : String) :
    (layers.foldl insert s).layersFor name =
      s.layersFor name ++ layers.filter fun l => l.sourceLayer == name := by
  induction layers generalizing s with
  | nil => simp
  | cons l layers ih =>
    rw [List.foldl_cons, ih, layersFor_insert, List.append_assoc, ← List.filter_append]
    rfl

/-- The layers of a source-layer are those among the given ones, in their order. -/
theorem layersFor_ofLayers (layers : List Layer) (name : String) :
    (ofLayers layers).layersFor name = layers.filter fun l => l.sourceLayer == name := by
  rw [ofLayers, layersFor_foldl_insert]
  rfl

theorem mem_sourceLayers_insert {s : Style} {l : Layer} {name : String} :
    name ∈ (s.insert l).sourceLayers ↔ name ∈ s.sourceLayers ∨ l.sourceLayer = name := by
  obtain ⟨groups⟩ := s
  change name ∈ (insertInto l groups).map Prod.fst ↔ name ∈ groups.map Prod.fst ∨ _
  induction groups with
  | nil => simp [insertInto, eq_comm]
  | cons g groups ih =>
    obtain ⟨name', layers⟩ := g
    rw [insertInto]
    by_cases hgroup : name' = l.sourceLayer
    · rw [if_pos hgroup]
      constructor
      · exact .inl
      · rintro (h | h)
        · exact h
        · simp [hgroup, h]
    · rw [if_neg hgroup, List.map_cons, List.mem_cons, ih, List.map_cons, List.mem_cons, or_assoc]

theorem mem_sourceLayers_foldl_insert {s : Style} {layers : List Layer} {name : String} :
    name ∈ (layers.foldl insert s).sourceLayers ↔
      name ∈ s.sourceLayers ∨ ∃ l ∈ layers, l.sourceLayer = name := by
  induction layers generalizing s with
  | nil => simp
  | cons l layers ih => rw [List.foldl_cons, ih, mem_sourceLayers_insert, or_assoc, List.exists_mem_cons_iff]

/-- The source-layers of a style are those of its layers. -/
theorem mem_sourceLayers_ofLayers {layers : List Layer} {name : String} :
    name ∈ (ofLayers layers).sourceLayers ↔ ∃ l ∈ layers, l.sourceLayer = name := by
  rw [ofLayers, mem_sourceLayers_foldl_insert]
  exact or_iff_right List.not_mem_nil

theorem nodup_sourceLayers_insert {s : Style} (h : s.sourceLayers.Nodup) (l : Layer) :
    (s.insert l).sourceLayers.Nodup := by
  obtain ⟨groups⟩ := s
  change ((insertInto l groups).map Prod.fst).Nodup
  change (groups.map Prod.fst).Nodup at h
  induction groups with
  | nil => simp [insertInto]
  | cons g groups ih =>
    obtain ⟨name, layers⟩ := g
    rw [List.map_cons, List.nodup_cons] at h
    rw [insertInto]
    by_cases hgroup : name = l.sourceLayer
    · rw [if_pos hgroup]
      exact List.nodup_cons.mpr h
    · rw [if_neg hgroup, List.map_cons, List.nodup_cons]
      refine ⟨fun hname => ?_, ih h.2⟩
      rcases (mem_sourceLayers_insert (s := ⟨groups⟩)).mp hname with hold | hnew
      · exact h.1 hold
      · exact hgroup hnew.symm

/-- No source-layer has two groups. -/
theorem nodup_sourceLayers_ofLayers (layers : List Layer) : (ofLayers layers).sourceLayers.Nodup := by
  suffices ∀ s : Style, s.sourceLayers.Nodup → (layers.foldl insert s).sourceLayers.Nodup from
    this {} List.nodup_nil
  induction layers with
  | nil => exact fun _ h => h
  | cons l layers ih => exact fun s h => ih (s.insert l) (nodup_sourceLayers_insert h l)

end StyledTiles.Style
