import StyledTiles.Proofs.Filter.Written
import StyledTiles.Proofs.Style.Visible

/-!
# Labels in loaded styles

The trees that are read are those in which every case of a switch has a label, all of them and no others.
A style has its filters from reading alone. So they are such trees, whatever document the style is loaded
from, and no case without a label is ever evaluated.
-/
namespace StyledTiles

open Outcome

/-- Every case of a switch in the layer's filter has a label, if the layer has a filter. -/
def Layer.Labelled (l : Layer) : Prop := ∀ a, l.filter = some a → a.Labelled

theorem Layer.ofMembers_labelled {name : String} {ms : Json.Members} {l : Layer}
    (h : ofMembers name ms = .ok l) : l.Labelled := by
  obtain ⟨_, _, _, filter, _, _, _, hfilter, rfl⟩ := ofMembers_eq_ok.mp h
  rintro a rfl
  rw [filterOf] at hfilter
  split at hfilter
  · cases hfilter
  · exact Filter.Reader.filter_labelled _ a (Filter.ofJson_eq_some.mp hfilter).2

/-- The layers of a style that is loaded are read from entries, each from one. -/
theorem Style.layersFor_labelled {document : Json} {path : Option String} {s : Style}
    (h : (ofJson document path).result = .ok s) (name : String) :
    ∀ l ∈ s.layersFor name, l.Labelled := by
  obtain ⟨_, _, indexes⟩ := indexes_of_loaded h
  exact forall_mem_of_forall₂ (indexes.layersFor name) fun _ _ hread => Layer.ofMembers_labelled hread

/-- A filter is read of some value that fits exactly if every case of a switch in it has a label, as the
filter of a layer and anywhere else; and likewise an expression. All filters of a style that is loaded are
such ones. -/
theorem reads_exactly_the_labelled :
    (∀ a : Filter, (∃ j : Json, j.Fits ∧ Filter.Reader.filter j = .ok a) ↔ a.Labelled) ∧
    (∀ a : Filter, (∃ j : Json, j.Fits ∧ Filter.ofJson j = .ok (some a)) ↔ a.Labelled) ∧
    (∀ e : Expression, (∃ j : Json, j.Fits ∧ Expression.ofJson j = .ok (some e)) ↔ e.Labelled) ∧
    ∀ (document : Json) (path : Option String) (s : Style),
      (Style.ofJson document path).result = .ok s → ∀ name, ∀ l ∈ s.layersFor name, l.Labelled := by
  refine ⟨fun a => ⟨?_, fun labelled => ?_⟩, fun a => ⟨?_, fun labelled => ?_⟩,
    fun e => ⟨?_, fun labelled => ?_⟩, fun _ _ _ h => Style.layersFor_labelled h⟩
  · rintro ⟨j, _, hj⟩
    exact Filter.Reader.filter_labelled j a hj
  · exact ⟨a.toJson, toJson_fits_by_parts.filter a, Filter.Reader.toJson_reads.filter a labelled⟩
  · rintro ⟨j, _, hj⟩
    exact Filter.Reader.filter_labelled j a (Filter.ofJson_eq_some.mp hj).2
  · have read := Filter.Reader.toJson_reads.filter a labelled
    exact ⟨a.toJson, toJson_fits_by_parts.filter a, Filter.ofJson_eq_some.mpr ⟨a.toJson_ne_nil, read⟩⟩
  · rintro ⟨j, _, hj⟩
    exact Filter.Reader.expression_labelled j e (Expression.ofJson_eq_some.mp hj)
  · have read := Filter.Reader.toJson_reads.expression e labelled
    exact ⟨e.toJson, toJson_fits_by_parts.expression e, Expression.ofJson_eq_some.mpr read⟩

/-! ## Still water -/

/-- The second filter does not read: its one case has no label. -/
def stillWaterStyle : Json := .obj [("layers", .arr [
  .obj [("source", .str "tiles"), ("source-layer", .str "water"),
    ("filter", .arr [.str "==", .arr [.str "match", .arr [.str "get", .str "class"],
      .arr [.str "lake", .str "pond"], .str "still", .str "running"], .str "still"])],
  .obj [("source", .str "tiles"), ("source-layer", .str "water"),
    ("filter", .arr [.str "==", .arr [.str "match", .arr [.str "get", .str "class"],
      .arr [], .str "still", .str "running"], .str "still"])]])]

theorem still_water_is_labelled : ∃ s, (Style.ofJson stillWaterStyle none).result = .ok s ∧
    (s.layersFor "water").map (·.filter) = [
      some (.compare false (.switch (.get "class") [([.string "lake", .string "pond"],
        .literal (.string "still"))] (.literal (.string "running"))) (.string "still")),
      some .unknown] ∧
    ∀ l ∈ s.layersFor "water", l.Labelled :=
  ⟨_, rfl, rfl, reads_exactly_the_labelled.2.2.2 stillWaterStyle none _ rfl "water"⟩

end StyledTiles
