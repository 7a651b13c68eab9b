import StyledTiles.Proofs.Outcome
import StyledTiles.Style.Loading

/-!
# Layers of entries

What loading makes of a document, taken apart: the members that a layer is read from, the layer of an
entry if it is used, the layers of entries one after the other, and the style of the layers.

Nothing is said here of the notices that loading reports.
-/
namespace StyledTiles

open Outcome

/-- The value stands for no filter at all. -/
def Json.NoFilter (j : Json) : Prop := j = .null ∨ j = .arr []

namespace Layer

/-- What stands for a filter reads as one. -/
theorem filterOf_of_not_noFilter {j : Json} (h : ¬ j.NoFilter) :
    filterOf j = (Filter.Reader.filter j).map some := by
  have hnull : j.isNull = false := by
    cases j with
    | null => exact absurd (.inl rfl) h
    | _ => rfl
  rw [filterOf, hnull, Filter.ofJson]
  · rfl
  · rintro rfl
    exact h (.inr rfl)

/-- The members that a layer is read from, and the layer they make. -/
theorem ofMembers_eq_ok {sourceLayer : String} {ms : Json.Members} {l : Layer} :
    ofMembers sourceLayer ms = .ok l ↔
      ∃ minzoom maxzoom paint filter,
        boundOf (Json.member ms "minzoom") = .ok minzoom ∧
        boundOf (Json.member ms "maxzoom") = .ok maxzoom ∧
        Paint.properties (Json.member ms "paint") = .ok paint ∧
        filterOf (Json.member ms "filter") = .ok filter ∧
        l = ⟨sourceLayer, (Json.member ms "id").str?, minzoom, maxzoom,
          visibilityOf (Json.member ms "layout"), paint, filter⟩ := by
  simp only [ofMembers, bind_eq_ok, pure_eq_ok]
  constructor
  · rintro ⟨minzoom, hmin, maxzoom, hmax, paint, hpaint, filter, hfilter, rfl⟩
    exact ⟨minzoom, maxzoom, paint, filter, hmin, hmax, hpaint, hfilter, rfl⟩
  · rintro ⟨minzoom, maxzoom, paint, filter, hmin, hmax, hpaint, hfilter, rfl⟩
    exact ⟨minzoom, hmin, maxzoom, hmax, paint, hpaint, filter, hfilter, rfl⟩

end Layer

namespace StyleEntry

/-- The layer of an entry, if it is used. -/
def layer? : StyleEntry → Except OutOfRange (Option Layer)
  | .usable sourceLayer members => (Layer.ofMembers sourceLayer members).map some
  | _ => .ok none

/-- The source-layer of an entry that has a source. -/
def sourceLayer? (ms : Json.Members) : Option String :=
  if (Json.member ms "source").isNull then none else (Json.member ms "source-layer").str?

/-- An object is used when it has a source and a source-layer. -/
theorem layer?_obj (ms : Json.Members) : (ofJson (.obj ms)).layer? =
    match sourceLayer? ms with
    | some name => (Layer.ofMembers name ms).map some
    | none => .ok none := by
  rw [ofJson, sourceLayer?]
  split
  · rfl
  · cases Json.member ms "source-layer" <;> rfl

end StyleEntry

namespace Style

theorem readEntries_cons_eq_ok {j : Json} {js : List Json} {layers : List Layer} :
    (readEntries (j :: js)).2 = .ok layers ↔
      ∃ a rest, (StyleEntry.ofJson j).layer? = .ok a ∧ (readEntries js).2 = .ok rest ∧
        layers = a.toList ++ rest := by
  rw [readEntries]
  cases StyleEntry.ofJson j with
  | usable sourceLayer members =>
    cases h : Layer.ofMembers sourceLayer members with
    | ok l =>
      simp only [StyleEntry.layer?, h, map_eq_ok]
      constructor
      · rintro ⟨rest, hrest, rfl⟩
        exact ⟨some l, rest, ⟨l, rfl, rfl⟩, hrest, rfl⟩
      · rintro ⟨_, rest, ⟨_, hl, rfl⟩, hrest, rfl⟩
        cases hl
        exact ⟨rest, hrest, rfl⟩
    | error e => simp [StyleEntry.layer?, h, Except.map]
  | notAnObject kind => simp [StyleEntry.layer?, eq_comm]
  | withoutSource id => simp [StyleEntry.layer?, eq_comm]
  | withoutSourceLayer id => simp [StyleEntry.layer?, eq_comm]

/-- The result of loading is the style of the layers that were read, of which there is one. -/
theorem ofEntries_eq_ok {js : List Json} {path : Option String} {s : Style} :
    (ofEntries js path).result = .ok s ↔
      ∃ layers, (readEntries js).2 = .ok layers ∧ layers ≠ [] ∧ ofLayers layers = s := by
  unfold ofEntries
  cases h : (readEntries js).2 with
  | error e => simp [h]
  | ok layers =>
    cases layers with
    | nil => simp [h]
    | cons l layers => simp [h]

end Style

end StyledTiles
