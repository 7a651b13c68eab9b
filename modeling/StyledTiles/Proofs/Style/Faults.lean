import StyledTiles.Proofs.Filter.Reading
import StyledTiles.Proofs.Style.Loading

/-!
# How loading fails

An entry draws from a source-layer when it has a source and a text for its source-layer. A document with
such an entry loads unless a number is out of range where the bounds, the paint or the filter of an entry
that draws are read. There is no other way to fail. What is written in no form known here counts as
absent or becomes a filter that cannot tell, and the numbers of an entry that does not draw are not
looked at.

How far the reading of a paint or a filter goes before a fault spoils it is not said in general; where
all numbers fit it does not matter.
-/
namespace StyledTiles

open Outcome

/-! ## Numbers -/

theorem Number.toFinite_ok_iff {n : Number} : (∃ x, n.toFinite = .ok x) ↔ n.Fits := by
  cases n with
  | int n =>
    constructor
    · rintro ⟨_, h⟩
      obtain ⟨x, hx, _⟩ := map_eq_ok.mp h
      exact ⟨x, hx⟩
    · rintro ⟨x, hx⟩
      exact ⟨some x, map_eq_ok.mpr ⟨x, hx, rfl⟩⟩
  | real x => exact ⟨fun _ => ⟨x, rfl⟩, fun _ => ⟨_, rfl⟩⟩

/-- Only a number can be out of range where one is looked for. -/
theorem Json.finite_ok_iff {j : Json} : (∃ x, j.finite = .ok x) ↔ ∀ n, j = .num n → n.Fits := by
  cases j with
  | num n =>
    constructor
    · rintro h _ ⟨⟩
      exact Number.toFinite_ok_iff.mp h
    · intro h
      exact Number.toFinite_ok_iff.mpr (h n rfl)
  | _ => exact ⟨nofun, fun _ => ⟨none, rfl⟩⟩

theorem Json.fits_of_num {j : Json} (h : j.Fits) : ∀ n, j = .num n → n.Fits := by
  rintro n rfl
  exact Json.fits_num.mp h

theorem Json.finite_ok {j : Json} (h : j.Fits) : ∃ x, j.finite = .ok x :=
  Json.finite_ok_iff.mpr (Json.fits_of_num h)

/-! ## Paint -/

namespace Paint

theorem stopsOf_ok {stops : List Json} (h : Json.ItemsFit stops) :
    ∃ table, stopsOf stops = .ok table := by
  induction stops with
  | nil => exact ⟨some [], rfl⟩
  | cons stop rest ih =>
    rw [Json.itemsFit_cons] at h
    obtain ⟨table, htable⟩ := ih h.2
    match stop with
    | .arr (zoom :: value :: more) =>
      have hstop : zoom.Fits ∧ value.Fits ∧ Json.ItemsFit more := by simpa [Json.fits_arr] using h.1
      obtain ⟨place?, hplace⟩ := Json.finite_ok hstop.1
      obtain ⟨x?, hx⟩ := Json.finite_ok hstop.2.1
      rw [stopsOf, hplace]
      cases place? with
      | none => exact ⟨none, rfl⟩
      | some place =>
        rw [hx]
        cases x? with
        | none => exact ⟨none, rfl⟩
        | some x =>
          simp only [htable, bind, Except.bind]
          cases stopZoom? place with
          | none => exact ⟨table, rfl⟩
          | some z => exact ⟨_, rfl⟩
    | .arr [] | .arr [_] => exact ⟨table, htable⟩
    | .null | .bool _ | .num _ | .str _ | .obj _ => exact ⟨none, rfl⟩

theorem ofStops_ok {stops : List Json} (h : Json.ItemsFit stops) :
    ∃ paint, ofStops stops = .ok paint := by
  obtain ⟨table, htable⟩ := stopsOf_ok h
  rw [ofStops, htable]
  match table with
  | none => exact ⟨none, rfl⟩
  | some [] => exact ⟨none, rfl⟩
  | some (stop :: rest) => exact ⟨_, rfl⟩

theorem ofJson_ok {j : Json} (h : j.Fits) : ∃ paint, ofJson j = .ok paint := by
  cases j with
  | num n =>
    obtain ⟨x, hx⟩ := Number.toFinite_ok_iff.mpr (Json.fits_num.mp h)
    exact ⟨x.map .constant, by rw [ofJson, hx]; rfl⟩
  | obj members =>
    rw [Json.Fits] at h
    have hstops := h.member "stops"
    rw [ofJson]
    split
    next stops heq =>
      rw [heq] at hstops
      exact ofStops_ok (Json.fits_arr.mp hstops)
    next => exact ⟨none, rfl⟩
  | _ => exact ⟨none, rfl⟩

theorem ofMembers_ok {members : Json.Members} (h : Json.MembersFit members) :
    ∃ paints, ofMembers members = .ok paints := by
  induction members with
  | nil => exact ⟨[], rfl⟩
  | cons m rest ih =>
    obtain ⟨name, value⟩ := m
    rw [Json.MembersFit] at h
    obtain ⟨paint, hpaint⟩ := ofJson_ok h.1
    obtain ⟨paints, hpaints⟩ := ih h.2
    rw [ofMembers, hpaint, hpaints]
    exact ⟨_, rfl⟩

theorem properties_ok {j : Json} (h : j.Fits) : ∃ paints, properties j = .ok paints := by
  cases j with
  | obj members =>
    rw [Json.Fits] at h
    exact ofMembers_ok h
  | _ => exact ⟨[], rfl⟩

end Paint

/-! ## Layers -/

/-- An entry with these members draws from a source-layer. -/
structure Json.DrawFrom (ms : Members) (name : String) : Prop where
  source : member ms "source" ≠ .null
  sourceLayer : member ms "source-layer" = .str name

namespace Layer

theorem boundOf_ok_iff {j : Json} : (∃ bound, boundOf j = .ok bound) ↔ ∀ n, j = .num n → n.Fits := by
  rw [← Json.finite_ok_iff]
  constructor
  · rintro ⟨_, h⟩
    obtain ⟨x, hx, _⟩ := bind_eq_ok.mp h
    exact ⟨x, hx⟩
  · rintro ⟨x, hx⟩
    exact ⟨x.map .real, bind_eq_ok.mpr ⟨x, hx, rfl⟩⟩

theorem filterOf_ok {j : Json} (h : j.Fits) : ∃ filter, filterOf j = .ok filter := by
  by_cases hnone : j.NoFilter
  · rcases hnone with rfl | rfl
    · exact ⟨none, rfl⟩
    · exact ⟨none, rfl⟩
  · obtain ⟨filter, hfilter⟩ := Filter.Reader.filter_ok j h
    rw [filterOf_of_not_noFilter hnone, hfilter]
    exact ⟨some filter, rfl⟩

/-- No number out of range is met in the members that a layer is read from. -/
structure InRange (ms : Json.Members) : Prop where
  minzoom : ∀ n, Json.member ms "minzoom" = .num n → n.Fits
  maxzoom : ∀ n, Json.member ms "maxzoom" = .num n → n.Fits
  paint : ∃ paint, Paint.properties (Json.member ms "paint") = .ok paint
  filter : ∃ filter, filterOf (Json.member ms "filter") = .ok filter

theorem ofMembers_ok_iff {name : String} {ms : Json.Members} :
    (∃ l, ofMembers name ms = .ok l) ↔ InRange ms := by
  constructor
  · rintro ⟨l, hl⟩
    obtain ⟨minzoom, maxzoom, paint, filter, hmin, hmax, hpaint, hfilter, _⟩ := ofMembers_eq_ok.mp hl
    exact ⟨boundOf_ok_iff.mp ⟨minzoom, hmin⟩, boundOf_ok_iff.mp ⟨maxzoom, hmax⟩, ⟨paint, hpaint⟩,
      filter, hfilter⟩
  · rintro ⟨hmin, hmax, ⟨paint, hpaint⟩, filter, hfilter⟩
    obtain ⟨minzoom, hminzoom⟩ := boundOf_ok_iff.mpr hmin
    obtain ⟨maxzoom, hmaxzoom⟩ := boundOf_ok_iff.mpr hmax
    exact ⟨_, ofMembers_eq_ok.mpr
      ⟨minzoom, maxzoom, paint, filter, hminzoom, hmaxzoom, hpaint, hfilter, rfl⟩⟩

/-- The keys of the members that numbers are read from. -/
def numberKeys : List String := ["minzoom", "maxzoom", "paint", "filter"]

theorem inRange_of_fits {ms : Json.Members} (h : ∀ key ∈ numberKeys, (Json.member ms key).Fits) :
    InRange ms where
  minzoom := Json.fits_of_num (h "minzoom" (by decide))
  maxzoom := Json.fits_of_num (h "maxzoom" (by decide))
  paint := Paint.properties_ok (h "paint" (by decide))
  filter := filterOf_ok (h "filter" (by decide))

end Layer

/-! ## Documents -/

namespace StyleEntry

theorem sourceLayer?_eq_some {ms : Json.Members} {name : String} :
    sourceLayer? ms = some name ↔ Json.DrawFrom ms name := by
  unfold sourceLayer?
  split
  next hnull =>
    refine ⟨nofun, fun h => absurd ?_ h.source⟩
    cases hsource : Json.member ms "source" <;> simp [hsource, Json.isNull] at hnull ⊢
  next hnull =>
    have hsource : Json.member ms "source" ≠ .null := fun h => hnull (by rw [h]; rfl)
    constructor
    · intro h
      refine ⟨hsource, ?_⟩
      cases hname : Json.member ms "source-layer" with
      | str s =>
        rw [hname] at h
        cases h
        rfl
      | _ => simp [hname, Json.str?] at h
    · intro h
      rw [h.sourceLayer]
      rfl

theorem layer?_ok_iff {j : Json} : (∃ a, (ofJson j).layer? = .ok a) ↔
    ∀ ms name, j = .obj ms → Json.DrawFrom ms name → Layer.InRange ms := by
  cases j with
  | obj ms =>
    rw [layer?_obj]
    cases hname : sourceLayer? ms with
    | none =>
      refine ⟨fun _ ms' name heq hdraw => ?_, fun _ => ⟨none, rfl⟩⟩
      cases heq
      rw [sourceLayer?_eq_some.mpr hdraw] at hname
      cases hname
    | some name =>
      constructor
      · rintro ⟨_, h⟩ _ _ ⟨⟩ _
        obtain ⟨l, hl, _⟩ := map_eq_ok.mp h
        exact Layer.ofMembers_ok_iff.mp ⟨l, hl⟩
      · intro h
        obtain ⟨l, hl⟩ : ∃ l, Layer.ofMembers name ms = .ok l :=
          Layer.ofMembers_ok_iff.mpr (h ms name rfl (sourceLayer?_eq_some.mp hname))
        exact ⟨some l, map_eq_ok.mpr ⟨l, hl, rfl⟩⟩
  | _ => exact ⟨fun _ _ _ => nofun, fun _ => ⟨none, rfl⟩⟩

end StyleEntry

namespace Style

theorem readEntries_ok_iff {js : List Json} : (∃ layers, (readEntries js).2 = .ok layers) ↔
    ∀ j ∈ js, ∃ a, (StyleEntry.ofJson j).layer? = .ok a := by
  induction js with
  | nil => exact ⟨fun _ => nofun, fun _ => ⟨[], rfl⟩⟩
  | cons j js ih =>
    rw [List.forall_mem_cons, ← ih]
    constructor
    · rintro ⟨layers, h⟩
      obtain ⟨a, rest, ha, hrest, _⟩ := readEntries_cons_eq_ok.mp h
      exact ⟨⟨a, ha⟩, rest, hrest⟩
    · rintro ⟨⟨a, ha⟩, rest, hrest⟩
      exact ⟨a.toList ++ rest, readEntries_cons_eq_ok.mpr ⟨a, rest, ha, hrest, rfl⟩⟩

/-- The entries are read when those that draw are in range. -/
theorem readEntries_inRange_iff {js : List Json} : (∃ layers, (readEntries js).2 = .ok layers) ↔
    ∀ ms name, .obj ms ∈ js → Json.DrawFrom ms name → Layer.InRange ms := by
  rw [readEntries_ok_iff]
  simp only [StyleEntry.layer?_ok_iff]
  constructor
  · intro h ms name hmem
    exact h _ hmem ms name rfl
  · rintro h _ hmem ms name rfl
    exact h ms name hmem

/-- An entry that draws leaves a layer. -/
theorem readEntries_ne_nil {js : List Json} {ms : Json.Members} {name : String} {layers : List Layer}
    (hmem : .obj ms ∈ js) (hdraw : Json.DrawFrom ms name) (h : (readEntries js).2 = .ok layers) :
    layers ≠ [] := by
  induction js generalizing layers with
  | nil => cases hmem
  | cons j js ih =>
    obtain ⟨a, rest, ha, hrest, rfl⟩ := readEntries_cons_eq_ok.mp h
    rcases List.mem_cons.mp hmem with rfl | hmem
    · rw [StyleEntry.layer?_obj, StyleEntry.sourceLayer?_eq_some.mpr hdraw] at ha
      obtain ⟨l, _, rfl⟩ := map_eq_ok.mp ha
      exact List.cons_ne_nil l rest
    · intro hnil
      exact ih hmem hrest (List.append_eq_nil_iff.mp hnil).2

/-- With an entry that draws, the style is there when the layers can be read, and nothing but a number
out of range is in the way. -/
theorem ofEntries_of_drawFrom {js : List Json} {ms : Json.Members} {name : String}
    (hmem : .obj ms ∈ js) (hdraw : Json.DrawFrom ms name) (path : Option String) :
    (∃ layers s, (readEntries js).2 = .ok layers ∧ (ofEntries js path).result = .ok s) ∨
      ∃ e, (readEntries js).2 = .error e ∧ (ofEntries js path).result = .error (.outOfRange e) := by
  cases h : (readEntries js).2 with
  | ok layers =>
    have hsome := readEntries_ne_nil hmem hdraw h
    exact .inl ⟨layers, ofLayers layers, rfl, ofEntries_eq_ok.mpr ⟨layers, h, hsome, rfl⟩⟩
  | error e =>
    refine .inr ⟨e, rfl, ?_⟩
    rw [ofEntries]
    simp only [h]

/-- A document in which an entry draws from some source-layer loads, or a number is out of range. It loads
exactly if no number out of range is met in an entry that draws, and so if all numbers fit in the members
of such entries that numbers are read from. -/
theorem loading_fails_only_out_of_range {ms entry : Json.Members} {js : List Json} {name : String}
    (hlayers : Json.member ms "layers" = .arr js) (hentry : .obj entry ∈ js)
    (hdraw : Json.DrawFrom entry name) (path : Option String) :
    ((∃ s, (ofJson (.obj ms) path).result = .ok s) ∨
      (ofJson (.obj ms) path).result = .error (.outOfRange ⟨⟩)) ∧
    ((∃ s, (ofJson (.obj ms) path).result = .ok s) ↔
      ∀ ms' name', .obj ms' ∈ js → Json.DrawFrom ms' name' → Layer.InRange ms') ∧
    ((∀ ms' name', .obj ms' ∈ js → Json.DrawFrom ms' name' →
        ∀ key ∈ Layer.numberKeys, (Json.member ms' key).Fits) →
      ∃ s, (ofJson (.obj ms) path).result = .ok s) := by
  have hresult : (ofJson (.obj ms) path).result = (ofEntries js path).result := by
    simp only [ofJson, hlayers]
  rw [hresult]
  have hloads : (∃ s, (ofEntries js path).result = .ok s) ↔
      ∀ ms' name', .obj ms' ∈ js → Json.DrawFrom ms' name' → Layer.InRange ms' := by
    rw [← readEntries_inRange_iff]
    rcases ofEntries_of_drawFrom hentry hdraw path with ⟨layers, s, hread, hs⟩ | ⟨e, hread, hfails⟩
    · exact ⟨fun _ => ⟨layers, hread⟩, fun _ => ⟨s, hs⟩⟩
    · rw [hread, hfails]
      exact ⟨nofun, nofun⟩
  refine ⟨?_, hloads, fun hfits => hloads.mpr fun ms' name' hmem hdraws =>
    Layer.inRange_of_fits (hfits ms' name' hmem hdraws)⟩
  rcases ofEntries_of_drawFrom hentry hdraw path with ⟨_, s, _, hs⟩ | ⟨e, _, hfails⟩
  · exact .inl ⟨s, hs⟩
  · exact .inr hfails

end Style

/-! ## Rules that go wrong -/

/-- An entry in which nothing but the source and the source-layer reads. -/
def garbledEntry : Json.Members := [
  ("source", .str "tiles"), ("source-layer", .str "water"), ("id", .int (1 <<< 1024)),
  ("minzoom", .str "low"), ("maxzoom", .real .nan), ("paint", .obj [("line-width", .str "wide")]),
  ("layout", .int (1 <<< 1024)), ("filter", .arr [.str "hass", .int 1])]

/-- An entry that does not draw, and a number that is not looked at. -/
def sourcelessEntry : Json.Members := [("source-layer", .str "water"), ("minzoom", .int (1 <<< 1024))]

def garbledEntries : List Json := [.obj sourcelessEntry, .obj garbledEntry]

theorem garbled_rule_loads : Json.member [("layers", .arr garbledEntries)] "layers" =
      .arr garbledEntries ∧ .obj garbledEntry ∈ garbledEntries ∧
    Json.DrawFrom garbledEntry "water" ∧
    ∃ s, (Style.ofJson (.obj [("layers", .arr garbledEntries)]) none).result = .ok s := by
  have layers : Json.member [("layers", .arr garbledEntries)] "layers" = .arr garbledEntries := rfl
  have mem : .obj garbledEntry ∈ garbledEntries := .tail _ (.head _)
  have draws : Json.DrawFrom garbledEntry "water" := ⟨by simp [garbledEntry, Json.member], rfl⟩
  refine ⟨layers, mem, draws, (Style.loading_fails_only_out_of_range layers mem draws none).2.2 ?_⟩
  intro ms name hmem hdraw
  simp only [garbledEntries, List.mem_cons, Json.obj.injEq, List.not_mem_nil, or_false] at hmem
  rcases hmem with rfl | rfl
  · exact absurd rfl hdraw.source
  · intro key hkey
    simp only [Layer.numberKeys, List.mem_cons, List.not_mem_nil, or_false] at hkey
    rcases hkey with rfl | rfl | rfl | rfl
    · exact Json.fits_str "low"
    · exact Json.fits_num.mpr ⟨.nan, rfl⟩
    · simp [garbledEntry, Json.member, List.lookup_cons, Json.Fits, Json.MembersFit]
    · have hone : (Number.int 1).Fits := by decide
      simpa [garbledEntry, Json.member, List.lookup_cons, Json.fits_arr, Json.int, Json.fits_num]

/-- An entry that compares a depth with a number out of range. -/
def fathomlessRule : Json.Members := [
  ("source", .str "tiles"), ("source-layer", .str "water"),
  ("filter", .arr [.str "==", .str "depth", .int (1 <<< 1024)])]

/-- One number out of range in a filter is enough for a style not to load. -/
theorem rule_out_of_range_fails_the_style :
    ¬ ∀ (ms entry : Json.Members) (js : List Json) (name : String) (path : Option String),
      Json.member ms "layers" = .arr js → .obj entry ∈ js → Json.DrawFrom entry name →
      ∃ s, (Style.ofJson (.obj ms) path).result = .ok s := by
  intro always
  obtain ⟨s, hs⟩ := always [("layers", .arr [.obj fathomlessRule])] fathomlessRule
    [.obj fathomlessRule] "water" none rfl (List.mem_singleton.mpr rfl)
    ⟨by simp [fathomlessRule, Json.member], rfl⟩
  have fails : (Style.ofJson (.obj [("layers", .arr [.obj fathomlessRule])])
      none).result.toOption.isSome = false := by decide +kernel
  rw [hs] at fails
  cases fails

end StyledTiles
