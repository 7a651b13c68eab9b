import StyledTiles.Proofs.Json.Keys
import StyledTiles.Proofs.Paint
import StyledTiles.Proofs.Style.Indexed
import StyledTiles.Style.File

/-!
# What is visible

A source-layer is visible at an integer zoom exactly if some entry of the document draws from it and shows
there: its layout does not hide it, its bounds hold the zoom, and none of its checked paint properties
hides there. Bounds and paint that are not of a form known here ask for nothing.

Filters do not count, and a zoom that is not an integer is not considered.
-/
namespace StyledTiles

open Outcome

/-- The members of an entry leave it shown at a zoom. -/
structure Json.ShownAt (z : Int) (ms : Members) : Prop where
  layout : ∀ layout, member ms "layout" = .obj layout → member layout "visibility" ≠ .str "none"
  minzoom : ∀ q, (member ms "minzoom").Denotes q → q ≤ z
  maxzoom : ∀ q, (member ms "maxzoom").Denotes q → (z : Rat) < q
  paint : ∀ paint, member ms "paint" = .obj paint → ∀ property ∈ Layer.checkedProperties,
    ∀ value, paint.lookup property = some value → value.ShowsAt z

/-- An entry of the document draws from the source-layer and shows at the zoom. -/
def Json.Shows (document : Json) (name : String) (z : Int) : Prop :=
  ∃ js ms, document.HasEntries js ∧ .obj ms ∈ js ∧ DrawFrom ms name ∧ ShownAt z ms

theorem Json.HasEntries.unique {document : Json} {js js' : List Json} (h : document.HasEntries js)
    (h' : document.HasEntries js') : js = js' := by
  obtain ⟨ms, rfl, hlayers⟩ := h
  obtain ⟨_, ⟨⟩, hlayers'⟩ := h'
  exact Json.arr.inj (hlayers.symm.trans hlayers')

theorem Json.HasEntries.keyedOnce {document : Json} {js : List Json} (h : document.HasEntries js)
    (hkeys : document.KeyedOnce) {ms : Members} (hmem : .obj ms ∈ js) : MembersKeyedOnce ms := by
  obtain ⟨_, rfl, hlayers⟩ := h
  have hjs := (keyedOnce_obj.mp hkeys).member "layers"
  rw [hlayers, keyedOnce_arr] at hjs
  exact keyedOnce_obj.mp (hjs.mem hmem)

/-! ## Layers -/

namespace Layer

variable {l : Layer} {j : Json} {z : Int}

theorem isLaidOut_iff (h : visibilityOf j = l.visibility) : l.isLaidOut = true ↔
    ∀ layout, j = .obj layout → Json.member layout "visibility" ≠ .str "none" := by
  rw [isLaidOut, ← h, bne_iff_ne]
  cases j with
  | obj layout =>
    rw [visibilityOf]
    cases hvalue : Json.member layout "visibility" with
    | str s => simp [Json.str?, hvalue]
    | _ => simp [Json.str?, hvalue]
  | _ => simp [visibilityOf]

/-- What a bound has to do with a zoom can be said of the number that the value denotes, if it denotes one;
else there is no bound. -/
theorem forall_boundOf {bound : Option Number} (h : boundOf j = .ok bound) {P : Number → Prop}
    {Q : Rat → Prop} (hPQ : ∀ {x q}, Binary64.toRat? x = some q → (P (.real x) ↔ Q q)) :
    (∀ n, bound = some n → P n) ↔ ∀ q, j.Denotes q → Q q := by
  obtain ⟨x?, hx, h⟩ := bind_eq_ok.mp h
  cases pure_eq_ok.mp h
  cases x? with
  | none => exact iff_of_true nofun fun q hq => absurd hq (Json.not_denotes hx q)
  | some x =>
    obtain ⟨q, hq, hj⟩ := Json.exists_denotes hx
    constructor
    · intro hbound p hp
      rw [hp.unique hj, ← hPQ hq]
      exact hbound _ rfl
    · rintro hdenotes _ ⟨⟩
      exact (hPQ hq).mpr (hdenotes q hj)

theorem reaches_iff (h : boundOf j = .ok l.minzoom) :
    l.reaches (.int z) = true ↔ ∀ q, j.Denotes q → q ≤ z := by
  have hbound := forall_boundOf h (P := fun n => n.le (.int z) = true) fun hx => Number.real_le_int hx z
  rw [← hbound, reaches]
  cases l.minzoom <;> simp

theorem endsAbove_iff (h : boundOf j = .ok l.maxzoom) :
    l.endsAbove (.int z) = true ↔ ∀ q, j.Denotes q → (z : Rat) < q := by
  have hbound := forall_boundOf h (P := fun n => (Number.int z).lt n = true) fun hx =>
    Number.int_lt_real hx z
  rw [← hbound, endsAbove]
  cases l.maxzoom <;> simp

theorem isPaintedBy_iff {ms : Json.Members} (h : Paint.ofMembers ms = .ok l.paint)
    (hkeys : (ms.map Prod.fst).Nodup) {property : String} : l.isPaintedBy (.int z) property = true ↔
      ∀ value, ms.lookup property = some value → value.ShowsAt z := by
  have hread : l.isPaintedBy (.int z) property = true ↔
      ∀ paint, l.paint.lookup property = some paint → paint.isNonzeroAt (.int z) = true := by
    rw [isPaintedBy]
    cases l.paint.lookup property with
    | none => simp
    | some paint => simp
  rw [hread]
  simp only [Paint.lookup_ofMembers h hkeys]
  constructor
  · intro hpaint value hvalue
    obtain ⟨paint?, hpaint?⟩ := Paint.ofJson_ok_of_lookup h hvalue
    refine (Paint.ofJson_showsAt hpaint?).mp ?_
    rintro paint rfl
    exact hpaint paint ⟨value, hvalue, hpaint?⟩
  · rintro hshows paint ⟨value, hvalue, hpaint⟩
    exact (Paint.ofJson_showsAt hpaint).mpr (hshows value hvalue) paint rfl

theorem isPainted_iff (h : Paint.properties j = .ok l.paint) (hkeys : j.KeyedOnce) :
    l.isPainted (.int z) = true ↔ ∀ ms, j = .obj ms → ∀ property ∈ checkedProperties,
      ∀ value, ms.lookup property = some value → value.ShowsAt z := by
  rw [isPainted, List.all_eq_true]
  cases j with
  | obj ms =>
    have hnodup := (Json.keyedOnce_obj.mp hkeys).nodup
    simp only [isPaintedBy_iff h hnodup]
    constructor
    · rintro hshows _ ⟨⟩
      exact hshows
    · intro hshows
      exact hshows ms rfl
  | _ =>
    have hempty : l.paint = [] := (Except.ok.inj h).symm
    refine iff_of_true (fun property _ => ?_) nofun
    rw [isPaintedBy, hempty]
    rfl

/-- A layer is drawn where the members that it is read from leave it shown. -/
theorem isDrawn_iff {name : String} {ms : Json.Members} (h : ofMembers name ms = .ok l)
    (hkeys : Json.MembersKeyedOnce ms) : l.isDrawn (.int z) = true ↔ Json.ShownAt z ms := by
  obtain ⟨minzoom, maxzoom, paint, filter, hmin, hmax, hpaint, _, rfl⟩ := ofMembers_eq_ok.mp h
  simp only [isDrawn, isVisible, Bool.and_eq_true]
  rw [isLaidOut_iff rfl, reaches_iff hmin, endsAbove_iff hmax, isPainted_iff hpaint (hkeys.member "paint")]
  constructor
  · rintro ⟨⟨⟨hlayout, hmin⟩, hmax⟩, hpaint⟩
    exact ⟨hlayout, hmin, hmax, hpaint⟩
  · rintro ⟨hlayout, hmin, hmax, hpaint⟩
    exact ⟨⟨⟨hlayout, hmin⟩, hmax⟩, hpaint⟩

end Layer

/-! ## Styles -/

namespace Style

theorem layer?_eq (j : Json) : (StyleEntry.ofJson j).layer? =
    match j.drawing? with
    | some (name, ms) => (Layer.ofMembers name ms).map some
    | none => .ok none := by
  cases j with
  | obj ms =>
    rw [StyleEntry.layer?_obj, Json.drawing?]
    cases StyleEntry.sourceLayer? ms <;> rfl
  | _ => rfl

/-- The layers that are read are those of the entries that draw. -/
theorem forall₂_of_readEntries {js : List Json} {layers : List Layer}
    (h : (readEntries js).2 = .ok layers) :
    List.Forall₂ (fun entry l => Layer.ofMembers entry.1 entry.2 = .ok l) (drawn js) layers := by
  induction js generalizing layers with
  | nil =>
    cases h
    exact .nil
  | cons j js ih =>
    obtain ⟨a, rest, ha, hrest, rfl⟩ := readEntries_cons_eq_ok.mp h
    rw [layer?_eq] at ha
    cases hj : j.drawing? with
    | none =>
      rw [hj] at ha
      cases ha
      simpa [drawn, hj] using ih hrest
    | some entry =>
      rw [hj] at ha
      obtain ⟨l, hl, rfl⟩ := map_eq_ok.mp ha
      simpa [drawn, hj] using ⟨hl, ih hrest⟩

/-- A style that is loaded is made of the entries that draw. -/
theorem indexes_of_loaded {document : Json} {path : Option String} {s : Style}
    (h : (ofJson document path).result = .ok s) :
    ∃ js, document.HasEntries js ∧ s.Indexes (drawn js) := by
  by_cases hsome : ∃ js, document.HasEntries js
  · obtain ⟨js, hjs⟩ := hsome
    rw [ofJson_of_hasEntries hjs] at h
    obtain ⟨layers, hread, _, rfl⟩ := ofEntries_eq_ok.mp h
    exact ⟨js, hjs, ofLayers_indexes (forall₂_of_readEntries hread)⟩
  · obtain ⟨fault, hfault, _⟩ := ofJson_of_not_hasEntries (not_exists.mp hsome) path
    rw [hfault] at h
    cases h

/-- A source-layer is visible where the document that the style is loaded from shows it. -/
theorem isVisible_iff_shows {document : Json} {path : Option String} {s : Style}
    (h : (ofJson document path).result = .ok s) (hkeys : document.KeyedOnce) (name : String) (z : Int) :
    s.isVisible name (.int z) = true ↔ document.Shows name z := by
  obtain ⟨js, hjs, hindexes⟩ := indexes_of_loaded h
  have hlayers := hindexes.layersFor name
  rw [Style.isVisible, List.any_eq_true]
  constructor
  · rintro ⟨l, hl, hdrawn⟩
    obtain ⟨⟨name', ms⟩, hentry, hread⟩ := exists_partner_right hlayers l hl
    obtain ⟨hdrawing, hname⟩ := List.mem_filter.mp hentry
    obtain rfl : name' = name := by simpa using hname
    obtain ⟨hmem, hdraw⟩ := mem_drawn.mp hdrawing
    exact ⟨js, ms, hjs, hmem, hdraw, (Layer.isDrawn_iff hread (hjs.keyedOnce hkeys hmem)).mp hdrawn⟩
  · rintro ⟨js', ms, hjs', hmem, hdraw, hshown⟩
    obtain rfl := hjs.unique hjs'
    have hentry : (name, ms) ∈ (drawn js).filter fun entry => entry.1 == name :=
      List.mem_filter.mpr ⟨mem_drawn.mpr ⟨hmem, hdraw⟩, by simp⟩
    obtain ⟨l, hl, hread⟩ := exists_partner hlayers _ hentry
    exact ⟨l, hl, (Layer.isDrawn_iff hread (hjs.keyedOnce hkeys hmem)).mpr hshown⟩

/-- In a style that is loaded from a document a source-layer is visible at a zoom exactly if an entry of
the document draws from it and shows there. So it is in one that is loaded from a text, and for the
document in a text nothing is asked of its keys. -/
theorem visible_where_an_entry_shows {s : Style} :
    (∀ document path, document.KeyedOnce → (ofJson document path).result = .ok s →
      ∀ name z, s.isVisible name (.int z) = true ↔ document.Shows name z) ∧
    ∀ path text, (ofText path text).result = .ok s → ∃ document, Json.read text = .ok document ∧
      ∀ name z, s.isVisible name (.int z) = true ↔ document.Shows name z := by
  refine ⟨fun document path hkeys h => isVisible_iff_shows h hkeys, fun path text h => ?_⟩
  rw [ofText] at h
  split at h
  next document hread => exact ⟨document, hread, isVisible_iff_shows h (Json.read_keyedOnce hread)⟩
  all_goals cases h

end Style

/-! ## A road that widens -/

/-- A road that is there from zoom 3 on and has no width at zoom 3. -/
def wideningRoad : Json.Members := [
  ("source", .str "tiles"), ("source-layer", .str "road"), ("minzoom", .int 3),
  ("paint", .obj [("line-width", .obj [("stops", .arr [.arr [.int 3, .int 0], .arr [.int 4, .int 2]])])])]

def wideningRoads : Json := .obj [("layers", .arr [.obj wideningRoad])]

/-- A road whose end is written twice. The second time counts, so that it ends at zoom 4. -/
def endingRoads : String := "\x7b\"layers\": [\x7b\"source\": \"tiles\", " ++
  "\"source-layer\": \"road\", \"maxzoom\": 8, \"maxzoom\": 4\x7d]\x7d"

theorem roads_show_where_they_are_wide :
    (wideningRoads.KeyedOnce ∧ ∃ s, (Style.ofJson wideningRoads none).result = .ok s ∧
      ¬ wideningRoads.Shows "road" 3 ∧ wideningRoads.Shows "road" 4) ∧
    ∃ s document, (Style.ofText "roads.json" endingRoads).result = .ok s ∧
      Json.read endingRoads = .ok document ∧ document.Shows "road" 3 ∧ ¬ document.Shows "road" 4 := by
  constructor
  · have hkeys : wideningRoads.KeyedOnce := by
      simp [wideningRoads, wideningRoad, Json.KeyedOnce, Json.ItemsKeyedOnce, Json.MembersKeyedOnce,
        Json.int]
    have hvisible : (Style.ofJson wideningRoads none).result.toOption.map
        (fun s => (s.isVisible "road" (.int 3), s.isVisible "road" (.int 4))) = some (false, true) := by
      decide +kernel
    cases hs : (Style.ofJson wideningRoads none).result with
    | error e => simp [hs, Except.toOption] at hvisible
    | ok s =>
      simp only [hs, Except.toOption, Option.map_some, Option.some.injEq, Prod.mk.injEq] at hvisible
      have hshows := Style.visible_where_an_entry_shows.1 wideningRoads none hkeys hs
      exact ⟨hkeys, s, rfl, by simp [← hshows, hvisible.1], (hshows _ _).mp hvisible.2⟩
  · have hvisible : (Style.ofText "roads.json" endingRoads).result.toOption.map
        (fun s => (s.isVisible "road" (.int 3), s.isVisible "road" (.int 4))) = some (true, false) := by
      decide +kernel
    cases hs : (Style.ofText "roads.json" endingRoads).result with
    | error e => simp [hs, Except.toOption] at hvisible
    | ok s =>
      simp only [hs, Except.toOption, Option.map_some, Option.some.injEq, Prod.mk.injEq] at hvisible
      obtain ⟨document, hread, hshows⟩ :=
        Style.visible_where_an_entry_shows.2 "roads.json" endingRoads hs
      exact ⟨s, document, rfl, hread, (hshows _ _).mp hvisible.1, by simp [← hshows, hvisible.2]⟩

end StyledTiles
