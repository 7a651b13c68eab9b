import StyledTiles.Proofs.Pairing
import StyledTiles.Proofs.Style.Faults
import StyledTiles.Proofs.Style.Grouping

/-!
# What a style is made of

The entries of a document that draw are the layers of the style: none is lost, none is there twice, and
inside a source-layer they keep their order. Each of the other entries is reported once, in the order of
the document, and the summary comes after all reports and counts both kinds. A document without an array
of entries is a fault of its own, and so is one in which nothing draws.

All numbers of the document are in range here. Where one is not, loading may end before the last entry.
-/
namespace StyledTiles

open Outcome

/-- A fault in how a document is written, rather than in what it holds or in reading it. -/
def StyleFault.isOfWriting : StyleFault → Bool
  | .notUtf8 | .constant _ | .malformed | .notAnObject | .noLayersArray => true
  | .unreadable | .noSourceLayers => false

namespace Json

/-- The document is an object with an array of entries for its layers. -/
def HasEntries (document : Json) (js : List Json) : Prop :=
  ∃ ms, document = .obj ms ∧ member ms "layers" = .arr js

/-- The source-layer that an entry draws from, and its members. -/
def drawing? : Json → Option (String × Members)
  | .obj ms => (StyleEntry.sourceLayer? ms).map fun name => (name, ms)
  | _ => none

/-- The report on an entry that does not draw. -/
def omission : Json → StyleNotice
  | .obj ms =>
    if (member ms "source").isNull then .skippedWithoutSource (member ms "id")
    else .skippedWithoutSourceLayer (member ms "id")
  | j => .skippedNonObject j.kindName

theorem drawing?_eq_some {j : Json} {name : String} {ms : Members} :
    j.drawing? = some (name, ms) ↔ j = .obj ms ∧ DrawFrom ms name := by
  cases j with
  | obj ns =>
    rw [drawing?, Option.map_eq_some_iff]
    constructor
    · rintro ⟨_, hname, heq⟩
      cases heq
      exact ⟨rfl, StyleEntry.sourceLayer?_eq_some.mp hname⟩
    · rintro ⟨heq, hdraw⟩
      cases heq
      exact ⟨name, StyleEntry.sourceLayer?_eq_some.mpr hdraw, rfl⟩
  | _ => exact ⟨nofun, fun h => nomatch h.1⟩

theorem omission_level (j : Json) : j.omission.level = .debug := by
  cases j with
  | obj ms =>
    rw [omission]
    split <;> rfl
  | _ => rfl

theorem HasEntries.itemsFit {document : Json} {js : List Json} (h : document.HasEntries js)
    (hfits : document.Fits) : ItemsFit js := by
  obtain ⟨ms, rfl, hlayers⟩ := h
  rw [Fits] at hfits
  have hfits := hfits.member "layers"
  rwa [hlayers, fits_arr] at hfits

end Json

namespace Style

/-- The entries that draw, each with its source-layer, in the order of the document. -/
def drawn (js : List Json) : List (String × Json.Members) := js.filterMap Json.drawing?

/-- The entries that do not draw. -/
def leftOut (js : List Json) : List Json := js.filter fun j => j.drawing?.isNone

theorem mem_drawn {js : List Json} {name : String} {ms : Json.Members} :
    (name, ms) ∈ drawn js ↔ .obj ms ∈ js ∧ Json.DrawFrom ms name := by
  simp only [drawn, List.mem_filterMap, Json.drawing?_eq_some]
  constructor
  · rintro ⟨_, hmem, rfl, hdraw⟩
    exact ⟨hmem, hdraw⟩
  · rintro ⟨hmem, hdraw⟩
    exact ⟨_, hmem, rfl, hdraw⟩

theorem drawn_eq_nil_iff {js : List Json} :
    drawn js = [] ↔ ¬ ∃ ms name, .obj ms ∈ js ∧ Json.DrawFrom ms name := by
  rw [List.eq_nil_iff_forall_not_mem]
  constructor
  · rintro h ⟨ms, name, hdraw⟩
    exact h (name, ms) (mem_drawn.mpr hdraw)
  · rintro h ⟨name, ms⟩ hmem
    exact h ⟨ms, name, mem_drawn.mp hmem⟩

/-- Every entry draws or is left out. -/
theorem length_drawn_add_leftOut (js : List Json) :
    (drawn js).length + (leftOut js).length = js.length := by
  induction js with
  | nil => rfl
  | cons j js ih =>
    rw [drawn, leftOut] at ih ⊢
    cases h : j.drawing? with
    | none => simp [h, ← ih, Nat.add_assoc]
    | some p => simp [h, ← ih, Nat.add_right_comm]

/-! ## Reading the entries -/

/-- An entry that does not draw leaves a report and nothing else. -/
theorem readEntries_omitted {j : Json} (h : j.drawing? = none) (js : List Json) :
    readEntries (j :: js) = (j.omission :: (readEntries js).1, (readEntries js).2) := by
  cases j with
  | obj ms =>
    rw [Json.drawing?, Option.map_eq_none_iff, StyleEntry.sourceLayer?] at h
    by_cases hsource : (Json.member ms "source").isNull = true
    · have hentry : StyleEntry.ofJson (.obj ms) = .withoutSource (Json.member ms "id") := by
        rw [StyleEntry.ofJson, if_pos hsource]
      rw [readEntries, hentry, Json.omission, if_pos hsource]
    · have hentry : StyleEntry.ofJson (.obj ms) = .withoutSourceLayer (Json.member ms "id") := by
        rw [if_neg hsource] at h
        rw [StyleEntry.ofJson, if_neg hsource]
        cases hname : Json.member ms "source-layer" with
        | str name =>
          rw [hname] at h
          cases h
        | _ => rfl
      rw [readEntries, hentry, Json.omission, if_neg hsource]
  | _ => rfl

/-- An entry that draws leaves its layer and no report. -/
theorem readEntries_drawn {j : Json} {name : String} {ms : Json.Members} {l : Layer}
    (h : j.drawing? = some (name, ms)) (hl : Layer.ofMembers name ms = .ok l) (js : List Json) :
    readEntries (j :: js) = ((readEntries js).1, (readEntries js).2.map (l :: ·)) := by
  obtain ⟨rfl, hdraw⟩ := Json.drawing?_eq_some.mp h
  have hsource : (Json.member ms "source").isNull = false := by
    cases hj : Json.member ms "source" with
    | null => exact absurd hj hdraw.source
    | _ => rfl
  have hentry : StyleEntry.ofJson (.obj ms) = .usable name ms := by
    rw [StyleEntry.ofJson, hsource, hdraw.sourceLayer]
    rfl
  rw [readEntries, hentry]
  simp only [hl]

/-- Where the numbers fit, the entries that draw leave their layers and the others their reports. -/
theorem readEntries_of_fits {js : List Json} (hfits : Json.ItemsFit js) :
    ∃ layers, readEntries js = ((leftOut js).map Json.omission, .ok layers) ∧
      List.Forall₂ (fun entry l => Layer.ofMembers entry.1 entry.2 = .ok l) (drawn js) layers := by
  induction js with
  | nil => exact ⟨[], rfl, .nil⟩
  | cons j js ih =>
    rw [Json.itemsFit_cons] at hfits
    obtain ⟨layers, hread, hlayers⟩ := ih hfits.2
    cases h : j.drawing? with
    | none =>
      refine ⟨layers, ?_, ?_⟩
      · rw [readEntries_omitted h, hread]
        simp [leftOut, h]
      · simpa [drawn, h] using hlayers
    | some entry =>
      obtain ⟨name, ms⟩ := entry
      obtain ⟨rfl, hdraw⟩ := Json.drawing?_eq_some.mp h
      obtain ⟨l, hl⟩ : ∃ l, Layer.ofMembers name ms = .ok l := by
        have hmembers := hfits.1
        rw [Json.Fits] at hmembers
        exact Layer.ofMembers_ok_iff.mpr (Layer.inRange_of_fits fun key _ => hmembers.member key)
      refine ⟨l :: layers, ?_, ?_⟩
      · rw [readEntries_drawn h hl, hread]
        simp [leftOut, h, Except.map]
      · simpa [drawn, h] using ⟨hl, hlayers⟩

/-! ## The style of the layers -/

/-- The style has the layers of these entries, one for each, under the source-layers they draw from. -/
structure Indexes (s : Style) (entries : List (String × Json.Members)) : Prop where
  sourceLayers : ∀ name, name ∈ s.sourceLayers ↔ ∃ ms, (name, ms) ∈ entries
  nodup : s.sourceLayers.Nodup
  layersFor : ∀ name, List.Forall₂ (fun entry l => Layer.ofMembers entry.1 entry.2 = .ok l)
    (entries.filter fun entry => entry.1 == name) (s.layersFor name)

theorem sourceLayer_of_ofMembers {name : String} {ms : Json.Members} {l : Layer}
    (h : Layer.ofMembers name ms = .ok l) : l.sourceLayer = name := by
  obtain ⟨_, _, _, _, _, _, _, _, rfl⟩ := Layer.ofMembers_eq_ok.mp h
  rfl

theorem ofLayers_indexes {entries : List (String × Json.Members)} {layers : List Layer}
    (h : List.Forall₂ (fun entry l => Layer.ofMembers entry.1 entry.2 = .ok l) entries layers) :
    (ofLayers layers).Indexes entries where
  sourceLayers name := by
    have hnames : layers.map Layer.sourceLayer = entries.map Prod.fst :=
      map_eq_of_forall₂ h fun _ _ => sourceLayer_of_ofMembers
    rw [mem_sourceLayers_ofLayers, ← List.mem_map, hnames]
    simp
  nodup := nodup_sourceLayers_ofLayers layers
  layersFor name := by
    rw [layersFor_ofLayers]
    refine List.rel_filter (fun entry l hl => ?_) h
    change (entry.1 == name) = true ↔ (l.sourceLayer == name) = true
    rw [sourceLayer_of_ofMembers hl]

theorem ofJson_of_hasEntries {document : Json} {js : List Json} (h : document.HasEntries js)
    (path : Option String) : ofJson document path = ofEntries js path := by
  obtain ⟨ms, rfl, hlayers⟩ := h
  simp only [ofJson, hlayers]

/-- A document without an array of entries is at fault in its writing, and nothing is reported. -/
theorem ofJson_of_not_hasEntries {document : Json} (h : ∀ js, ¬ document.HasEntries js)
    (path : Option String) : ∃ fault, ofJson document path = ⟨[], .error (.style fault path)⟩ ∧
      fault.isOfWriting = true := by
  cases document with
  | obj ms =>
    refine ⟨.noLayersArray, ?_, rfl⟩
    cases hlayers : Json.member ms "layers" with
    | arr js => exact absurd ⟨ms, rfl, hlayers⟩ (h js)
    | _ => simp only [ofJson, hlayers]
  | _ => exact ⟨.notAnObject, rfl, rfl⟩

/-- Entries of which none draws are at fault. -/
theorem ofEntries_of_drawn_eq_nil {js : List Json} (hfits : Json.ItemsFit js) (h : drawn js = [])
    (path : Option String) : ofEntries js path =
      ⟨(leftOut js).map Json.omission, .error (.style .noSourceLayers path)⟩ := by
  obtain ⟨layers, hread, hlayers⟩ := readEntries_of_fits hfits
  rw [h] at hlayers
  obtain rfl := List.forall₂_nil_left_iff.mp hlayers
  rw [ofEntries, hread]

/-- Otherwise they make the style of those that draw, and a summary that counts both kinds. -/
theorem ofEntries_of_drawn_ne_nil {js : List Json} (hfits : Json.ItemsFit js) (h : drawn js ≠ [])
    (path : Option String) : ∃ s : Style, s.Indexes (drawn js) ∧
      ofEntries js path = ⟨(leftOut js).map Json.omission ++
        [.loaded path s.sourceLayers.length (drawn js).length (leftOut js).length], .ok s⟩ := by
  obtain ⟨layers, hread, hlayers⟩ := readEntries_of_fits hfits
  refine ⟨ofLayers layers, ofLayers_indexes hlayers, ?_⟩
  rw [ofEntries, hread, hlayers.length_eq]
  cases layers with
  | nil => exact absurd (List.forall₂_nil_right_iff.mp hlayers) h
  | cons l layers => simp

/-- The only fault of a document with an array of entries is that nothing draws. -/
theorem fault_of_hasEntries {document : Json} {js : List Json} (hjs : document.HasEntries js)
    (hfits : document.Fits) {path p : Option String} {fault : StyleFault}
    (h : (ofJson document path).result = .error (.style fault p)) :
    fault = .noSourceLayers ∧ drawn js = [] := by
  rw [ofJson_of_hasEntries hjs] at h
  by_cases hdrawn : drawn js = []
  · rw [ofEntries_of_drawn_eq_nil (hjs.itemsFit hfits) hdrawn] at h
    cases h
    exact ⟨rfl, hdrawn⟩
  · obtain ⟨s, _, hs⟩ := ofEntries_of_drawn_ne_nil (hjs.itemsFit hfits) hdrawn path
    rw [hs] at h
    cases h

/-- A document is at fault in its writing exactly if it has no array of entries, and at fault in what it
holds exactly if it has one in which nothing draws. Otherwise the style has the layers of the entries that
draw and no others. Each entry that does not draw is reported once, in both cases, and the summary that
comes last counts all entries. -/
theorem loading_indexes_what_draws {document : Json} (hfits : document.Fits)
    (path : Option String) :
    ((∃ fault p, (ofJson document path).result = .error (.style fault p) ∧
        fault.isOfWriting = true) ↔ ∀ js, ¬ document.HasEntries js) ∧
    ((∃ p, (ofJson document path).result = .error (.style .noSourceLayers p)) ↔
      ∃ js, document.HasEntries js ∧ ¬ ∃ ms name, .obj ms ∈ js ∧ Json.DrawFrom ms name) ∧
    (∀ j : Json, j.omission.level = .debug) ∧
    ∀ js, document.HasEntries js →
      ((¬ ∃ ms name, .obj ms ∈ js ∧ Json.DrawFrom ms name) →
        (ofJson document path).notices = (leftOut js).map Json.omission) ∧
      ((∃ ms name, .obj ms ∈ js ∧ Json.DrawFrom ms name) →
        ∃ s, (ofJson document path).result = .ok s ∧ s.Indexes (drawn js) ∧
          (ofJson document path).notices = (leftOut js).map Json.omission ++
            [.loaded path s.sourceLayers.length (drawn js).length (leftOut js).length]) ∧
      (drawn js).length + (leftOut js).length = js.length := by
  refine ⟨⟨?_, fun hnone => ?_⟩, ⟨?_, ?_⟩, Json.omission_level, fun js hjs => ⟨?_, ?_, ?_⟩⟩
  · rintro ⟨fault, p, hfault, hwriting⟩ js hjs
    obtain ⟨rfl, _⟩ := fault_of_hasEntries hjs hfits hfault
    cases hwriting
  · obtain ⟨fault, hfault, hwriting⟩ := ofJson_of_not_hasEntries hnone path
    exact ⟨fault, path, by rw [hfault], hwriting⟩
  · rintro ⟨p, hresult⟩
    by_cases hsome : ∃ js, document.HasEntries js
    · obtain ⟨js, hjs⟩ := hsome
      exact ⟨js, hjs, drawn_eq_nil_iff.mp (fault_of_hasEntries hjs hfits hresult).2⟩
    · obtain ⟨fault, hfault, hwriting⟩ := ofJson_of_not_hasEntries (not_exists.mp hsome) path
      rw [hfault] at hresult
      cases hresult
      cases hwriting
  · rintro ⟨js, hjs, hnone⟩
    rw [ofJson_of_hasEntries hjs]
    exact ⟨path, by rw [ofEntries_of_drawn_eq_nil (hjs.itemsFit hfits) (drawn_eq_nil_iff.mpr hnone)]⟩
  · intro hnone
    rw [ofJson_of_hasEntries hjs,
      ofEntries_of_drawn_eq_nil (hjs.itemsFit hfits) (drawn_eq_nil_iff.mpr hnone)]
  · intro hsome
    have hdrawn : drawn js ≠ [] := fun hnil => drawn_eq_nil_iff.mp hnil hsome
    obtain ⟨s, hindexes, h⟩ := ofEntries_of_drawn_ne_nil (hjs.itemsFit hfits) hdrawn path
    rw [ofJson_of_hasEntries hjs, h]
    exact ⟨s, rfl, hindexes, rfl⟩
  · exact length_drawn_add_leftOut js

end Style

/-! ## A chart of lakes and roads -/

def lakeEntry : Json.Members := [
  ("id", .str "lake"), ("source", .str "tiles"), ("source-layer", .str "water"), ("minzoom", .int 4)]

def roadEntry : Json.Members := [
  ("id", .str "road"), ("source", .str "tiles"), ("source-layer", .str "transportation"),
  ("filter", .arr [.str "has", .str "surface"])]

def shoreEntry : Json.Members := [
  ("id", .str "shore"), ("source", .str "tiles"), ("source-layer", .str "water")]

def paperEntry : Json.Members := [("id", .str "paper"), ("source-layer", .str "water")]

def reliefEntry : Json.Members := [("source", .str "terrain")]

/-- Three entries that draw, between others that do not. -/
def chartEntries : List Json := [
  .null, .obj lakeEntry, .obj paperEntry, .obj roadEntry, .obj reliefEntry, .obj shoreEntry]

def chart : Json := .obj [("layers", .arr chartEntries)]

theorem chart_has_its_layers : chart.Fits ∧ ∃ s, (Style.ofJson chart none).result = .ok s ∧
    s.Indexes [("water", lakeEntry), ("transportation", roadEntry), ("water", shoreEntry)] ∧
    (Style.ofJson chart none).notices = [
      .skippedNonObject "NoneType", .skippedWithoutSource (.str "paper"),
      .skippedWithoutSourceLayer .null, .loaded none s.sourceLayers.length 3 3] := by
  have hfour : (Number.int 4).Fits := by decide
  have hfits : chart.Fits := by
    simpa [chart, chartEntries, lakeEntry, roadEntry, shoreEntry, paperEntry, reliefEntry, Json.Fits,
      Json.MembersFit, Json.fits_arr, Json.int, Json.fits_num] using hfour
  have hentries : chart.HasEntries chartEntries := ⟨_, rfl, rfl⟩
  have hlake : Json.DrawFrom lakeEntry "water" := ⟨by simp [lakeEntry, Json.member, List.lookup_cons], rfl⟩
  obtain ⟨_, _, _, hloads⟩ := Style.loading_indexes_what_draws hfits none
  obtain ⟨s, hs, hindexes, hnotices⟩ := (hloads chartEntries hentries).2.1
    ⟨lakeEntry, "water", .tail _ (.head _), hlake⟩
  exact ⟨hfits, s, hs, hindexes, hnotices⟩

end StyledTiles
