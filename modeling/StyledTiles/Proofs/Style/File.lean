import StyledTiles.Proofs.Json.Documents
import StyledTiles.Proofs.Path
import StyledTiles.Proofs.Style.Indexed
import StyledTiles.Style.File

/-!
# Outcomes of style files

A file gives a style exactly if its bytes are the UTF-8 text of a document with an array of entries of
which one draws. Otherwise there is a fault: of the file, of its writing, or of what it holds. The fault
comes with the path in its normal text, and nothing else goes wrong where the path can name a file and
the numbers are in range.

How deep values may be nested is not limited here. Escaped surrogates without their partners are held as
replacement characters.
-/
namespace StyledTiles

open Outcome

/-- Some of the entries draws from a source-layer. -/
def Json.SomeDraw (js : List Json) : Prop := ∃ ms name, .obj ms ∈ js ∧ DrawFrom ms name

namespace FileContents

/-- The runs of digits in the text of the file are short enough for all integers to be in range. -/
def InRange (contents : FileContents) : Prop :=
  ∀ text : String, contents = some text.toUTF8 → Json.Token.ShortRuns Json.digitsInRange text.toList

/-- The file is the UTF-8 text of a document that holds the value. -/
def Holds (contents : FileContents) (document : Json) : Prop :=
  ∃ text : String, contents = some text.toUTF8 ∧ Json.Document text document

/-- The file holds a document with an array of entries. -/
def HasEntries (contents : FileContents) (js : List Json) : Prop :=
  ∃ document, contents.Holds document ∧ document.HasEntries js

/-- The file can be read, but it is no UTF-8 text, or no document, or one without an array of entries. -/
inductive IsNoStyle : FileContents → Prop
  | notUtf8 {bytes : ByteArray} (h : ∀ text : String, text.toUTF8 ≠ bytes) : IsNoStyle (some bytes)
  | notJson {text : String} (h : ∀ document, ¬ Json.Document text document) :
      IsNoStyle (some text.toUTF8)
  | noEntries {text : String} {document : Json} (hdocument : Json.Document text document)
      (h : ∀ js, ¬ document.HasEntries js) : IsNoStyle (some text.toUTF8)

end FileContents

theorem fromUTF8?_eq_some {bytes : ByteArray} {text : String} :
    String.fromUTF8? bytes = some text ↔ text.toUTF8 = bytes := by
  rw [String.fromUTF8?]
  constructor
  · intro h
    split at h
    · cases h
      rfl
    · cases h
  · rintro rfl
    rw [String.toUTF8_eq_toByteArray, dif_pos text.isValidUTF8]
    rfl

namespace Style

variable {path : String} {contents : FileContents}

/-- A path that can name a file leaves the outcome to the contents. -/
theorem ofFile_eq (hpath : '\x00' ∉ path.toList) (contents : FileContents) :
    ofFile path contents =
      match contents with
      | none => failed (Path.normal path) .unreadable
      | some bytes =>
        match String.fromUTF8? bytes with
        | some text => ofText (Path.normal path) text
        | none => failed (Path.normal path) .notUtf8 := by
  have husable : ¬ (!Path.isUsable (Path.normal path)) = true := by
    simp [Path.isUsable_normal hpath]
  exact if_neg husable

theorem ofFile_text (hpath : '\x00' ∉ path.toList) (text : String) :
    ofFile path (some text.toUTF8) = ofText (Path.normal path) text := by
  rw [ofFile_eq hpath]
  simp only [fromUTF8?_eq_some.mpr rfl]

/-- A text that is no document fails by the way it is written. -/
theorem ofText_not_document {path text : String}
    (hruns : Json.Token.ShortRuns Text.maxDigits text.toList)
    (h : ∀ document, ¬ Json.Document text document) :
    ∃ fault, fault.isOfWriting = true ∧ ofText path text = failed path fault := by
  cases hread : Json.read text with
  | ok document => exact absurd ((Json.read_eq_ok hruns).mp hread) (h document)
  | error e =>
    cases e with
    | malformed => exact ⟨.malformed, rfl, by simp only [ofText, hread]⟩
    | constant c => exact ⟨.constant c.name, rfl, by simp only [ofText, hread]⟩
    | longInteger digits => exact absurd hread (Json.read_ne_longInteger hruns digits)

theorem ofText_document {path text : String} {document : Json}
    (hruns : Json.Token.ShortRuns Text.maxDigits text.toList) (h : Json.Document text document) :
    ofText path text = ofJson document (some path) := by
  simp only [ofText, (Json.read_eq_ok hruns).mpr h]

end Style

namespace FileContents

variable {contents : FileContents} {document : Json}

theorem InRange.shortRuns {text : String} (h : InRange (some text.toUTF8)) :
    Json.Token.ShortRuns Text.maxDigits text.toList :=
  fun run hrun hdigits => Nat.le_trans (h text rfl run hrun hdigits) (by decide)

theorem Holds.fits (h : contents.Holds document) (hrange : contents.InRange) : document.Fits := by
  obtain ⟨text, hcontents, hdocument⟩ := h
  exact hdocument.fits (hrange text hcontents)

/-- A file cannot be read, or it is no style, or it has entries. -/
theorem exhausted (contents : FileContents) :
    contents = none ∨ contents.IsNoStyle ∨ ∃ js, contents.HasEntries js := by
  cases contents with
  | none => exact .inl rfl
  | some bytes =>
    refine .inr ?_
    by_cases htext : ∃ text : String, text.toUTF8 = bytes
    · obtain ⟨text, rfl⟩ := htext
      by_cases hjson : ∃ document, Json.Document text document
      · obtain ⟨document, hdocument⟩ := hjson
        by_cases hentries : ∃ js, document.HasEntries js
        · obtain ⟨js, hjs⟩ := hentries
          exact .inr ⟨js, document, ⟨text, rfl, hdocument⟩, hjs⟩
        · exact .inl (.noEntries hdocument (not_exists.mp hentries))
      · exact .inl (.notJson (not_exists.mp hjson))
    · exact .inl (.notUtf8 (not_exists.mp htext))

end FileContents

namespace Style

variable {path : String} {contents : FileContents} {document : Json} {js : List Json}

theorem ofFile_of_isNoStyle (hpath : '\x00' ∉ path.toList) (hrange : contents.InRange)
    (h : contents.IsNoStyle) : ∃ fault, fault.isOfWriting = true ∧
      (ofFile path contents).result = .error (.style fault (some (Path.normal path))) := by
  cases h with
  | @notUtf8 bytes h =>
    have hnone : String.fromUTF8? bytes = none := by
      rw [Option.eq_none_iff_forall_ne_some]
      exact fun text htext => h text (fromUTF8?_eq_some.mp htext)
    refine ⟨.notUtf8, rfl, ?_⟩
    rw [ofFile_eq hpath]
    simp only [hnone, failed]
  | notJson h =>
    obtain ⟨fault, hwriting, hfailed⟩ := ofText_not_document hrange.shortRuns h
    exact ⟨fault, hwriting, by rw [ofFile_text hpath, hfailed, failed]⟩
  | noEntries hdocument h =>
    obtain ⟨fault, hfault, hwriting⟩ := ofJson_of_not_hasEntries h (some (Path.normal path))
    exact ⟨fault, hwriting, by
      rw [ofFile_text hpath, ofText_document hrange.shortRuns hdocument, hfault]⟩

/-- A file that holds a document is loaded as the document is. -/
theorem ofFile_of_holds (hpath : '\x00' ∉ path.toList) (hrange : contents.InRange)
    (h : contents.Holds document) :
    ofFile path contents = ofJson document (some (Path.normal path)) := by
  obtain ⟨text, rfl, hdocument⟩ := h
  rw [ofFile_text hpath, ofText_document hrange.shortRuns hdocument]

theorem ofFile_of_not_someDraw (hpath : '\x00' ∉ path.toList) (hrange : contents.InRange)
    (h : contents.HasEntries js) (hnone : ¬ Json.SomeDraw js) :
    (ofFile path contents).result = .error (.style .noSourceLayers (some (Path.normal path))) := by
  obtain ⟨document, hholds, hjs⟩ := h
  rw [ofFile_of_holds hpath hrange hholds, ofJson_of_hasEntries hjs,
    ofEntries_of_drawn_eq_nil (hjs.itemsFit (hholds.fits hrange)) (drawn_eq_nil_iff.mpr hnone)]

theorem ofFile_of_someDraw (hpath : '\x00' ∉ path.toList) (hrange : contents.InRange)
    (h : contents.HasEntries js) (hsome : Json.SomeDraw js) :
    ∃ s, (ofFile path contents).result = .ok s := by
  obtain ⟨document, hholds, hjs⟩ := h
  have hdrawn : drawn js ≠ [] := fun hnil => drawn_eq_nil_iff.mp hnil hsome
  obtain ⟨s, _, hs⟩ := ofEntries_of_drawn_ne_nil (hjs.itemsFit (hholds.fits hrange)) hdrawn
    (some (Path.normal path))
  exact ⟨s, by rw [ofFile_of_holds hpath hrange hholds, ofJson_of_hasEntries hjs, hs]⟩

/-- Conditions that cover all cases and lead to results that exclude each other are those of the
results. -/
theorem iff_of_exclusive {a b c d p q r s : Prop} (hcases : a ∨ b ∨ c ∨ d) (ha : a → p) (hb : b → q)
    (hc : c → r) (hd : d → s) (hp : p → ¬ q ∧ ¬ r ∧ ¬ s) (hq : q → ¬ r ∧ ¬ s) (hr : r → ¬ s) :
    (p ↔ a) ∧ (q ↔ b) ∧ (r ↔ c) ∧ (s ↔ d) := by
  refine ⟨⟨fun h => ?_, ha⟩, ⟨fun h => ?_, hb⟩, ⟨fun h => ?_, hc⟩, ⟨fun h => ?_, hd⟩⟩
  · rcases hcases with h' | h' | h' | h'
    · exact h'
    · exact absurd (hb h') (hp h).1
    · exact absurd (hc h') (hp h).2.1
    · exact absurd (hd h') (hp h).2.2
  · rcases hcases with h' | h' | h' | h'
    · exact absurd h (hp (ha h')).1
    · exact h'
    · exact absurd (hc h') (hq h).1
    · exact absurd (hd h') (hq h).2
  · rcases hcases with h' | h' | h' | h'
    · exact absurd h (hp (ha h')).2.1
    · exact absurd h (hq (hb h')).1
    · exact h'
    · exact absurd (hd h') (hr h)
  · rcases hcases with h' | h' | h' | h'
    · exact absurd h (hp (ha h')).2.2
    · exact absurd h (hq (hb h')).2
    · exact absurd h (hr (hc h'))
    · exact h'

/-- The four outcomes, each with its condition. -/
theorem ofFile_iff (hpath : '\x00' ∉ path.toList) (hrange : contents.InRange) :
    ((ofFile path contents).result = .error (.style .unreadable (some (Path.normal path))) ↔
        contents = none) ∧
      ((∃ fault, fault.isOfWriting = true ∧
          (ofFile path contents).result = .error (.style fault (some (Path.normal path)))) ↔
        contents.IsNoStyle) ∧
      ((ofFile path contents).result = .error (.style .noSourceLayers (some (Path.normal path))) ↔
        ∃ js, contents.HasEntries js ∧ ¬ Json.SomeDraw js) ∧
      ((∃ s, (ofFile path contents).result = .ok s) ↔
        ∃ js, contents.HasEntries js ∧ Json.SomeDraw js) := by
  apply iff_of_exclusive
  · rcases contents.exhausted with hnone | hno | ⟨js, hjs⟩
    · exact .inl hnone
    · exact .inr (.inl hno)
    · by_cases hdraw : Json.SomeDraw js
      · exact .inr (.inr (.inr ⟨js, hjs, hdraw⟩))
      · exact .inr (.inr (.inl ⟨js, hjs, hdraw⟩))
  · rintro rfl
    exact congrArg StyleLoading.result (ofFile_eq hpath none)
  · exact ofFile_of_isNoStyle hpath hrange
  · rintro ⟨js, hjs, hdraw⟩
    exact ofFile_of_not_someDraw hpath hrange hjs hdraw
  · rintro ⟨js, hjs, hdraw⟩
    exact ofFile_of_someDraw hpath hrange hjs hdraw
  · intro h
    rw [h]
    refine ⟨?_, nofun, nofun⟩
    rintro ⟨_, hwriting, ⟨⟩⟩
    cases hwriting
  · rintro ⟨fault, hwriting, h⟩
    rw [h]
    refine ⟨?_, nofun⟩
    rintro ⟨⟩
    cases hwriting
  · intro h
    rw [h]
    exact nofun

/-- The outcome of a style file whose path can name a file and whose numbers are in range. It is a fault
of the file exactly if it cannot be read, a fault of writing exactly if it can be read but is no UTF-8
text of a document with an array of entries, the fault that nothing draws exactly if no entry does, and a
style exactly if one does. The style is that of the document; there are no other faults, each has the
path, and the source-layers of a file are those of its style. -/
theorem outcome_of_file (path : String) (contents : FileContents) (hpath : '\x00' ∉ path.toList)
    (hrange : contents.InRange) :
    let place := some (Path.normal path)
    let result := (ofFile path contents).result
    (result = .error (.style .unreadable place) ↔ contents = none) ∧
      ((∃ fault, fault.isOfWriting = true ∧ result = .error (.style fault place)) ↔
        contents.IsNoStyle) ∧
      (result = .error (.style .noSourceLayers place) ↔
        ∃ js, contents.HasEntries js ∧ ¬ Json.SomeDraw js) ∧
      ((∃ s, result = .ok s) ↔ ∃ js, contents.HasEntries js ∧ Json.SomeDraw js) ∧
      (∀ document, contents.Holds document → result = (ofJson document place).result) ∧
      (∀ e, result = .error e → ∃ fault, e = .style fault place) ∧
      (∀ e, sourceLayersOfFile path contents = .error e ↔ result = .error e) ∧
      (∀ names, sourceLayersOfFile path contents = .ok names ↔
        ∃ s, result = .ok s ∧ s.sourceLayers = names) := by
  intro place result
  obtain ⟨hunreadable, hwriting, hidle, hstyle⟩ := ofFile_iff hpath hrange
  refine ⟨hunreadable, hwriting, hidle, hstyle, fun document hholds => ?_, fun e he => ?_,
    fun e => map_eq_error, fun names => map_eq_ok⟩
  · exact congrArg StyleLoading.result (ofFile_of_holds hpath hrange hholds)
  · rcases contents.exhausted with hnone | hno | ⟨js, hjs⟩
    · exact ⟨_, Except.error.inj (he.symm.trans (hunreadable.mpr hnone))⟩
    · obtain ⟨fault, _, hfault⟩ := hwriting.mpr hno
      exact ⟨fault, Except.error.inj (he.symm.trans hfault)⟩
    · by_cases hdraw : Json.SomeDraw js
      · obtain ⟨s, hs⟩ := hstyle.mpr ⟨js, hjs, hdraw⟩
        cases he.symm.trans hs
      · exact ⟨_, Except.error.inj (he.symm.trans (hidle.mpr ⟨js, hjs, hdraw⟩))⟩

end Style

/-- A chart whose layers are written twice: without entries first, then with one that draws. -/
def redrawnChart : String :=
  "\x7b\"layers\": [], \"layers\": [\x7b\"source\": \"tiles\", \"source-layer\": \"road\", \"minzoom\": 4\x7d]\x7d"

theorem redrawn_chart_draws : '\x00' ∉ "chart.json".toList ∧
    FileContents.InRange (some redrawnChart.toUTF8) ∧
    Style.sourceLayersOfFile "chart.json" (some redrawnChart.toUTF8) = .ok ["road"] ∧
    ∃ js, FileContents.HasEntries (some redrawnChart.toUTF8) js ∧ Json.SomeDraw js := by
  have hpath : '\x00' ∉ "chart.json".toList := by decide
  have hlength : redrawnChart.toList.length ≤ Json.digitsInRange := by decide +kernel
  have hrange : FileContents.InRange (some redrawnChart.toUTF8) := by
    intro text htext run hrun _
    obtain rfl : redrawnChart = text := String.toByteArray_inj.mp (Option.some.inj htext)
    exact Nat.le_trans hrun.length_le hlength
  have hnames : Style.sourceLayersOfFile "chart.json" (some redrawnChart.toUTF8) = .ok ["road"] := by
    decide +kernel
  obtain ⟨_, _, _, hstyle, _, _, _, hsourceLayers⟩ :=
    Style.outcome_of_file "chart.json" (some redrawnChart.toUTF8) hpath hrange
  obtain ⟨s, hs, _⟩ := (hsourceLayers ["road"]).mp hnames
  exact ⟨hpath, hrange, hnames, hstyle.mp ⟨s, hs⟩⟩

end StyledTiles
