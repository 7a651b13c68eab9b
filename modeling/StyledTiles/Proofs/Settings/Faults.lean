import StyledTiles.Proofs.Settings.Reading

/-!
# How settings fail to be read

Members either state settings, or a value is reported that the setting may not have. Two kinds of value
are reported in another way: a path that is not a text, and an infinity that stands for a number of
workers or of bytes. The first is always found, since the path is read first; the second is found when
everything that is read before it is in order.

The settings that are read have positive limits and one of the three modes by their type; what they say
is in `Settings.StatedBy`.
-/
namespace StyledTiles.Settings

open Outcome

variable {members : Json.Members} {e : SettingsError}

/-- The value can neither be left out nor be a path. -/
def IsNoPath (j : Json) : Prop := j ≠ .null ∧ ∀ text, j ≠ .str text

def IsInfinite (j : Json) : Prop := ∃ negative, j = .real (.infinite negative)

/-- The path, the mode and the truth are stated, which are read before the limits. -/
structure WordsStated (members : Json.Members) : Prop where
  stylePath : ∃ path, OrStandard none StatesPath (Json.member members "style_path") path
  mode : ∃ mode, OrStandard .layerFilter StatesMode (Json.member members "style_mode") mode
  keepUnknown : ∃ b, OrStandard true StatesTruth (Json.member members "keep_unknown") b

def WorkersStated (members : Json.Members) : Prop :=
  ∃ n, OrStandard 4 StatesLimit (Json.member members "max_workers") n

/-! ## The first error -/

theorem reading_path_error {default : Option String} :
    reading members "style_path" default (fun j => (path j).map some) = .error e ↔
      IsNoPath (Json.member members "style_path") ∧
        e = .notAPath (Json.member members "style_path").kindName := by
  rw [reading_eq_error, map_eq_error, path_eq_error, IsNoPath, and_assoc]

/-- The path is read first, so one that is none is always found. -/
theorem ofMembers_of_isNoPath (h : IsNoPath (Json.member members "style_path")) :
    ofMembers members = .error (.notAPath (Json.member members "style_path").kindName) := by
  rw [ofMembers, bind_eq_error]
  exact .inl (reading_path_error.mpr ⟨h, rfl⟩)

/-- Every error is about a path that is none, about an infinite limit that is reached, or about an
invalid value. -/
theorem ofMembers_error (h : ofMembers members = .error e) :
    IsNoPath (Json.member members "style_path") ∧
        e = .notAPath (Json.member members "style_path").kindName ∨
      WordsStated members ∧ (IsInfinite (Json.member members "max_workers") ∨
        WorkersStated members ∧ IsInfinite (Json.member members "max_tile_bytes")) ∧
        e = .infiniteInteger ∨
      e.isInvalidValue = true := by
  rw [ofMembers] at h
  rcases bind_eq_error.mp h with h | ⟨stylePath, hpath, h⟩
  · exact .inl (reading_path_error.mp h)
  replace hpath := (reading_eq_ok fun _ _ => path_eq_ok).mp hpath
  rcases bind_eq_error.mp h with h | ⟨mode, hmode, h⟩
  · exact .inr (.inr (mode_error (reading_eq_error.mp h).2))
  replace hmode := (reading_eq_ok fun _ _ => mode_eq_ok).mp hmode
  rcases bind_eq_error.mp h with h | ⟨keepUnknown, hkeep, h⟩
  · exact .inr (.inr (boolean_error (reading_eq_error.mp h).2))
  replace hkeep := (reading_eq_ok fun _ _ => boolean_eq_ok).mp hkeep
  have hwords : WordsStated members := ⟨⟨stylePath, hpath⟩, ⟨mode, hmode⟩, ⟨keepUnknown, hkeep⟩⟩
  rcases bind_eq_error.mp h with h | ⟨workers, hworkers, h⟩
  · rcases limit_error (reading_eq_error.mp h).2 with ⟨hinfinite, he⟩ | hinvalid
    · exact .inr (.inl ⟨hwords, .inl hinfinite, he⟩)
    · exact .inr (.inr hinvalid)
  replace hworkers := reading_limit_eq_ok.mp hworkers
  rcases bind_eq_error.mp h with h | ⟨bytes, _, h⟩
  · rcases limit_error (reading_eq_error.mp h).2 with ⟨hinfinite, he⟩ | hinvalid
    · exact .inr (.inl ⟨hwords, .inr ⟨⟨workers, hworkers⟩, hinfinite⟩, he⟩)
    · exact .inr (.inr hinvalid)
  rcases bind_eq_error.mp h with h | ⟨level, _, h⟩
  · exact .inr (.inr (level_error (reading_eq_error.mp h).2))
  · cases h

theorem reading_limit_infinite {name setting : String} {standard : { k : Nat // 0 < k }}
    (h : IsInfinite (Json.member members setting)) :
    reading members setting standard (fun j => do positive name (← integer name j)) =
      .error .infiniteInteger := by
  refine reading_eq_error.mpr ⟨?_, limit_infinite.mpr h⟩
  obtain ⟨negative, heq⟩ := h
  rw [heq]
  exact nofun

/-- An infinite limit is found when what is read before it is stated. -/
theorem ofMembers_of_isInfinite (hwords : WordsStated members)
    (hlimit : IsInfinite (Json.member members "max_workers") ∨
      WorkersStated members ∧ IsInfinite (Json.member members "max_tile_bytes")) :
    ofMembers members = .error .infiniteInteger := by
  obtain ⟨⟨stylePath, hpath⟩, ⟨mode, hmode⟩, ⟨keepUnknown, hkeep⟩⟩ := hwords
  rw [ofMembers, bind_eq_error]
  refine .inr ⟨stylePath, (reading_eq_ok fun _ _ => path_eq_ok).mpr hpath, bind_eq_error.mpr ?_⟩
  refine .inr ⟨mode, (reading_eq_ok fun _ _ => mode_eq_ok).mpr hmode, bind_eq_error.mpr ?_⟩
  refine .inr ⟨keepUnknown, (reading_eq_ok fun _ _ => boolean_eq_ok).mpr hkeep,
    bind_eq_error.mpr ?_⟩
  rcases hlimit with hinfinite | ⟨⟨workers, hworkers⟩, hinfinite⟩
  · exact .inl (reading_limit_infinite hinfinite)
  · have hpos : 0 < workers := by
      rcases hworkers with ⟨_, rfl⟩ | ⟨_, hstates⟩
      · decide
      · exact hstates.1
    exact .inr ⟨⟨workers, hpos⟩, reading_limit_eq_ok.mpr hworkers,
      bind_eq_error.mpr (.inl (reading_limit_infinite hinfinite))⟩

/-! ## All outcomes -/

/-- Reading ends with the settings that the members state or with an error. It is about an invalid value
but for two cases: the path is not a text, or an infinity is met where an integer is needed. -/
theorem members_state_settings_or_are_refused (members : Json.Members) :
    (∀ s, ofMembers members = .ok s ↔ StatedBy members s) ∧
    ((∃ s, ofMembers members = .ok s) ∨
      (∃ e, ofMembers members = .error e ∧ e.isInvalidValue = true) ∨
      (∃ kind, ofMembers members = .error (.notAPath kind)) ∨
      ofMembers members = .error .infiniteInteger) ∧
    ((∃ kind, ofMembers members = .error (.notAPath kind)) ↔
      IsNoPath (Json.member members "style_path")) ∧
    (ofMembers members = .error .infiniteInteger ↔
      WordsStated members ∧ (IsInfinite (Json.member members "max_workers") ∨
        WorkersStated members ∧ IsInfinite (Json.member members "max_tile_bytes"))) := by
  refine ⟨fun s => ofMembers_eq_ok, ?_, ⟨?_, ?_⟩, ⟨?_, ?_⟩⟩
  · cases h : ofMembers members with
    | ok s => exact .inl ⟨s, rfl⟩
    | error e =>
      rcases ofMembers_error h with ⟨_, rfl⟩ | ⟨_, _, rfl⟩ | hinvalid
      · exact .inr (.inr (.inl ⟨_, rfl⟩))
      · exact .inr (.inr (.inr rfl))
      · exact .inr (.inl ⟨e, rfl, hinvalid⟩)
  · rintro ⟨kind, h⟩
    rcases ofMembers_error h with ⟨hpath, _⟩ | ⟨_, _, he⟩ | hinvalid
    · exact hpath
    · cases he
    · cases hinvalid
  · intro hpath
    exact ⟨_, ofMembers_of_isNoPath hpath⟩
  · intro h
    rcases ofMembers_error h with ⟨_, he⟩ | ⟨hwords, hlimit, _⟩ | hinvalid
    · cases he
    · exact ⟨hwords, hlimit⟩
    · cases hinvalid
  · rintro ⟨hwords, hlimit⟩
    exact ofMembers_of_isInfinite hwords hlimit

/-- One infinite number of workers is enough for an error that is about no invalid value. -/
theorem endless_workers_are_not_refused_as_invalid :
    ¬ ∀ members : Json.Members, (∃ s, ofMembers members = .ok s) ∨
      ∃ e, ofMembers members = .error e ∧ e.isInvalidValue = true := by
  intro always
  have hfails : ofMembers [("max_workers", .real (.infinite false))] = .error .infiniteInteger := rfl
  rcases always [("max_workers", .real (.infinite false))] with ⟨s, hs⟩ | ⟨e, he, hinvalid⟩
  · rw [hfails] at hs
    cases hs
  · rw [hfails] at he
    cases he
    cases hinvalid

end StyledTiles.Settings
