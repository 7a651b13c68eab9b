import StyledTiles.Proofs.Path
import StyledTiles.Proofs.Settings.Reading
import StyledTiles.Proofs.Text.Integer

/-!
# Settings through the environment and back

Settings that were read from environment variables can be written to them: each setting states itself in
its own text. The path is normal already, the numbers have no more digits than are read, and the level is
in upper case; a path that is not set is not written.

The level is taken to have been ASCII. Whether the upper case of other letters stays as it is is not said.
-/
namespace StyledTiles

/-! ## Upper case of ASCII -/

namespace Text

theorem toUpper_ascii {c : Char} (h : c.toNat < 128) :
    c.toUpper.toNat < 128 ∧ c.toUpper.toUpper = c.toUpper := by
  have hall : ∀ n < 128, (Char.ofNat n).toUpper.toNat < 128 ∧
      (Char.ofNat n).toUpper.toUpper = (Char.ofNat n).toUpper := by decide +kernel
  have := hall c.toNat h
  rwa [Char.ofNat_toNat] at this

theorem upper_of_ascii {s : String} (h : ∀ c ∈ s.toList, c.toNat < 128) :
    (upper s).toList = s.toList.map Char.toUpper := by
  rw [upper, String.toList_ofList, ← List.flatMap_singleton' (s.toList.map _), List.flatMap_map]
  refine List.flatMap_congr fun c hc => ?_
  rw [upperChar, if_pos (h c hc)]

theorem upper_upper {s : String} (h : ∀ c ∈ s.toList, c.toNat < 128) : upper (upper s) = upper s := by
  have hupper := upper_of_ascii h
  have hagain : ∀ c ∈ (upper s).toList, c.toNat < 128 := by
    rw [hupper, List.forall_mem_map]
    exact fun c hc => (toUpper_ascii (h c hc)).1
  rw [← String.toList_inj, upper_of_ascii hagain, hupper, List.map_map, List.map_inj_left]
  exact fun c hc => (toUpper_ascii (h c hc)).2

end Text

namespace Settings

/-! ## Variables as members -/

/-- The value that the environment gives to a setting; a missing variable gives null. -/
def valueIn (environment : List (String × String)) (key : String) : Json :=
  match environment.lookup key with
  | some text => .str text
  | none => .null

theorem lookup_map_str (environment : List (String × String)) (key : String) :
    (environment.map fun (key, text) => (key, Json.str text)).lookup key =
      (environment.lookup key).map Json.str := by
  induction environment with
  | nil => rfl
  | cons entry rest ih =>
    rw [List.map_cons, List.lookup_cons, List.lookup_cons]
    cases key == entry.1 with
    | true => rfl
    | false => exact ih

/-- What entries with values give, by name. -/
def named (value : String → Option Json) (names : List (String × String)) : Json.Members :=
  names.filterMap fun entry => (value entry.2).map fun v => (entry.1, v)

theorem named_cons (value : String → Option Json) (entry : String × String)
    (rest : List (String × String)) : named value (entry :: rest) =
      match value entry.2 with
      | some v => (entry.1, v) :: named value rest
      | none => named value rest := by
  rw [named, List.filterMap_cons]
  cases value entry.2 <;> rfl

theorem lookup_named_of_not_mem {value : String → Option Json} {names : List (String × String)}
    {name : String} (h : name ∉ names.map Prod.fst) : (named value names).lookup name = none := by
  induction names with
  | nil => rfl
  | cons entry rest ih =>
    rw [List.map_cons, List.mem_cons, not_or] at h
    have hne : (name == entry.1) = false := beq_eq_false_iff_ne.mpr h.1
    rw [named_cons]
    cases value entry.2 with
    | none => exact ih h.2
    | some v =>
      rw [List.lookup_cons, hne]
      exact ih h.2

/-- Where each name stands once, the value of a key is found under the name. -/
theorem lookup_named {value : String → Option Json} {names : List (String × String)}
    (hnodup : (names.map Prod.fst).Nodup) {name key : String} (hmem : (name, key) ∈ names) :
    (named value names).lookup name = value key := by
  induction names with
  | nil => cases hmem
  | cons entry rest ih =>
    rw [List.map_cons, List.nodup_cons] at hnodup
    rw [named_cons]
    rcases List.mem_cons.mp hmem with rfl | hmem
    · cases value key with
      | none => exact lookup_named_of_not_mem hnodup.1
      | some v => exact List.lookup_cons_self
    · have hne : (name == entry.1) = false := by
        refine beq_eq_false_iff_ne.mpr fun heq => hnodup.1 ?_
        exact heq ▸ List.mem_map_of_mem hmem
      cases value entry.2 with
      | none => exact ih hnodup.2 hmem
      | some v =>
        rw [List.lookup_cons, hne]
        exact ih hnodup.2 hmem

/-- What the environment says, by the names of the settings. -/
def membersOf (environment : List (String × String)) : Json.Members :=
  named (fun key => (environment.lookup key).map Json.str) variableNames

theorem ofEnvironment_eq (environment : List (String × String)) :
    ofEnvironment environment = ofMembers (membersOf environment) := by
  rw [membersOf, ← funext (lookup_map_str environment)]
  rfl

/-- Each setting is read from its own variable. -/
theorem member_membersOf (environment : List (String × String)) {name key : String}
    (h : (name, key) ∈ variableNames) :
    Json.member (membersOf environment) name = valueIn environment key := by
  rw [Json.member, membersOf, lookup_named (by decide) h, valueIn]
  cases environment.lookup key <;> rfl

theorem ofEnvironment_eq_ok {environment : List (String × String)} {s : Settings} :
    ofEnvironment environment = .ok s ↔ StatedBy (membersOf environment) s := by
  rw [ofEnvironment_eq, ofMembers_eq_ok]

/-! ## What was read states itself -/

variable {environment : List (String × String)} {key : String}

/-- A variable that is set is a text. -/
theorem orStandard_valueIn {α : Type} {standard a : α} {states : Json → α → Prop}
    (h : OrStandard standard states (valueIn environment key) a) :
    a = standard ∨ ∃ text, environment.lookup key = some text ∧ states (.str text) a := by
  rw [valueIn] at h
  split at h
  · rename_i text hlookup
    rcases h with ⟨hnull, _⟩ | ⟨_, hstates⟩
    · cases hnull
    · exact .inr ⟨text, hlookup, hstates⟩
  · rcases h with ⟨_, ha⟩ | ⟨hnull, _⟩
    · exact .inl ha
    · exact absurd rfl hnull

theorem orStandard_str {α : Type} {standard a : α} {states : Json → α → Prop} {text : String}
    (h : states (.str text) a) : OrStandard standard states (.str text) a := .inr ⟨nofun, h⟩

/-- A setting is stated by its variable exactly if that variable states it. -/
theorem orStandard_membersOf {α : Type} {standard a : α} {states : Json → α → Prop}
    {name key : String} (hmem : (name, key) ∈ variableNames) :
    OrStandard standard states (Json.member (membersOf environment) name) a ↔
      OrStandard standard states (valueIn environment key) a := by
  rw [member_membersOf environment hmem]

/-- A path that is not set has no text. -/
def pathValue : Option String → Json
  | some path => .str path
  | none => .null

theorem path_states_itself {path : Option String}
    (h : OrStandard none StatesPath (valueIn environment key) path) :
    OrStandard none StatesPath (pathValue path) path := by
  rcases orStandard_valueIn h with rfl | ⟨text, _, _, heq, rfl⟩
  · exact .inl ⟨rfl, rfl⟩
  · cases heq
    exact orStandard_str ⟨_, rfl, congrArg some (Path.normal_normal text).symm⟩

theorem mode_states_itself (mode : PruningMode) : StatesMode (.str mode.name) mode := by
  cases mode with
  | none => exact ⟨rfl, by decide⟩
  | layer => exact ⟨rfl, by decide⟩
  | layerFilter => exact ⟨rfl, by decide⟩

theorem truth_states_itself (b : Bool) : StatesTruth (.str (if b then "true" else "false")) b := by
  cases b with
  | true => exact ⟨"true", by decide, rfl, by decide⟩
  | false => exact ⟨"false", by decide, rfl, by decide⟩

theorem limit_states_itself {standard n : Nat}
    (h : OrStandard standard StatesLimit (valueIn environment key) n) (hpos : 0 < n)
    (hstandard : standard < 10 ^ Text.maxDigits) : StatesLimit (.str (toString n)) n := by
  have hlimit : n < 10 ^ Text.maxDigits := by
    rcases orStandard_valueIn h with rfl | ⟨text, _, _, hcounts⟩
    · exact hstandard
    · cases hcounts with
      | text hread => exact Text.integer?_lt hread
  exact ⟨hpos, .text (Text.integer?_toString hlimit)⟩

theorem level_states_itself {level : String}
    (h : OrStandard "INFO" StatesLevel (valueIn environment key) level)
    (hascii : ∀ text, environment.lookup key = some text → ∀ c ∈ text.toList, c.toNat < 128) :
    StatesLevel (.str level) level := by
  refine ⟨rfl, ?_⟩
  rcases orStandard_valueIn h with rfl | ⟨text, hlookup, _, rfl⟩
  · decide
  · exact (Text.upper_upper (hascii text hlookup)).symm

theorem standard_lt {standard : Nat} (h : standard < 10 ^ 7) : standard < 10 ^ Text.maxDigits :=
  Nat.lt_of_lt_of_le h (Nat.pow_le_pow_right (by decide) (by decide))

/-! ## What is written -/

theorem valueIn_toEnvironment_path (s : Settings) :
    valueIn s.toEnvironment "TILE_PRUNE_STYLE" = pathValue s.stylePath := by
  rw [toEnvironment]
  cases s.stylePath <;> rfl

/-- The variables besides the path are always set. -/
theorem valueIn_toEnvironment (s : Settings) :
    valueIn s.toEnvironment "TILE_PRUNE_STYLE_MODE" = .str s.mode.name ∧
    valueIn s.toEnvironment "TILE_PRUNE_KEEP_UNKNOWN" =
      .str (if s.keepUnknown then "true" else "false") ∧
    valueIn s.toEnvironment "TILE_PRUNE_THREADS" = .str (toString s.maxWorkers) ∧
    valueIn s.toEnvironment "TILE_PRUNE_MAX_TILE_BYTES" = .str (toString s.maxTileBytes) ∧
    valueIn s.toEnvironment "TILE_PRUNE_LOG_LEVEL" = .str s.logLevel := by
  rw [toEnvironment]
  cases s.stylePath with
  | none => exact ⟨rfl, rfl, rfl, rfl, rfl⟩
  | some path => exact ⟨rfl, rfl, rfl, rfl, rfl⟩

/-- Settings that were read from the environment, written to the variables and read again are the same
settings. -/
theorem environment_round_trip {environment : List (String × String)} {s : Settings}
    (hread : ofEnvironment environment = .ok s)
    (hascii : ∀ level, environment.lookup "TILE_PRUNE_LOG_LEVEL" = some level →
      ∀ c ∈ level.toList, c.toNat < 128) :
    ofEnvironment s.toEnvironment = .ok s := by
  have hstated := ofEnvironment_eq_ok.mp hread
  have hmem : ("style_path", "TILE_PRUNE_STYLE") ∈ variableNames ∧
      ("style_mode", "TILE_PRUNE_STYLE_MODE") ∈ variableNames ∧
      ("keep_unknown", "TILE_PRUNE_KEEP_UNKNOWN") ∈ variableNames ∧
      ("max_workers", "TILE_PRUNE_THREADS") ∈ variableNames ∧
      ("max_tile_bytes", "TILE_PRUNE_MAX_TILE_BYTES") ∈ variableNames ∧
      ("log_level", "TILE_PRUNE_LOG_LEVEL") ∈ variableNames := by decide
  obtain ⟨hpathMem, hmodeMem, hkeepMem, hworkersMem, hbytesMem, hlevelMem⟩ := hmem
  obtain ⟨hmode, hkeep, hworkers, hbytes, hlevel⟩ := valueIn_toEnvironment s
  rw [ofEnvironment_eq_ok]
  constructor
  · rw [orStandard_membersOf hpathMem, valueIn_toEnvironment_path]
    exact path_states_itself ((orStandard_membersOf hpathMem).mp hstated.stylePath)
  · rw [orStandard_membersOf hmodeMem, hmode]
    exact orStandard_str (mode_states_itself s.mode)
  · rw [orStandard_membersOf hkeepMem, hkeep]
    exact orStandard_str (truth_states_itself s.keepUnknown)
  · have hstates := (orStandard_membersOf hworkersMem).mp hstated.maxWorkers
    rw [orStandard_membersOf hworkersMem, hworkers]
    exact orStandard_str (limit_states_itself hstates s.maxWorkers_pos (standard_lt (by decide)))
  · have hstates := (orStandard_membersOf hbytesMem).mp hstated.maxTileBytes
    rw [orStandard_membersOf hbytesMem, hbytes]
    exact orStandard_str (limit_states_itself hstates s.maxTileBytes_pos (standard_lt (by decide)))
  · have hstates := (orStandard_membersOf hlevelMem).mp hstated.logLevel
    rw [orStandard_membersOf hlevelMem, hlevel]
    exact orStandard_str (level_states_itself hstates hascii)

/-! ## An environment -/

/-- Variables that are written in roundabout ways, the number with a sign, an underscore and digits of
two scripts. -/
def roundaboutEnvironment : List (String × String) := [
  ("TILE_PRUNE_STYLE", "//styles/./lakes//style.json/"), ("TILE_PRUNE_STYLE_MODE", " Layer\n"),
  ("TILE_PRUNE_KEEP_UNKNOWN", "OFF"), ("TILE_PRUNE_THREADS", " +\u0661_6 "),
  ("TILE_PRUNE_LOG_LEVEL", "debug"), ("HOME", "/")]

def roundaboutSettings : Settings :=
  { standard with
    stylePath := some "//styles/lakes/style.json"
    mode := .layer
    keepUnknown := false
    maxWorkers := 16
    logLevel := "DEBUG"
    maxWorkers_pos := by decide }

theorem roundabout_settings_round_trip :
    ofEnvironment roundaboutEnvironment = .ok roundaboutSettings ∧
    (∀ level, roundaboutEnvironment.lookup "TILE_PRUNE_LOG_LEVEL" = some level →
      ∀ c ∈ level.toList, c.toNat < 128) ∧
    ofEnvironment roundaboutSettings.toEnvironment = .ok roundaboutSettings := by
  have hread : ofEnvironment roundaboutEnvironment = .ok roundaboutSettings := by rfl
  have hascii : ∀ level, roundaboutEnvironment.lookup "TILE_PRUNE_LOG_LEVEL" = some level →
      ∀ c ∈ level.toList, c.toNat < 128 := by
    intro level hlevel c hc
    obtain rfl : "debug" = level := Option.some.inj hlevel
    have hall : ("debug".toList.all fun c => c.toNat < 128) = true := by decide
    exact of_decide_eq_true (List.all_eq_true.mp hall c hc)
  exact ⟨hread, hascii, environment_round_trip hread hascii⟩

end Settings

end StyledTiles
