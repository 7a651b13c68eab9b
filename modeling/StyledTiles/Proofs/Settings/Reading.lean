import StyledTiles.Settings
import StyledTiles.Proofs.Number.Denoted
import StyledTiles.Proofs.Outcome

/-!
# What members state

Each setting has a relation between the value of its member and the setting that the value states; a null
value leaves the standard setting. The settings are read exactly when every member states its own, and
then they are the ones that are stated.

Where they are not read, the error is of one of three sorts: a value is invalid, a path is not a text, or
an infinite number stands for an integer. Which of several invalid values is reported is left to the
definition.
-/
namespace StyledTiles

open Outcome

/-- Whether an error says that a value is none that the setting may have. -/
def SettingsError.isInvalidValue : SettingsError → Bool
  | .invalidMode _ | .invalidBoolean .. | .invalidInteger .. | .tooSmall .. | .longInteger => true
  | _ => false

theorem SettingsError.isInvalidValue_quoting {e : SettingsError} (h : e.isInvalidValue = true)
    (value : Json) : (SettingsError.quoting value e).isInvalidValue = true := by
  rw [quoting]
  split
  · rfl
  · exact h

namespace Settings

/-! ## The relations -/

/-- The value has a text, which is the given word up to case and the blanks around it. -/
structure Says (j : Json) (word : String) : Prop where
  short : j.hasLongInteger = false
  word : plainWord j.display = word

/-- The words for a truth. -/
def truthWords : Bool → List String
  | true => ["1", "true", "yes", "on"]
  | false => ["0", "false", "no", "off"]

/-- The integer that a value counts as: a truth counts as one or zero, a binary64 number without its
fraction. -/
inductive Counts : Json → Int → Prop where
  | truth (b : Bool) : Counts (.bool b) (if b then 1 else 0)
  | int (n : Int) : Counts (.num (.int n)) n
  | real {x : Binary64} {q : Rat} (h : x.toRat? = some q) : Counts (.num (.real x)) (towardZero q)
  | text {s : String} {n : Int} (h : Text.integer? s = some n) : Counts (.str s) n

def StatesPath (j : Json) (path : Option String) : Prop :=
  ∃ text, j = .str text ∧ path = some (Path.normal text)

def StatesMode (j : Json) (mode : PruningMode) : Prop := Says j mode.name

def StatesTruth (j : Json) (b : Bool) : Prop := ∃ word ∈ truthWords b, Says j word

def StatesLimit (j : Json) (n : Nat) : Prop := 0 < n ∧ Counts j n

def StatesLevel (j : Json) (level : String) : Prop :=
  j.hasLongInteger = false ∧ level = Text.upper j.display

/-- A null value leaves the standard setting, any other states one. -/
def OrStandard {α : Type} (standard : α) (states : Json → α → Prop) (j : Json) (a : α) : Prop :=
  (j = .null ∧ a = standard) ∨ (j ≠ .null ∧ states j a)

/-- The members state the settings. -/
structure StatedBy (members : Json.Members) (s : Settings) : Prop where
  stylePath : OrStandard none StatesPath (Json.member members "style_path") s.stylePath
  mode : OrStandard .layerFilter StatesMode (Json.member members "style_mode") s.mode
  keepUnknown : OrStandard true StatesTruth (Json.member members "keep_unknown") s.keepUnknown
  maxWorkers : OrStandard 4 StatesLimit (Json.member members "max_workers") s.maxWorkers
  maxTileBytes : OrStandard 1280000 StatesLimit (Json.member members "max_tile_bytes") s.maxTileBytes
  logLevel : OrStandard "INFO" StatesLevel (Json.member members "log_level") s.logLevel

/-! ## One setting -/

section Readers

variable {members : Json.Members} {name : String} {j : Json} {e : SettingsError}

theorem isNull_iff : j.isNull = true ↔ j = .null := by
  cases j <;> simp [Json.isNull]

/-- A member is read as its setting if the reader finds what the values state. -/
theorem reading_eq_ok {α : Type} {default a : α} {read : Json → Except SettingsError α}
    {states : Json → α → Prop} (h : ∀ j a, read j = .ok a ↔ states j a) :
    reading members name default read = .ok a ↔
      OrStandard default states (Json.member members name) a := by
  rw [reading, OrStandard, ← h, ← isNull_iff, Ne, ← isNull_iff]
  cases (Json.member members name).isNull with
  | true => simp [eq_comm]
  | false => simp

theorem reading_eq_error {α : Type} {default : α} {read : Json → Except SettingsError α} :
    reading members name default read = .error e ↔
      Json.member members name ≠ .null ∧ read (Json.member members name) = .error e := by
  rw [reading, Ne, ← isNull_iff]
  cases (Json.member members name).isNull with
  | true => simp
  | false => simp

theorem path_eq_ok {path' : Option String} : (path j).map some = .ok path' ↔ StatesPath j path' := by
  cases j <;> simp [path, StatesPath, Except.map, eq_comm]

theorem path_eq_error : path j = .error e ↔ (∀ text, j ≠ .str text) ∧ e = .notAPath j.kindName := by
  cases j <;> simp [path, eq_comm]

theorem textOf_eq_ok {text : String} :
    textOf j = .ok text ↔ j.hasLongInteger = false ∧ text = j.display := by
  rw [textOf]
  cases j.hasLongInteger <;> simp [eq_comm]

theorem textOf_error (h : textOf j = .error e) : e.isInvalidValue = true := by
  rw [textOf] at h
  split at h
  · cases h
    rfl
  · cases h

theorem ofName?_eq_some {word : String} {mode : PruningMode} :
    PruningMode.ofName? word = some mode ↔ word = mode.name := by
  constructor
  · intro h
    unfold PruningMode.ofName? at h
    split at h <;> cases h <;> rfl
  · rintro rfl
    cases mode <;> rfl

theorem mode_eq_ok {mode : PruningMode} :
    (do PruningMode.ofText (← textOf j)) = .ok mode ↔ StatesMode j mode := by
  simp only [bind_eq_ok, textOf_eq_ok]
  constructor
  · rintro ⟨text, ⟨hshort, rfl⟩, h⟩
    rw [PruningMode.ofText] at h
    split at h
    · rename_i found
      cases h
      exact ⟨hshort, ofName?_eq_some.mp found⟩
    · cases h
  · rintro ⟨hshort, hword⟩
    refine ⟨j.display, ⟨hshort, rfl⟩, ?_⟩
    rw [PruningMode.ofText, ofName?_eq_some.mpr hword]

theorem mode_error (h : (do PruningMode.ofText (← textOf j)) = .error e) :
    e.isInvalidValue = true := by
  rcases bind_eq_error.mp h with h | ⟨text, _, h⟩
  · exact textOf_error h
  · rw [PruningMode.ofText] at h
    split at h
    · cases h
    · cases h
      rfl

theorem truth?_eq_some {word : String} {b : Bool} : truth? word = some b ↔ word ∈ truthWords b := by
  rw [truth?]
  constructor
  · intro h
    split at h
    · rename_i hword
      cases h
      exact hword
    · split at h
      · rename_i hword
        cases h
        exact hword
      · cases h
  · intro h
    cases b with
    | true => exact if_pos h
    | false =>
      have hother : word ∉ truthWords true := by
        intro hword
        simp only [truthWords, List.mem_cons, List.not_mem_nil, or_false] at h
        rcases h with rfl | rfl | rfl | rfl <;> revert hword <;> decide
      exact (if_neg hother).trans (if_pos h)

/-- A truth has a word for itself as its text. -/
theorem statesTruth_bool {b b' : Bool} : StatesTruth (.bool b) b' ↔ b = b' := by
  constructor
  · rintro ⟨word, hword, _, rfl⟩
    revert hword
    cases b <;> cases b' <;> decide
  · rintro rfl
    cases b with
    | true => exact ⟨"true", by decide, rfl, by decide⟩
    | false => exact ⟨"false", by decide, rfl, by decide⟩

/-- A truth is read by its word, also where it stands as itself. -/
theorem boolean_eq (hb : ∀ b, j ≠ .bool b) : boolean name j = (do
    match truth? (plainWord (← textOf j)) with
    | some b => return b
    | none => .error (.invalidBoolean name j)) := by
  rw [boolean.eq_def]
  split
  · exact absurd rfl (hb _)
  · rfl

theorem boolean_eq_ok {b : Bool} : boolean name j = .ok b ↔ StatesTruth j b := by
  by_cases hb : ∃ b', j = .bool b'
  · obtain ⟨b', rfl⟩ := hb
    rw [statesTruth_bool]
    exact Except.ok.injEq b' b ▸ Iff.rfl
  · rw [boolean_eq fun b' h => hb ⟨b', h⟩]
    simp only [bind_eq_ok, textOf_eq_ok]
    constructor
    · rintro ⟨text, ⟨hshort, rfl⟩, h⟩
      split at h
      · rename_i found
        obtain rfl := pure_eq_ok.mp h
        exact ⟨_, truth?_eq_some.mp found, hshort, rfl⟩
      · cases h
    · rintro ⟨word, hword, hshort, rfl⟩
      refine ⟨j.display, ⟨hshort, rfl⟩, ?_⟩
      rw [truth?_eq_some.mpr hword]
      rfl

theorem boolean_error (h : boolean name j = .error e) : e.isInvalidValue = true := by
  by_cases hb : ∃ b, j = .bool b
  · obtain ⟨b, rfl⟩ := hb
    cases h
  · rw [boolean_eq fun b h => hb ⟨b, h⟩] at h
    rcases bind_eq_error.mp h with h | ⟨text, _, h⟩
    · exact textOf_error h
    · split at h
      · cases h
      · cases h
        rfl

theorem level_eq_ok {level : String} :
    (do return Text.upper (← textOf j)) = .ok level ↔ StatesLevel j level := by
  simp only [bind_eq_ok, textOf_eq_ok, pure_eq_ok]
  constructor
  · rintro ⟨text, ⟨hshort, rfl⟩, rfl⟩
    exact ⟨hshort, rfl⟩
  · rintro ⟨hshort, rfl⟩
    exact ⟨j.display, ⟨hshort, rfl⟩, rfl⟩

theorem level_error (h : (do return Text.upper (← textOf j)) = .error e) :
    e.isInvalidValue = true := by
  rcases bind_eq_error.mp h with h | ⟨text, _, h⟩
  · exact textOf_error h
  · cases h

/-! ### Limits -/

theorem integer_eq_ok {n : Int} : integer name j = .ok n ↔ Counts j n := by
  constructor
  · intro h
    unfold integer at h
    split at h
    · cases h
      exact .truth _
    · cases h
      exact .int _
    · cases h
    · rename_i x _
      cases hx : x.toRat? with
      | some q =>
        rw [Binary64.truncate?_eq hx] at h
        cases h
        exact .real hx
      | none =>
        rw [Binary64.truncate?, hx] at h
        cases h
    · split at h
      · rename_i hs
        cases h
        exact .text hs
      · cases h
    · cases h
  · intro h
    cases h with
    | truth b => rfl
    | int n => rfl
    | @real x q hx =>
      cases x with
      | finite negative rank =>
        rw [integer, Binary64.truncate?_eq hx]
        rintro _ ⟨⟩
      | infinite negative => cases hx
      | nan => cases hx
    | text hs => rw [integer, hs]

/-- An integer fails to be read by an infinity, or the value is invalid. -/
theorem integer_error (h : integer name j = .error e) :
    (∃ negative, j = .real (.infinite negative)) ∧ e = .infiniteInteger ∨
      e.isInvalidValue = true := by
  unfold integer at h
  split at h
  · cases h
  · cases h
  · rename_i negative
    cases h
    exact .inl ⟨⟨negative, rfl⟩, rfl⟩
  · split at h
    · cases h
    · cases h
      exact .inr rfl
  · split at h
    · cases h
    · cases h
      exact .inr rfl
  · cases h
    exact .inr (SettingsError.isInvalidValue_quoting rfl _)

theorem positive_eq_ok {n : Int} {k : { k : Nat // 0 < k }} :
    positive name n = .ok k ↔ n = k.val := by
  rw [positive]
  split
  · rename_i hn
    rw [Except.ok.injEq, Subtype.ext_iff]
    change n.toNat = k.val ↔ n = k.val
    omega
  · rename_i hn
    have hk := k.property
    constructor
    · exact nofun
    · omega

theorem positive_error {n : Int} (h : positive name n = .error e) : e.isInvalidValue = true := by
  rw [positive] at h
  split at h
  · cases h
  · cases h
    exact SettingsError.isInvalidValue_quoting rfl _

theorem limit_eq_ok {k : { k : Nat // 0 < k }} :
    (do positive name (← integer name j)) = .ok k ↔ StatesLimit j k.val := by
  simp only [bind_eq_ok, integer_eq_ok, positive_eq_ok]
  constructor
  · rintro ⟨n, hn, rfl⟩
    exact ⟨k.property, hn⟩
  · rintro ⟨_, hn⟩
    exact ⟨k.val, hn, rfl⟩

theorem limit_error (h : (do positive name (← integer name j)) = .error e) :
    (∃ negative, j = .real (.infinite negative)) ∧ e = .infiniteInteger ∨
      e.isInvalidValue = true := by
  rcases bind_eq_error.mp h with h | ⟨n, _, h⟩
  · exact integer_error h
  · exact .inr (positive_error h)

/-- Only an infinity is reported as one. -/
theorem limit_infinite : (do positive name (← integer name j)) = .error .infiniteInteger ↔
    ∃ negative, j = .real (.infinite negative) := by
  constructor
  · intro h
    rcases limit_error h with ⟨hj, _⟩ | hinvalid
    · exact hj
    · cases hinvalid
  · rintro ⟨negative, rfl⟩
    rfl

end Readers

/-! ## All settings -/

variable {members : Json.Members}

theorem reading_limit_eq_ok {name setting : String} {standard : Nat} {hstandard : 0 < standard}
    {k : { k : Nat // 0 < k }} :
    reading members setting ⟨standard, hstandard⟩ (fun j => do positive name (← integer name j)) =
        .ok k ↔
      OrStandard standard StatesLimit (Json.member members setting) k.val := by
  rw [reading_eq_ok fun _ _ => limit_eq_ok, OrStandard, OrStandard, Subtype.ext_iff]

/-- The settings are read exactly when all members state theirs. -/
theorem ofMembers_eq_ok {s : Settings} : ofMembers members = .ok s ↔ StatedBy members s := by
  simp only [ofMembers, bind_eq_ok, pure_eq_ok, reading_limit_eq_ok]
  constructor
  · rintro ⟨stylePath, hpath, mode, hmode, keepUnknown, hkeep, workers, hworkers, bytes, hbytes,
      logLevel, hlevel, rfl⟩
    exact {
      stylePath := (reading_eq_ok fun _ _ => path_eq_ok).mp hpath
      mode := (reading_eq_ok fun _ _ => mode_eq_ok).mp hmode
      keepUnknown := (reading_eq_ok fun _ _ => boolean_eq_ok).mp hkeep
      maxWorkers := hworkers
      maxTileBytes := hbytes
      logLevel := (reading_eq_ok fun _ _ => level_eq_ok).mp hlevel }
  · intro h
    exact ⟨s.stylePath, (reading_eq_ok fun _ _ => path_eq_ok).mpr h.stylePath,
      s.mode, (reading_eq_ok fun _ _ => mode_eq_ok).mpr h.mode,
      s.keepUnknown, (reading_eq_ok fun _ _ => boolean_eq_ok).mpr h.keepUnknown,
      ⟨s.maxWorkers, s.maxWorkers_pos⟩, h.maxWorkers,
      ⟨s.maxTileBytes, s.maxTileBytes_pos⟩, h.maxTileBytes,
      s.logLevel, (reading_eq_ok fun _ _ => level_eq_ok).mpr h.logLevel, rfl⟩

end Settings

end StyledTiles
