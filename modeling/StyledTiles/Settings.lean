import StyledTiles.Json.Printer
import StyledTiles.Path
import StyledTiles.Text.Integer
import StyledTiles.Text.Uppercase

/-!
# Settings

The settings of a pruning run: the style's path, how much of the style is used, whether features that a
filter cannot tell about are kept, and some limits. They are read from the members of an object or from
environment variables; a null member and a missing variable leave the default.

Settings are read in a fixed order and the first one that is wrong is reported. Words are compared in
lower case without the blanks around them. No letter outside ASCII has a lower case within these words,
so lower case need only know ASCII.

An integer of more digits than are converted has no text: a value that holds one is neither a word nor
quoted.
-/
namespace StyledTiles

/-- How much of the style is used. -/
inductive PruningMode where
  | none
  | layer
  | layerFilter
deriving DecidableEq, Repr

/-- What is wrong with a setting. -/
inductive SettingsError where
  | invalidMode (text : String)
  | invalidBoolean (name : String) (value : Json)
  | invalidInteger (name : String) (value : Json)
  | tooSmall (name : String) (value : Json)
  | longInteger
  | infiniteInteger
  | notAPath (kind : String)
  | unknownSetting (name : String)
  | ownerStated
  | notComparable (kind : String)
  | notAMode (kind : String)
deriving Repr

def SettingsError.message : SettingsError → String
  | .invalidMode text =>
    "Invalid style mode " ++ Text.quote text ++ ", expected one of: none, layer, layer+filter"
  | .invalidBoolean name value => "Invalid boolean for " ++ name ++ ": " ++ value.quoted
  | .invalidInteger name value => "Invalid integer for " ++ name ++ ": " ++ value.quoted
  | .tooSmall name value => name ++ " must be at least 1, got " ++ value.display
  | .longInteger =>
    "Exceeds the limit (" ++ toString Text.maxDigits ++ " digits) for integer string conversion; "
      ++ "use sys.set_int_max_str_digits() to increase the limit"
  | .infiniteInteger => "cannot convert float infinity to integer"
  | .notAPath kind => "expected str, bytes or os.PathLike object, not " ++ kind
  | .unknownSetting name =>
    "PruneConfig.__init__() got an unexpected keyword argument " ++ Text.enclose name
  | .ownerStated => "PruneConfig.__init__() got multiple values for argument 'self'"
  | .notComparable kind =>
    "'<' not supported between instances of " ++ Text.enclose kind ++ " and 'int'"
  | .notAMode kind => Text.enclose kind ++ " object has no attribute 'value'"

namespace Json

mutual

/-- Whether an integer of more digits than are converted stands anywhere in a value. -/
def hasLongInteger : Json → Bool
  | .num (.int n) => Text.maxDigits < (Nat.toDigits 10 n.natAbs).length
  | .arr items => itemsHaveLongInteger items
  | .obj members => membersHaveLongInteger members
  | _ => false

def itemsHaveLongInteger : List Json → Bool
  | [] => false
  | v :: rest => hasLongInteger v || itemsHaveLongInteger rest

def membersHaveLongInteger : List (String × Json) → Bool
  | [] => false
  | (_, v) :: rest => hasLongInteger v || membersHaveLongInteger rest

end

end Json

/-- An error whose message quotes a value, which may have no text to be quoted. -/
def SettingsError.quoting (value : Json) (e : SettingsError) : SettingsError :=
  if value.hasLongInteger then .longInteger else e

/-- A word without the blanks around it and in lower case. -/
def plainWord (s : String) : String := String.ofList ((Text.stripChars s.toList).map Char.toLower)

namespace PruningMode

def name : PruningMode → String
  | .none => "none"
  | .layer => "layer"
  | .layerFilter => "layer+filter"

def ofName? : String → Option PruningMode
  | "none" => some .none
  | "layer" => some .layer
  | "layer+filter" => some .layerFilter
  | _ => Option.none

def ofText (text : String) : Except SettingsError PruningMode :=
  match ofName? (plainWord text) with
  | some mode => .ok mode
  | Option.none => .error (.invalidMode text)

end PruningMode

structure Settings where
  /-- The normal text of the path. -/
  stylePath : Option String := none
  mode : PruningMode := .layerFilter
  keepUnknown : Bool := true
  maxWorkers : Nat := 4
  maxTileBytes : Nat := 1280000
  logLevel : String := "INFO"
  maxWorkers_pos : 0 < maxWorkers := by decide
  maxTileBytes_pos : 0 < maxTileBytes := by decide
deriving Repr

namespace Settings

/-- The settings where nothing else is said. -/
def standard : Settings := {}

/-- The text of a value. -/
def textOf (value : Json) : Except SettingsError String :=
  if value.hasLongInteger then .error .longInteger else .ok value.display

/-- The truth that a word stands for. -/
def truth? (word : String) : Option Bool :=
  if word ∈ ["1", "true", "yes", "on"] then some true
  else if word ∈ ["0", "false", "no", "off"] then some false
  else none

def boolean (name : String) : Json → Except SettingsError Bool
  | .bool b => .ok b
  | value => do
    match truth? (plainWord (← textOf value)) with
    | some b => return b
    | none => .error (.invalidBoolean name value)

/-- The integer of a value: a number without its fraction, a truth as zero or one, a text that is
written as an integer. -/
def integer (name : String) : Json → Except SettingsError Int
  | .bool b => .ok (if b then 1 else 0)
  | .num (.int n) => .ok n
  | .num (.real (.infinite _)) => .error .infiniteInteger
  | .num (.real x) =>
    match x.truncate? with
    | some n => .ok n
    | none => .error (.invalidInteger name (.real x))
  | .str s =>
    match Text.integer? s with
    | some n => .ok n
    | none => .error (.invalidInteger name (.str s))
  | value => .error (.quoting value (.invalidInteger name value))

/-- An integer that is at least one. -/
def positive (name : String) (n : Int) : Except SettingsError { k : Nat // 0 < k } :=
  if h : 1 ≤ n then .ok ⟨n.toNat, by omega⟩
  else .error (.quoting (.int n) (.tooSmall name (.int n)))

def path : Json → Except SettingsError String
  | .str s => .ok (Path.normal s)
  | value => .error (.notAPath value.kindName)

/-- Reads a member that is not null, and keeps the default otherwise. -/
def reading {α : Type} (members : Json.Members) (name : String) (default : α)
    (read : Json → Except SettingsError α) : Except SettingsError α :=
  if (Json.member members name).isNull then .ok default else read (Json.member members name)

/-- The settings that the members of an object state. -/
def ofMembers (members : Json.Members) : Except SettingsError Settings := do
  let stylePath ← reading members "style_path" standard.stylePath fun j => (path j).map some
  let mode ← reading members "style_mode" standard.mode fun j => do
    PruningMode.ofText (← textOf j)
  let keepUnknown ← reading members "keep_unknown" standard.keepUnknown (boolean "keep_unknown")
  let workers ← reading members "max_workers" ⟨standard.maxWorkers, standard.maxWorkers_pos⟩
    fun j => do positive "max_workers" (← integer "max_workers" j)
  let bytes ← reading members "max_tile_bytes" ⟨standard.maxTileBytes, standard.maxTileBytes_pos⟩
    fun j => do positive "max_tile_bytes" (← integer "max_tile_bytes" j)
  let logLevel ← reading members "log_level" standard.logLevel fun j => do
    return Text.upper (← textOf j)
  return {
    stylePath, mode, keepUnknown, logLevel
    maxWorkers := workers.val
    maxTileBytes := bytes.val
    maxWorkers_pos := workers.property
    maxTileBytes_pos := bytes.property }

/-! ## The environment -/

/-- The environment variable of each setting. -/
def variableNames : List (String × String) := [
  ("style_path", "TILE_PRUNE_STYLE"), ("style_mode", "TILE_PRUNE_STYLE_MODE"),
  ("keep_unknown", "TILE_PRUNE_KEEP_UNKNOWN"), ("max_workers", "TILE_PRUNE_THREADS"),
  ("max_tile_bytes", "TILE_PRUNE_MAX_TILE_BYTES"), ("log_level", "TILE_PRUNE_LOG_LEVEL")]

/-- The settings that variables of any kind of value state. -/
def ofVariables (stated : Json.Members) : Except SettingsError Settings :=
  ofMembers (variableNames.filterMap fun (name, key) =>
    (stated.lookup key).map fun value => (name, value))

/-- The settings that environment variables state. An empty variable is not a missing one. -/
def ofEnvironment (environment : List (String × String)) : Except SettingsError Settings :=
  ofVariables (environment.map fun (key, text) => (key, .str text))

/-- The environment variables that state the settings. -/
def toEnvironment (s : Settings) : List (String × String) :=
  (match s.stylePath with
    | some path => [("TILE_PRUNE_STYLE", path)]
    | none => []) ++ [
  ("TILE_PRUNE_STYLE_MODE", s.mode.name),
  ("TILE_PRUNE_KEEP_UNKNOWN", if s.keepUnknown then "true" else "false"),
  ("TILE_PRUNE_THREADS", toString s.maxWorkers),
  ("TILE_PRUNE_MAX_TILE_BYTES", toString s.maxTileBytes),
  ("TILE_PRUNE_LOG_LEVEL", s.logLevel)]

end Settings

end StyledTiles
