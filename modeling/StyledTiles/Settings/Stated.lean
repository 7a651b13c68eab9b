import StyledTiles.Settings

/-!
# Stated settings

Settings can also be stated value by value instead of being read. Then no name but a setting's may be
stated, and a value is not converted: what is stated stays as it is, so that a report shows it in the
same form. Only the mode and the path are brought into their types, and a limit has to compare with one.

The checks come in a fixed order: the names, the mode where it is a text, the path, the two limits, and
last whether there is a mode at all.
-/
namespace StyledTiles

/-- A limit: a number, or a truth, which counts as one or zero. -/
inductive Limit where
  | truth (b : Bool)
  | number (n : Number)
deriving DecidableEq, Repr

namespace Limit

/-- The number that a limit counts as. -/
def amount : Limit → Number
  | .truth b => .int (if b then 1 else 0)
  | .number n => n

def toJson : Limit → Json
  | .truth b => .bool b
  | .number n => .num n

/-- The limit that a value states; only numbers and truths state one. -/
def ofJson? : Json → Option Limit
  | .bool b => some (.truth b)
  | .num n => some (.number n)
  | _ => none

def ofInt (n : Int) : Limit := .number (.int n)

end Limit

structure StatedSettings where
  /-- The normal text of the path. -/
  stylePath : Option String
  mode : PruningMode
  keepUnknown : Json
  maxWorkers : Limit
  maxTileBytes : Limit
  logLevel : Json
deriving Repr

/-- Settings that have been read can be stated as they are. -/
def Settings.toStated (s : Settings) : StatedSettings where
  stylePath := s.stylePath
  mode := s.mode
  keepUnknown := .bool s.keepUnknown
  maxWorkers := .ofInt s.maxWorkers
  maxTileBytes := .ofInt s.maxTileBytes
  logLevel := .str s.logLevel

namespace StatedSettings

/-- Whether features are kept that a filter cannot tell about: any value but a void one says so. -/
def keepsUnknown (s : StatedSettings) : Bool := !s.keepUnknown.isVoid

def names : List String :=
  ["style_path", "style_mode", "keep_unknown", "max_workers", "max_tile_bytes", "log_level"]

/-- Refuses a name that is no setting's; the first one counts. -/
def checkNames (members : Json.Members) : Except SettingsError Unit :=
  match members.find? fun (name, _) => !names.contains name with
  | some (name, _) => .error (if name = "self" then .ownerStated else .unknownSetting name)
  | none => .ok ()

/-- A limit that is not below one. NaN is below nothing. -/
def limit (name : String) (value : Json) : Except SettingsError Limit :=
  match Limit.ofJson? value with
  | some l => if l.amount.lt (.int 1) then .error (.quoting value (.tooSmall name value)) else .ok l
  | none => .error (.notComparable value.kindName)

/-- A mode that is stated by its name; nothing for another value. -/
def modeOf : Json → Except SettingsError (Option PruningMode)
  | .str s => (PruningMode.ofText s).map some
  | _ => .ok none

/-- The stated value of a setting, or else the standard one. -/
def valueOf (members : Json.Members) (name : String) (standard : Json) : Json :=
  (members.lookup name).getD standard

/-- The settings that members state. -/
def ofMembers (members : Json.Members) : Except SettingsError StatedSettings := do
  let standard := Settings.standard.toStated
  checkNames members
  let modeValue := valueOf members "style_mode" (.str standard.mode.name)
  let mode ← modeOf modeValue
  let stylePath ← Settings.reading members "style_path" standard.stylePath fun j =>
    (Settings.path j).map some
  let maxWorkers ← limit "max_workers" (valueOf members "max_workers" standard.maxWorkers.toJson)
  let maxTileBytes ←
    limit "max_tile_bytes" (valueOf members "max_tile_bytes" standard.maxTileBytes.toJson)
  match mode with
  | none => .error (.notAMode modeValue.kindName)
  | some mode =>
    return {
      stylePath, mode, maxWorkers, maxTileBytes
      keepUnknown := valueOf members "keep_unknown" standard.keepUnknown
      logLevel := valueOf members "log_level" standard.logLevel }

end StatedSettings

end StyledTiles
