import StyledTiles.Log.Setup
import StyledTiles.Text.Quoted

/-!
# The log console

A console shows the events whose level has at least the weight of its threshold, and puts events through
its steps. With what names in capitals stand for this is the library that a run sets up: a few names stand
for something else than a threshold, and there is no console for them.

What the steps do to an event is not said here.
-/
namespace StyledTiles

/-- Why there is no console at a threshold: its name stands for a text, or for something that is neither
a number nor a text. -/
inductive ThresholdError where
  | notALevel (text : String)
  | notComparable (shown : String)
deriving DecidableEq, Repr

def ThresholdError.message : ThresholdError → String
  | .notALevel text => "Unknown level: " ++ Text.quote text
  | .notComparable shown => "Level not an integer or a valid string: " ++ shown

/-- What a name stands for. -/
inductive LogConstant where
  | weight (n : Int)
  | text (s : String)
  | other (shown : String)
deriving DecidableEq, Repr

structure Console where
  threshold : Int
  steps : List LogStep
deriving DecidableEq, Repr

namespace Console

/-- The thresholds by name. -/
def thresholds : List (String × Int) := [
  ("CRITICAL", 50), ("FATAL", 50), ("ERROR", 40), ("WARNING", 30), ("WARN", 30), ("INFO", 20),
  ("DEBUG", 10), ("NOTSET", 0)]

/-- The layout of a line in each of the three template styles: the sign of the style, its kind and the
layout. -/
def layouts : List (String × String × String) := [
  ("%", "PercentStyle", "%(levelname)s:%(name)s:%(message)s"),
  ("\x7b", "StrFormatStyle", "\x7blevelname\x7d:\x7bname\x7d:\x7bmessage\x7d"),
  ("$", "StringTemplateStyle", "$\x7blevelname\x7d:$\x7bname\x7d:$\x7bmessage\x7d")]

def layoutsShown : String :=
  "\x7b" ++ ", ".intercalate (layouts.map fun (sign, kind, layout) =>
    Text.quote sign ++ ": (<class " ++ Text.quote ("logging." ++ kind) ++ ">, " ++ Text.quote layout
      ++ ")") ++ "\x7d"

/-- The threshold that a level names or is. -/
def thresholdOf : Json → Except ThresholdError Int
  | .bool b => .ok (if b then 1 else 0)
  | .num (.int n) => .ok n
  | .str s =>
    match thresholds.lookup s with
    | some n => .ok n
    | none => .error (.notALevel s)
  | value => .error (.notComparable value.quoted)

/-- What names in capitals stand for. -/
def constants : List (String × LogConstant) :=
  thresholds.map (fun (name, weight) => (name, .weight weight)) ++ [
    ("BASIC_FORMAT", .text "%(levelname)s:%(name)s:%(message)s"), ("_STYLES", .other layoutsShown)]

def library : LogLibrary LogConstant Console ThresholdError where
  named? name := constants.lookup name
  informing := .weight LogLevel.info.weight
  console setup :=
    match setup.threshold with
    | .weight n => .ok ⟨n, setup.steps⟩
    | .text s => .error (.notALevel s)
    | .other shown => .error (.notComparable shown)

def shows (c : Console) (level : LogLevel) : Bool := decide (c.threshold ≤ level.weight)

end Console

end StyledTiles
