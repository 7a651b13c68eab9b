import StyledTiles.Log.Event
import StyledTiles.Text.Uppercase

/-!
# Log setup

A run sets up once how its events are logged: from which threshold on they are shown, and the steps that
each of them is put through. The threshold is named, in any case; a name that stands for nothing is that of
events to inform.

What a name stands for and what is made of a setup is left to a library.
-/
namespace StyledTiles

/-- A step that an event is put through. -/
inductive LogStep where
  | filterByLevel
  | addLoggerName
  | addLevel
  | fillArguments
  | stampTime
  | renderStack
  | renderException
  | decodeTexts
  | renderObject
deriving DecidableEq, Repr

structure LogSetup (τ : Type) where
  threshold : τ
  steps : List LogStep
deriving Repr

/-- What setting up asks of a library: the thresholds that names in capitals stand for, that of events to
inform, and a console for a setup, if there can be one. -/
structure LogLibrary (τ κ ε : Type) where
  named? : String → Option τ
  informing : τ
  console : LogSetup τ → Except ε κ

namespace LogLibrary

/-- The steps of a run, in order. -/
def steps : List LogStep := [
  .filterByLevel, .addLoggerName, .addLevel, .fillArguments, .stampTime, .renderStack,
  .renderException, .decodeTexts, .renderObject]

variable {τ κ ε : Type} (library : LogLibrary τ κ ε)

def setupFor (level : String) : LogSetup τ where
  threshold := (library.named? (Text.upper level)).getD library.informing
  steps := steps

/-- The console of a run whose threshold is named. -/
def configure (level : String) : Except ε κ := library.console (library.setupFor level)

end LogLibrary

end StyledTiles
