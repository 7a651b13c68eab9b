/-!
# Three-valued decisions

A filter accepts a feature, rejects it, or cannot tell. Decisions are ordered: no, unknown, yes.

The connectives read their decisions from the left and stop at the first one that settles the result.
`Connective.run` gives the result together with how many decisions were read.
-/
namespace StyledTiles

inductive Decision where
  | no
  | unknown
  | yes
deriving DecidableEq, Repr

namespace Decision

def ofBool (b : Bool) : Decision := if b then .yes else .no

def name : Decision → String
  | .no => "false"
  | .unknown => "unknown"
  | .yes => "true"

def ofName? : String → Option Decision
  | "false" => some .no
  | "unknown" => some .unknown
  | "true" => some .yes
  | _ => none

/-- Negation exchanges yes and no. -/
def not : Decision → Decision
  | .no => .yes
  | .unknown => .unknown
  | .yes => .no

/-- The greater of two decisions. -/
def or : Decision → Decision → Decision
  | .yes, _ | _, .yes => .yes
  | .unknown, _ | _, .unknown => .unknown
  | .no, .no => .no

/-- The lesser of two decisions. -/
def and : Decision → Decision → Decision
  | .no, _ | _, .no => .no
  | .unknown, _ | _, .unknown => .unknown
  | .yes, .yes => .yes

end Decision

/-- How several decisions become one. -/
inductive Connective where
  | all
  | any
  | none
deriving DecidableEq, Repr

namespace Connective

def name : Connective → String
  | .all => "all"
  | .any => "any"
  | .none => "none"

def ofName? : String → Option Connective
  | "all" => some .all
  | "any" => some .any
  | "none" => some .none
  | _ => Option.none

/-- The decision that settles the result wherever it stands. -/
def stop : Connective → Decision
  | .all => .no
  | .any => .yes
  | .none => .yes

/-- The result once a settling decision has been read. -/
def settled : Connective → Decision
  | .all => .no
  | .any => .yes
  | .none => .no

/-- The result when all decisions have been read and none was unknown. -/
def exhausted : Connective → Decision
  | .all => .yes
  | .any => .no
  | .none => .yes

/-- The result when all decisions have been read. -/
def finish (how : Connective) (sawUnknown : Bool) : Decision :=
  if sawUnknown then .unknown else how.exhausted

/-- Reads decisions until one settles the result; `read` decisions have been read before. -/
def runFrom (how : Connective) (sawUnknown : Bool) (read : Nat) : List Decision → Decision × Nat
  | [] => (how.finish sawUnknown, read)
  | d :: ds =>
    if d = how.stop then (how.settled, read + 1)
    else how.runFrom (sawUnknown || d = .unknown) (read + 1) ds

def run (how : Connective) (ds : List Decision) : Decision × Nat := how.runFrom false 0 ds

def combine (how : Connective) (ds : List Decision) : Decision := (how.run ds).1

def consumed (how : Connective) (ds : List Decision) : Nat := (how.run ds).2

end Connective

end StyledTiles
