import StyledTiles.Json.Basic

/-!
# Paint values

The value of a paint property as far as it tells whether something is drawn: a constant number, or a
table of stops. A table hides a layer only at a zoom that is one of its stops; between stops nothing is
interpolated and every other zoom counts as not zero.

Colours, expressions and tables with other than numbers do not read; the property then counts as absent.
-/
namespace StyledTiles

inductive Paint where
  | constant (value : Binary64)
  | stops (table : List (Nat × Binary64))
deriving DecidableEq, Repr

namespace Paint

/-- The highest zoom that a stop can have. -/
def maxZoom : Nat := 255

/-- Whether the value is not zero at a zoom. The first stop at the zoom counts. -/
def isNonzeroAt (z : Number) : Paint → Bool
  | .constant value => !value.isZero
  | .stops table =>
    match table.find? fun stop => (Number.int stop.1).same z with
    | some stop => !stop.2.isZero
    | none => true

/-- The zoom of a stop: the integer part of a number, if it lies within the zooms. -/
def stopZoom? (x : Binary64) : Option Nat :=
  match x.truncate? with
  | some n => if 0 ≤ n ∧ n ≤ maxZoom then some n.toNat else none
  | none => none

/-- The stops of a table. A stop of fewer than two items or outside the zooms is left out; one that is
not an array, or does not start with two finite numbers, spoils the table. -/
def stopsOf : List Json → Except OutOfRange (Option (List (Nat × Binary64)))
  | [] => .ok (some [])
  | .arr (zoom :: value :: _) :: rest => do
    match ← zoom.finite with
    | none => return none
    | some place =>
      match ← value.finite with
      | none => return none
      | some x =>
        let table ← stopsOf rest
        match stopZoom? place with
        | some z => return table.map fun later => (z, x) :: later
        | none => return table
  | .arr _ :: rest => stopsOf rest
  | _ => .ok none

/-- A table that has at least one stop left. -/
def ofStops (entries : List Json) : Except OutOfRange (Option Paint) := do
  match ← stopsOf entries with
  | some (stop :: rest) => return some (.stops (stop :: rest))
  | _ => return none

def ofJson : Json → Except OutOfRange (Option Paint)
  | .num n => do return (← n.toFinite).map .constant
  | .obj members =>
    match Json.member members "stops" with
    | .arr entries => ofStops entries
    | _ => .ok none
  | _ => .ok none

/-- The paint properties of a layer that read. -/
def ofMembers : Json.Members → Except OutOfRange (List (String × Paint))
  | [] => .ok []
  | (name, value) :: rest => do
    let paint ← ofJson value
    let paints ← ofMembers rest
    return match paint with
      | some paint => (name, paint) :: paints
      | none => paints

/-- The paint properties of a layer; anything but an object has none. -/
def properties : Json → Except OutOfRange (List (String × Paint))
  | .obj members => ofMembers members
  | _ => .ok []

end Paint

end StyledTiles
