import StyledTiles.Json.Basic

/-!
# Equal values

Two values are the same if they hold the same: numbers are compared by amount, and truths with them as
one and zero; arrays item by item; objects by the members under each key, in any order. NaN is not the
same as anything.
-/
namespace StyledTiles.Json

/-- The number that a value counts as. -/
def amount? : Json → Option Number
  | .bool b => some (.int (if b then 1 else 0))
  | .num n => some n
  | _ => none

mutual

def same : Json → Json → Bool
  | .null, .null => true
  | .str a, .str b => a == b
  | .arr as, .arr bs => sameItems as bs
  | .obj as, .obj bs => as.length == bs.length && sameMembers as bs
  | a, b =>
    match a.amount?, b.amount? with
    | some m, some n => m.same n
    | _, _ => false

def sameItems : List Json → List Json → Bool
  | [], [] => true
  | a :: as, b :: bs => same a b && sameItems as bs
  | _, _ => false

/-- Whether each member is the same as that under its key among others. -/
def sameMembers : List (String × Json) → List (String × Json) → Bool
  | [], _ => true
  | (key, a) :: rest, others =>
    (match others.lookup key with
      | some b => same a b
      | none => false) && sameMembers rest others

end

end StyledTiles.Json
