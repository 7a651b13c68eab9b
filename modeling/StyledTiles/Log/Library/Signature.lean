import StyledTiles.Json.Equality
import StyledTiles.Text.Quoted

/-!
# Signatures

A signature says what a call takes: parameters that are required and ones that are optional, each of which
may be passed by position or by name, and whether more may be passed by position or by other names. The
owner of what is called is always its first parameter and always passed.

`Signature.pass?` sorts what is passed. Faults are looked for in a fixed order: names, first to last, then
whether too much is passed by position, and last what is required and not passed.
-/
namespace StyledTiles

/-- What is wrong with what is passed to a call. -/
inductive CallFault where
  | givenTwice (name : String)
  | unexpected (name : String)
  /-- So much is passed by position where at least and at most so much is taken. -/
  | tooMany (least most given : Nat)
  | missing (names : List String)
deriving DecidableEq, Repr

namespace CallFault

/-- Names in a row, with a word before the last one. -/
def listed : List String → String
  | [] => ""
  | [a] => Text.enclose a
  | [a, b] => Text.enclose a ++ " and " ++ Text.enclose b
  | names =>
    ", ".intercalate (names.dropLast.map Text.enclose) ++ ", and "
      ++ Text.enclose (names.getLastD "")

def plural (n : Nat) : String := if n = 1 then "" else "s"

def message (callee : String) : CallFault → String
  | .givenTwice name => callee ++ "() got multiple values for argument " ++ Text.enclose name
  | .unexpected name =>
    callee ++ "() got an unexpected keyword argument " ++ Text.enclose name
  | .tooMany least most given =>
    let (count, ending) :=
      if least = most then (toString most, plural most)
      else ("from " ++ toString least ++ " to " ++ toString most, "s")
    callee ++ "() takes " ++ count ++ " positional argument" ++ ending ++ " but "
      ++ toString given ++ (if given = 1 then " was given" else " were given")
  | .missing names =>
    callee ++ "() missing " ++ toString names.length ++ " required positional argument"
      ++ plural names.length ++ ": " ++ listed names

end CallFault

structure Signature where
  callee : String
  required : List String := []
  optional : List String := []
  /-- Whether more may be passed by position. -/
  takesMore : Bool := false
  /-- Whether other names may be passed. -/
  takesNames : Bool := false
deriving Repr

/-- What is passed to a call, sorted by its signature. -/
structure Passed where
  parameters : Json.Members
  more : List Json
  names : Json.Members
deriving Repr

namespace Passed

/-- What is passed for a parameter; null for an optional one that is not passed. -/
def value (p : Passed) (name : String) : Json := Json.member p.parameters name

end Passed

namespace Signature

/-- The name of the first parameter. -/
def ownerName : String := "self"

def parameters (s : Signature) : List String := s.required ++ s.optional

/-- The fault of a name that is passed, if names are passed by position already. -/
def faultOfName (s : Signature) (taken : List String) (name : String) : Option CallFault :=
  if taken.contains name then some (.givenTwice name)
  else if s.takesNames || s.parameters.contains name then none
  else some (.unexpected name)

/-- The fault in what is passed, if there is one. -/
def fault? (s : Signature) (positional : List Json) (named : Json.Members) : Option CallFault :=
  let taken := ownerName :: (s.parameters.take positional.length)
  match named.findSome? fun (name, _) => s.faultOfName taken name with
  | some fault => some fault
  | none =>
    if s.parameters.length < positional.length && !s.takesMore then
      some (.tooMany (1 + s.required.length) (1 + s.parameters.length) (1 + positional.length))
    else
      match s.required.filter fun name => !taken.contains name && !Json.hasMember named name with
      | [] => none
      | names => some (.missing names)

/-- Sorts what is passed, if nothing is wrong with it. -/
def pass? (s : Signature) (positional : List Json) (named : Json.Members) : Except CallFault Passed :=
  match s.fault? positional named with
  | some fault => .error fault
  | none =>
    .ok {
      parameters := s.parameters.zip positional ++
        named.filter fun (name, _) => s.parameters.contains name
      more := positional.drop s.parameters.length
      names := named.filter fun (name, _) => !s.parameters.contains name }

end Signature

end StyledTiles
