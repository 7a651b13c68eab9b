import StyledTiles.Filter.Basic

/-!
# Reading filters

A filter is written as an array that starts with the name of an operator. What is written in no form
known here becomes `Filter.unknown`, and only the innermost filter around the fault does: a malformed
expression spoils the filter whose key it is, never the filters beside or around that one.

The one other way to fail is a number out of range, which fails the reading as a whole.
-/
namespace StyledTiles

/-- Why an expression cannot be read. -/
inductive ExpressionFault where
  | malformed
  | outOfRange (e : OutOfRange)
deriving DecidableEq, Repr

namespace ExpressionFault

/-- Readings that can only be out of range, among those of expressions. -/
def ofRange {α : Type} : Except OutOfRange α → Except ExpressionFault α
  | .ok a => .ok a
  | .error e => .error (.outOfRange e)

/-- A malformed part makes the filter around it unknown. -/
def confine : Except ExpressionFault Filter → Except OutOfRange Filter
  | .ok f => .ok f
  | .error .malformed => .ok .unknown
  | .error (.outOfRange e) => .error e

end ExpressionFault

/-- The operators of filters. -/
inductive FilterOperator where
  | compare (negated : Bool)
  | member (negated : Bool)
  | present (negated : Bool)
  | combine (how : Connective)
deriving DecidableEq, Repr

namespace FilterOperator

def name : FilterOperator → String
  | .compare false => "=="
  | .compare true => "!="
  | .member false => "in"
  | .member true => "!in"
  | .present false => "has"
  | .present true => "!has"
  | .combine how => how.name

def ofName? : String → Option FilterOperator
  | "==" => some (.compare false)
  | "!=" => some (.compare true)
  | "in" => some (.member false)
  | "!in" => some (.member true)
  | "has" => some (.present false)
  | "!has" => some (.present true)
  | name => (Connective.ofName? name).map .combine

end FilterOperator

/-- The operators of expressions. -/
inductive ExpressionOperator where
  | get
  | literal
  | zoom
  | geometryType
  | id
  | switch
  | choose
  | coalesce
deriving DecidableEq, Repr

namespace ExpressionOperator

def name : ExpressionOperator → String
  | .get => "get"
  | .literal => "literal"
  | .zoom => "zoom"
  | .geometryType => "geometry-type"
  | .id => "id"
  | .switch => "match"
  | .choose => "case"
  | .coalesce => "coalesce"

def ofName? : String → Option ExpressionOperator
  | "get" => some .get
  | "literal" => some .literal
  | "zoom" => some .zoom
  | "geometry-type" => some .geometryType
  | "id" => some .id
  | "match" => some .switch
  | "case" => some .choose
  | "coalesce" => some .coalesce
  | _ => none

end ExpressionOperator

namespace Filter.Reader

/-- A scalar that has to be one. -/
def scalarOf (j : Json) : Except ExpressionFault Scalar :=
  match Scalar.ofJson j with
  | .ok (some v) => .ok v
  | .ok none => .error .malformed
  | .error e => .error (.outOfRange e)

/-- What an array of two items headed by the word "literal" wraps. -/
def unwrap? : List Json → Option Json
  | [.str "literal", j] => some j
  | _ => none

/-- A constant operand: a scalar, which may be wrapped as a literal. -/
def operand : Json → Except ExpressionFault Scalar
  | .arr items =>
    match unwrap? items with
    | some j => scalarOf j
    | none => .error .malformed
  | j => scalarOf j

def operands : List Json → Except ExpressionFault (List Scalar)
  | [] => .ok []
  | j :: js => do
    let v ← operand j
    let vs ← operands js
    return v :: vs

/-- The listed values of a membership filter. A single array holds the list, itself or as a literal;
otherwise each operand is a value. -/
def listed : List Json → Except ExpressionFault (List Scalar)
  | [.arr items] =>
    match unwrap? items with
    | some (.arr wrapped) => operands wrapped
    | _ => operands items
  | js => operands js

/-- A label stands alone or is an array of alternatives, of which there is at least one. -/
def label : Json → Except ExpressionFault (List Scalar)
  | .arr [] => .error .malformed
  | .arr items => operands items
  | j => (scalarOf j).map fun v => [v]

/-- A key is a property's name or an expression written as an array. Given is what the value reads as
where it is an expression. -/
def key (j : Json) (read : Except ExpressionFault Expression) : Except ExpressionFault Expression :=
  match j with
  | .str name => .ok (.get name)
  | .arr _ => read
  | _ => .error .malformed

mutual

def expression : Json → Except ExpressionFault Expression
  | .arr (.str name :: args) =>
    match ExpressionOperator.ofName? name with
    | none => .error .malformed
    | some .get =>
      match args with
      | [.str property] => .ok (.get property)
      | _ => .error .malformed
    | some .literal =>
      match args with
      | [j] => (operand j).map .literal
      | _ => .error .malformed
    | some .zoom => .ok .zoom
    | some .geometryType => .ok .geometryType
    | some .id => .ok .id
    | some .switch =>
      match args with
      | input :: rest =>
        if rest.length % 2 = 1 then do
          let input ← expression input
          let (cases, fallback) ← switchCases rest
          return .switch input cases fallback
        else .error .malformed
      | [] => .error .malformed
    | some .choose =>
      if args.length % 2 = 1 then do
        let (branches, fallback) ← chooseBranches args
        return .choose branches fallback
      else .error .malformed
    | some .coalesce => do
      let candidates ← expressions args
      return .coalesce candidates
  | .arr _ => .error .malformed
  | j => (scalarOf j).map .literal

/-- Labels and outputs in turn, then the fallback. -/
def switchCases : List Json →
    Except ExpressionFault (List (List Scalar × Expression) × Expression)
  | [] => .error .malformed
  | [fallback] => do
    let fallback ← expression fallback
    return ([], fallback)
  | labels :: output :: rest => do
    let labels ← label labels
    let output ← expression output
    let (cases, fallback) ← switchCases rest
    return ((labels, output) :: cases, fallback)

/-- Filters and outputs in turn, then the fallback. -/
def chooseBranches : List Json → Except ExpressionFault (List (Filter × Expression) × Expression)
  | [] => .error .malformed
  | [fallback] => do
    let fallback ← expression fallback
    return ([], fallback)
  | condition :: output :: rest => do
    let condition ← ExpressionFault.ofRange (filter condition)
    let output ← expression output
    let (branches, fallback) ← chooseBranches rest
    return ((condition, output) :: branches, fallback)

def expressions : List Json → Except ExpressionFault (List Expression)
  | [] => .ok []
  | j :: js => do
    let e ← expression j
    let es ← expressions js
    return e :: es

def filter : Json → Except OutOfRange Filter
  | .bool b => .ok (if b then .always else .never)
  | .arr (.str name :: args) =>
    match FilterOperator.ofName? name with
    | none => .ok .unknown
    | some (.compare negated) =>
      match args with
      | [k, v] => ExpressionFault.confine do
        let k ← key k (expression k)
        let v ← operand v
        return .compare negated k v
      | _ => .ok .unknown
    | some (.member negated) =>
      match args with
      | k :: v :: vs => ExpressionFault.confine do
        let k ← key k (expression k)
        let values ← listed (v :: vs)
        return .member negated k values
      | _ => .ok .unknown
    | some (.present negated) =>
      match args with
      | [.str property] => .ok (.present negated property)
      | _ => .ok .unknown
    | some (.combine how) => do
      let fs ← filters args
      return .combine how fs
  | _ => .ok .unknown

def filters : List Json → Except OutOfRange (List Filter)
  | [] => .ok []
  | j :: js => do
    let f ← filter j
    let fs ← filters js
    return f :: fs

end

end Filter.Reader

/-- Reads an expression; nothing if it is malformed. -/
def Expression.ofJson (j : Json) : Except OutOfRange (Option Expression) :=
  match Filter.Reader.expression j with
  | .ok e => .ok (some e)
  | .error .malformed => .ok none
  | .error (.outOfRange e) => .error e

/-- Reads the filter of a layer. An empty array stands for no filter. -/
def Filter.ofJson : Json → Except OutOfRange (Option Filter)
  | .arr [] => .ok none
  | j => (Filter.Reader.filter j).map some

end StyledTiles
