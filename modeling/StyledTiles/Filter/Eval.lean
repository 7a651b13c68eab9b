import StyledTiles.Feature
import StyledTiles.Filter.Basic

/-!
# Evaluating filters

A filter decides about a feature at a zoom. It cannot tell exactly where a comparison needs a scalar
that the feature does not carry, or where it was not understood. Evaluation is lazy: filters after the
one that settles a combination, outputs that are not chosen and later candidates are not looked at,
so a number out of range among them does no harm.
-/
namespace StyledTiles

/-- The zoom of a map, an integer or between two of them. -/
abbrev Zoom := Number

/-- The name under which a filter may ask for the zoom where the feature has no such property. -/
def zoomKey : String := "zoom"

namespace Scalar

/-- Whether a scalar is close to one of several. -/
def closeToAny (v : Scalar) (candidates : List Scalar) : Bool := candidates.any fun c => v.close c

end Scalar

namespace Filter

/-- The decision on a truth that may be negated. -/
def verdict (negated truth : Bool) : Decision := .ofBool (negated != truth)

end Filter

variable (f : Feature) (z : Zoom)

mutual

def Expression.eval : Expression → Except OutOfRange (Option Scalar)
  | .get name => do
    match ← f.get name with
    | some v => return some v
    | none => if name = zoomKey then (Scalar.ofNumber z).map some else return none
  | .literal v => .ok (some v)
  | .zoom => (Scalar.ofNumber z).map some
  | .geometryType => .ok (some (.string f.geometry.name))
  | .id => f.idScalar
  | .switch input cases fallback => do
    match ← input.eval with
    | none => return none
    | some v =>
      match ← Expression.evalCases v cases with
      | some result => return result
      | none => fallback.eval
  | .choose branches fallback => do
    match ← Expression.evalBranches branches with
    | some result => return result
    | none => fallback.eval
  | .coalesce candidates => Expression.evalFirst candidates

/-- The output of the first case that matches, nothing if none does. -/
def Expression.evalCases (v : Scalar) :
    List (List Scalar × Expression) → Except OutOfRange (Option (Option Scalar))
  | [] => .ok none
  | (labels, output) :: rest =>
    if v.closeToAny labels then output.eval.map some else Expression.evalCases v rest

/-- The output of the first branch whose filter accepts, nothing if none does. -/
def Expression.evalBranches :
    List (Filter × Expression) → Except OutOfRange (Option (Option Scalar))
  | [] => .ok none
  | (condition, output) :: rest => do
    match ← condition.eval with
    | .yes => output.eval.map some
    | _ => Expression.evalBranches rest

def Expression.evalFirst : List Expression → Except OutOfRange (Option Scalar)
  | [] => .ok none
  | e :: rest => do
    match ← e.eval with
    | some v => return some v
    | none => Expression.evalFirst rest

def Filter.eval : Filter → Except OutOfRange Decision
  | .compare negated key value => do
    match ← key.eval with
    | none => return .unknown
    | some v => return Filter.verdict negated (v.close value)
  | .member negated key values => do
    match ← key.eval with
    | none => return .unknown
    | some v => return Filter.verdict negated (v.closeToAny values)
  | .present negated key => .ok (Filter.verdict negated (f.has key))
  | .combine how filters => Filter.evalAll how false filters
  | .unknown => .ok .unknown

/-- Evaluates filters until one settles their combination. -/
def Filter.evalAll (how : Connective) (sawUnknown : Bool) :
    List Filter → Except OutOfRange Decision
  | [] => .ok (how.finish sawUnknown)
  | filter :: rest => do
    let d ← filter.eval
    if d = how.stop then return how.settled
    else Filter.evalAll how (sawUnknown || d = .unknown) rest

end

end StyledTiles
