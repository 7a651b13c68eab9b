import StyledTiles.Json.Basic

/-!
# Scalars

The values that features carry and filters compare: texts, numbers and booleans. Scalars of different
kinds are never close, and two numbers are close when they differ by less than the distance from one
to the next number, which absorbs the noise of coding numbers in fewer bits. NaN is close to nothing.
-/
namespace StyledTiles

inductive Scalar where
  | string (s : String)
  | number (x : Binary64)
  | boolean (b : Bool)
deriving DecidableEq, Repr

namespace Scalar

/-- The comparison of filters. The difference is rounded before it is compared. -/
def close : Scalar → Scalar → Bool
  | .string s, .string t => s == t
  | .number x, .number y => (Number.real (x.sub y).abs).lt (.real Binary64.epsilon)
  | .boolean a, .boolean b => a == b
  | _, _ => false

def ofNumber (n : Number) : Except OutOfRange Scalar := n.toBinary64.map .number

/-- The scalar of a JSON value. Null, arrays and objects have none. -/
def ofJson : Json → Except OutOfRange (Option Scalar)
  | .bool b => .ok (some (.boolean b))
  | .num n => (ofNumber n).map some
  | .str s => .ok (some (.string s))
  | _ => .ok none

end Scalar

end StyledTiles
