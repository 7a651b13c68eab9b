import StyledTiles.Decision
import StyledTiles.Scalar

/-!
# Filters and expressions

The filter of a style layer as a tree. An expression yields a scalar of a feature or nothing; a filter
decides about a feature. The two kinds of tree contain each other, since an expression may choose
between outputs by filters.
-/
namespace StyledTiles

mutual

inductive Expression where
  /-- The property with a name. -/
  | get (name : String)
  | literal (value : Scalar)
  /-- The zoom at which the filter is evaluated. -/
  | zoom
  | geometryType
  | id
  /-- The output of the first case one of whose labels is close to the input. -/
  | switch (input : Expression) (cases : List (List Scalar × Expression)) (fallback : Expression)
  /-- The output of the first branch whose filter accepts. -/
  | choose (branches : List (Filter × Expression)) (fallback : Expression)
  /-- The first of several that yields something. -/
  | coalesce (candidates : List Expression)

inductive Filter where
  /-- Whether the key is close to a value, or that it is not. -/
  | compare (negated : Bool) (key : Expression) (value : Scalar)
  /-- Whether the key is close to one of several values, or that it is to none. -/
  | member (negated : Bool) (key : Expression) (values : List Scalar)
  /-- Whether a property is there, or that it is not. -/
  | present (negated : Bool) (key : String)
  | combine (how : Connective) (filters : List Filter)
  /-- A filter that was written in no form known here; it cannot tell. -/
  | unknown

end

deriving instance Repr for Expression, Filter

namespace Filter

/-- Accepts every feature. -/
def always : Filter := .combine .all []

/-- Rejects every feature. -/
def never : Filter := .combine .any []

end Filter

end StyledTiles
