import StyledTiles.Number.Basic

/-!
# Metrics clients

A run counts in metrics that a client library keeps in a registry. A metric is a counter or a histogram
under a name. One with labels has a child for each assignment of values to them, which comes into being
when it is first named; one without labels is counted in directly.

A client is whatever has these operations; nothing is said here of what they do. A call on a metric gives
the registry after it even where it fails, since the registry may have changed.
-/
namespace StyledTiles

/-- What is counted: a zero, a sum, and the numbers that are amounts. -/
class Amount (α : Type) where
  zero : α
  one : α
  add : α → α → α
  ofNumber : Number → Except OutOfRange α

instance : Amount Binary64 where
  zero := .zero false
  one := .nearest false 1 1
  add := Binary64.add
  ofNumber := Number.toBinary64

inductive MetricKind where
  | counter
  | histogram
deriving DecidableEq, Repr

def MetricKind.name : MetricKind → String
  | .counter => "counter"
  | .histogram => "histogram"

structure Metric where
  kind : MetricKind
  name : String
  labelNames : List String
deriving DecidableEq, Repr

/-- Labels with their values. -/
abbrev Labels := List (String × String)

/-- Whether two assignments of labels are the same, whatever their order. -/
def Labels.same (a b : Labels) : Bool := a.isPerm b

/-- The name of the metric itself among the labels of a call, which no label can be named by. -/
def ownerLabelName : String := "self"

structure Sample (α : Type) where
  name : String
  labels : Labels
  value : α
deriving Repr

/-- The operations of a client whose registries are of type `σ` and show samples of type `α`; a call may
fail with an error of type `ε`. -/
structure MetricsClient (σ α ε : Type) where
  empty : σ
  /-- Adds a metric, with a line of help. -/
  register : σ → Metric → String → Except ε σ
  /-- Names the child of a metric under labels. -/
  child : σ → Metric → Labels → σ × Except ε Unit
  /-- Increments a counter or observes in a histogram: the child under labels, or the metric itself if
  there are none. -/
  record : σ → Metric → Labels → Number → σ × Except ε Unit
  /-- The value of the sample with a name and labels, if there is one. -/
  sample? : σ → String → Labels → Option α
  samples : σ → List (Sample α)
  report : σ → String

/-- Records an amount under labels: their child is named first, if there are any. -/
def MetricsClient.recordUnder {σ α ε : Type} (client : MetricsClient σ α ε) (registry : σ)
    (metric : Metric) (labels : Labels) (amount : Number) : σ × Except ε Unit :=
  if labels.isEmpty then client.record registry metric [] amount
  else
    match client.child registry metric labels with
    | (registry, .error e) => (registry, .error e)
    | (registry, .ok ()) => client.record registry metric labels amount

end StyledTiles
