import StyledTiles.Metrics.Family
import StyledTiles.Text.Quoted

/-!
# A registry of metrics

A registry that is held as data: the families in the order in which they were added. With its operations it
is a client. Naming the labels of a series brings the series into being, whether or not an amount can then
be recorded in it.
-/
namespace StyledTiles

/-- Why an operation on a registry fails. -/
inductive MetricError where
  | missingLabels (kind : MetricKind)
  | noLabels (kind : MetricKind) (family : String)
  | incorrectLabels
  | negativeAmount
  | outOfRange (e : OutOfRange)
  | reservedLabel (label : String)
  | bucketLabel
  | ownerLabel
  | emptyName
  | duplicated (names : List String)
  /-- The registry does not hold the metric that a call is on. -/
  | unregistered (name : String)
deriving DecidableEq, Repr

def MetricError.message : MetricError → String
  | .missingLabels kind => kind.name ++ " metric is missing label values"
  | .noLabels kind family =>
    "No label names were set when constructing " ++ kind.name ++ ":" ++ family
  | .incorrectLabels => "Incorrect label names"
  | .negativeAmount => "Counters can only be incremented by non-negative amounts."
  | .outOfRange e => e.message
  | .reservedLabel label => "Reserved label metric name: " ++ label
  | .bucketLabel => "Reserved label methe fric name: " ++ bucketLabelName
  | .ownerLabel =>
    "MetricWrapperBase.labels() got multiple values for argument " ++ Text.quote ownerLabelName
  | .emptyName => "metric name cannot be empty"
  | .duplicated names =>
    "Duplicated timeseries in CollectorRegistry: \x7b" ++ ", ".intercalate (names.map Text.quote)
      ++ "\x7d"
  | .unregistered name => "Metric is not registered: " ++ name

/-- The names under which samples of a metric may appear. -/
def Metric.sampleNames (m : Metric) : List String :=
  match m.kind with
  | .counter => ["", "_total", "_created"].map (m.stem ++ ·)
  | .histogram => ["", "_bucket", "_sum", "_count", "_created"].map (m.stem ++ ·)

structure Registry (α : Type) where
  families : List (Family α)
deriving Repr

variable {α : Type} [Amount α]

namespace Family

/-- The values of the labels in the order of the family's label names, if exactly these are named. -/
def valuesOf? (family : Family α) (labels : Labels) : Option (List String) :=
  if (labels.map Prod.fst).isPerm family.labelNames then
    some (family.labelNames.map fun name => (labels.lookup name).getD "")
  else none

/-- The series that labels name. No labels name the one series of a family without labels. -/
def select (family : Family α) (labels : Labels) : Except MetricError (List String) :=
  match labels, family.labelNames with
  | [], [] => .ok []
  | [], _ :: _ => .error (.missingLabels family.kind)
  | _ :: _, names =>
    if (labels.lookup ownerLabelName).isSome then .error .ownerLabel
    else if names.isEmpty then .error (.noLabels family.kind family.stem)
    else
      match family.valuesOf? labels with
      | some values => .ok values
      | none => .error .incorrectLabels

def hasSeries (family : Family α) (values : List String) : Bool :=
  family.series.any fun s => s.labelValues == values

/-- The family with a series of the given label values. -/
def touch (family : Family α) (values : List String) : Family α :=
  if family.hasSeries values then family
  else { family with series := family.series ++ [⟨values, .fresh family.kind⟩] }

/-- Changes the reading of one series. -/
def update (family : Family α) (values : List String) (change : Reading α → Reading α) : Family α :=
  { family with
    series := family.series.map fun s =>
      if s.labelValues = values then { s with reading := change s.reading } else s }

end Family

namespace Reading

/-- Adds one to the bucket of an observation, the first whose bound it does not exceed. -/
def place (amount : Number) : List Binary64 → List α → List α
  | bound :: bounds, count :: counts =>
    if amount.le (.real bound) then Amount.add count Amount.one :: counts
    else count :: place amount bounds counts
  | _, counts => counts

/-- Counts an amount whose converted value is given. -/
def record (amount : Number) (value : α) : Reading α → Reading α
  | .total sum => .total (Amount.add sum value)
  | .spread counts sum => .spread (place amount bucketBounds counts) (Amount.add sum value)

end Reading

namespace Family

/-- Whether an amount may be recorded: a counter takes no negative one. -/
def checkAmount (family : Family α) (amount : Number) : Except MetricError α :=
  if family.kind = .counter ∧ amount.lt (.int 0) then .error .negativeAmount
  else
    match Amount.ofNumber amount with
    | .ok value => .ok value
    | .error e => .error (.outOfRange e)

/-- Brings the series that labels name into being. -/
def child (family : Family α) (labels : Labels) : Family α × Except MetricError Unit :=
  match family.select labels with
  | .error e => (family, .error e)
  | .ok values => (family.touch values, .ok ())

/-- Records an amount in the series that labels name. -/
def record (family : Family α) (labels : Labels) (amount : Number) :
    Family α × Except MetricError Unit :=
  match family.select labels with
  | .error e => (family, .error e)
  | .ok values =>
    match family.checkAmount amount with
    | .error e => (family, .error e)
    | .ok value => ((family.touch values).update values (Reading.record amount value), .ok ())

end Family

namespace Registry

/-- Changes the family of a metric. -/
def change (m : Metric) (f : Family α → Family α × Except MetricError Unit) :
    List (Family α) → List (Family α) × Except MetricError Unit
  | [] => ([], .error (.unregistered m.name))
  | family :: rest =>
    if family.toMetric = m then
      let (family, result) := f family
      (family :: rest, result)
    else
      let (rest, result) := change m f rest
      (family :: rest, result)

/-- Labels with two underscores at the start are reserved, unless a line ends within them. -/
def isReserved (label : String) : Bool :=
  "__".toList.isPrefixOf label.toList && !(label.toList.dropLast.contains '\n')

/-- Checks the labels of a metric in their order: none is reserved, and none of a histogram is that of
the bucket bounds. -/
def checkLabels (kind : MetricKind) : List String → Except MetricError Unit
  | [] => .ok ()
  | label :: rest =>
    if isReserved label then .error (.reservedLabel label)
    else if kind = .histogram ∧ label = bucketLabelName then .error .bucketLabel
    else checkLabels kind rest

/-- Adds a family for a metric, whose samples may have no name that one of another family may have. -/
def register (r : Registry α) (m : Metric) (help : String) : Except MetricError (Registry α) := do
  checkLabels m.kind m.labelNames
  if m.stem = "" then .error .emptyName
  else
    let taken := r.families.flatMap fun family => family.sampleNames
    match m.sampleNames.filter (taken.contains ·) with
    | [] => .ok ⟨r.families ++ [.fresh m help]⟩
    | duplicates => .error (.duplicated duplicates)

def child (r : Registry α) (m : Metric) (labels : Labels) : Registry α × Except MetricError Unit :=
  let (families, result) := change m (·.child labels) r.families
  (⟨families⟩, result)

def record (r : Registry α) (m : Metric) (labels : Labels) (amount : Number) :
    Registry α × Except MetricError Unit :=
  let (families, result) := change m (·.record labels amount) r.families
  (⟨families⟩, result)

/-- All samples, families in the order in which they were added. -/
def samples (r : Registry α) : List (Sample α) := r.families.flatMap Family.samples

def sample? (r : Registry α) (name : String) (labels : Labels) : Option α :=
  (r.samples.find? fun s => s.name == name && s.labels.same labels).map Sample.value

/-- The client whose registries are these, with a text for reports. -/
def client (text : Registry α → String) : MetricsClient (Registry α) α MetricError where
  empty := ⟨[]⟩
  register := register
  child := child
  record := record
  sample? := sample?
  samples := samples
  report := text

end Registry

end StyledTiles
