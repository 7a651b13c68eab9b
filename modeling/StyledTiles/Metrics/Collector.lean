import StyledTiles.Log.Event
import StyledTiles.Metrics.Client

/-!
# Metrics of a run

A collector holds a registry of its own and the metrics that a run counts in, under short names; in the
registry their names start with the collector's namespace. Counting under an unknown name is reported and
changes nothing, and a sample that is not there counts as zero.

What the registry does is left to a client.
-/
namespace StyledTiles

/-- What a name asks for that there is not. -/
inductive NotSupported where
  | kind (name : String)
  | format (name : String)
deriving DecidableEq, Repr

def NotSupported.message : NotSupported → String
  | .kind name => "Unsupported metric type: " ++ name
  | .format name => "Unsupported export format: " ++ name

/-- The kind with a name. -/
def MetricKind.ofName : String → Except NotSupported MetricKind
  | "counter" => .ok .counter
  | "histogram" => .ok .histogram
  | name => .error (.kind name)

inductive ReportFormat where
  | text
  | json
deriving DecidableEq, Repr

def lowerWord (s : String) : String := String.ofList (s.toList.map Char.toLower)

/-- The format with a name, in any case. -/
def ReportFormat.ofName (name : String) : Except NotSupported ReportFormat :=
  match lowerWord name with
  | "prometheus" => .ok .text
  | "json" => .ok .json
  | _ => .error (.format name)

/-- What a collector reports. -/
inductive MetricNotice where
  | unknown (kind : MetricKind) (name : String)
deriving DecidableEq, Repr

def MetricNotice.event : MetricNotice → LogEvent
  | .unknown kind name => ⟨.warning, "Unknown " ++ kind.name,
    [("collector_type", .str "MetricsCollector"), ("metric_name", .str name)]⟩

/-- Metrics in a format: the client's own report, or the samples as they are. -/
inductive MetricsReport (α : Type) where
  | text (report : String)
  | samples (samples : List (Sample α))
deriving Repr

/-- The metrics are held under their short names, the latest first. -/
structure Collector (σ : Type) where
  namespaceName : String
  registry : σ
  metrics : List (String × Metric) := []
deriving Repr

namespace Collector

/-- The metrics of a pruning run: kind, short name, help and labels. -/
def standardMetrics : List (MetricKind × String × String × List String) := [
  (.counter, "tiles_total", "Tiles processed by the pruning pass", ["status"]),
  (.counter, "layers_total", "Tile layers kept or dropped", ["result"]),
  (.counter, "features_total", "Tile features by pruning decision", ["result"]),
  (.counter, "unknown_features_total", "Features whose keep decision was unknown", []),
  (.counter, "unknown_occurrences_total", "Style layers whose filter was unknown for a feature", []),
  (.histogram, "duration_seconds", "Time spent pruning one tile", [])]

def defaultNamespace : String := "tile_prune"

variable {σ α ε : Type}

def fullName (c : Collector σ) (key : String) : String := c.namespaceName ++ "_" ++ key

/-- The metric of a kind under a short name. -/
def metric? (c : Collector σ) (kind : MetricKind) (key : String) : Option Metric :=
  (c.metrics.find? fun entry => entry.2.kind = kind && entry.1 = key).map Prod.snd

variable (client : MetricsClient σ α ε)

/-- Adds a metric under a short name. -/
def create (c : Collector σ) (kind : MetricKind) (key help : String) (labelNames : List String) :
    Except ε (Collector σ) :=
  let metric : Metric := ⟨kind, c.fullName key, labelNames⟩
  (client.register c.registry metric help).map fun registry =>
    { c with registry, metrics := (key, metric) :: c.metrics }

/-- A fresh collector. -/
def start (namespaceName : String) : Except ε (Collector σ) :=
  standardMetrics.foldlM (fun c (kind, key, help, labelNames) => c.create client kind key help labelNames)
    ⟨namespaceName, client.empty, []⟩

/-- Records an amount under a short name: the collector after it, and what there is to report. -/
def record (c : Collector σ) (kind : MetricKind) (key : String) (amount : Number) (labels : Labels) :
    Collector σ × Except ε (List MetricNotice) :=
  match c.metric? kind key with
  | none => (c, .ok [.unknown kind key])
  | some metric =>
    let (registry, result) := client.recordUnder c.registry metric labels amount
    ({ c with registry }, result.map fun _ => [])

def increment (c : Collector σ) (key : String) (amount : Number) (labels : Labels) :
    Collector σ × Except ε (List MetricNotice) := c.record client .counter key amount labels

def observe (c : Collector σ) (key : String) (amount : Number) (labels : Labels) :
    Collector σ × Except ε (List MetricNotice) := c.record client .histogram key amount labels

/-- The value of the sample with a short name and labels; zero if there is none. -/
def value [Amount α] (c : Collector σ) (key : String) (labels : Labels) : α :=
  (client.sample? c.registry (c.fullName key) labels).getD Amount.zero

/-- The metrics in the format with a name. -/
def reportAs (c : Collector σ) (format : String) : Except NotSupported (MetricsReport α) :=
  (ReportFormat.ofName format).map fun
    | .text => .text (client.report c.registry)
    | .json => .samples (client.samples c.registry)

end Collector

end StyledTiles
