import StyledTiles.Metrics.Collector
import StyledTiles.Settings.Stated
import StyledTiles.Style.File
import StyledTiles.Tile.Pruning

/-!
# Pruning many tiles

A session prunes tiles, keeps statistics over the batches and counts in its metrics. The tiles of a batch
complete in some order, which is the order of the list that `Session.pruneTiles` is given; each tile is
pruned on its own, and what was decided is added up tile by tile. A tile that cannot be pruned is passed
through as it is.

The time that pruning a tile takes comes from outside, since only a clock knows it. So does the client that
keeps the metrics. A session counts natural numbers, under names and labels that its metrics have; what a
session would do if such a call failed is left out.
-/
namespace StyledTiles

structure Statistics where
  tilesProcessed : Nat := 0
  tilesFailed : Nat := 0
  tilesOversized : Nat := 0
  bytesIn : Nat := 0
  bytesOut : Nat := 0
  featuresKept : Nat := 0
  featuresDropped : Nat := 0
  unknownFeatures : Nat := 0
  unknownOccurrences : Nat := 0
  errors : List String := []
deriving DecidableEq, Repr

/-- What a session reports. -/
inductive PruningNotice where
  | initialized (sourceLayers : Option (List String)) (keepUnknown : Json) (maxWorkers : Limit)
  | starting (tiles : Nat) (workers : Limit)
  | failed (tile error : String)
  | oversized (tile : String) (size : Nat) (limit : Limit)
  | pruned (tile : String) (layersKept layersDropped : List String) (featuresDropped : Nat)
  | completed (processed failed bytesIn bytesOut : Nat)
deriving Repr

namespace PruningNotice

def level : PruningNotice → LogLevel
  | .failed .. => .error
  | .oversized .. => .warning
  | .pruned .. => .debug
  | _ => .info

def message : PruningNotice → String
  | .initialized .. => "Tile pruner initialized"
  | .starting .. => "Starting tile pruning"
  | .failed .. => "Error pruning tile"
  | .oversized .. => "Tile exceeds size limit after pruning"
  | .pruned .. => "Pruned tile"
  | .completed .. => "Tile pruning completed"

def texts (names : List String) : Json := .arr (names.map .str)

def fields : PruningNotice → Json.Members
  | .initialized sourceLayers keepUnknown maxWorkers => [
    ("source_layers", match sourceLayers with | some names => texts names | none => .null),
    ("keep_unknown", keepUnknown), ("max_workers", maxWorkers.toJson)]
  | .starting tiles workers => [("tiles", .int tiles), ("max_workers", workers.toJson)]
  | .failed tile error => [("tile_id", .str tile), ("error", .str error)]
  | .oversized tile size limit => [
    ("tile_id", .str tile), ("size", .int size), ("max_tile_bytes", limit.toJson)]
  | .pruned tile layersKept layersDropped featuresDropped => [
    ("tile_id", .str tile), ("layers_kept", texts layersKept),
    ("layers_dropped", texts layersDropped), ("features_dropped", .int featuresDropped)]
  | .completed done lost bytesIn bytesOut => [
    ("tiles_processed", .int done), ("tiles_failed", .int lost),
    ("bytes_in", .int bytesIn), ("bytes_out", .int bytesOut)]

/-- The event of a notice in a session of the given mode. -/
def event (mode : PruningMode) (n : PruningNotice) : LogEvent :=
  ⟨n.level, n.message,
    [("pruner_type", .str "TilePruner"), ("style_mode", .str mode.name)] ++ n.fields⟩

/-- Whether the notice is about one tile of a batch. -/
def isOfTile : PruningNotice → Bool
  | .failed .. | .oversized .. | .pruned .. => true
  | _ => false

end PruningNotice

/-- A number of workers has to be positive. -/
structure NoWorkers where
deriving DecidableEq, Repr

def NoWorkers.message (_ : NoWorkers) : String := "max_workers must be greater than 0"

structure Session (σ : Type) where
  pruner : Pruner
  maxWorkers : Limit
  maxTileBytes : Limit
  metrics : Collector σ
  statistics : Statistics := {}

namespace Session

/-- A fresh session that counts in the given metrics. -/
def start {σ : Type} (metrics : Collector σ) (style : Option Style) (settings : StatedSettings) :
    Session σ where
  pruner := ⟨style, settings.mode, settings.keepsUnknown⟩
  maxWorkers := settings.maxWorkers
  maxTileBytes := settings.maxTileBytes
  metrics := metrics

/-- The notice of a fresh session, with the source-layers of its style in order. -/
def startNotice (style : Option Style) (settings : StatedSettings) : PruningNotice :=
  .initialized (style.map fun style => style.sourceLayers.mergeSort fun a b => decide (a ≤ b))
    settings.keepUnknown settings.maxWorkers

/-- The style that settings name, read from its path; no style if there is no path. -/
def styleOf (settings : Settings) (contents : String → FileContents) :
    List StyleNotice × Except StyleError (Option Style) :=
  match settings.stylePath with
  | none => ([], .ok none)
  | some path =>
    let loading := Style.ofFile path (contents path)
    (loading.notices, loading.result.map some)

variable {Blob σ ε : Type} (codec : Codec Blob) (client : MetricsClient σ Binary64 ε)
  (elapsed : Number)

/-- Counts an increment. -/
def count (c : Collector σ) (name : String) (n : Nat) (labels : Labels) : Collector σ :=
  (c.increment client name (.int n) labels).1

/-- Counts a tile that was pruned. -/
def countTile (c : Collector σ) (t : PrunedTile) : Collector σ :=
  let c := (c.observe client "duration_seconds" elapsed []).1
  let c := count client c "layers_total" t.layersKept.length [("result", "kept")]
  let c := count client c "layers_total" t.layersDropped.length [("result", "dropped")]
  let c := count client c "features_total" t.featuresKept [("result", "kept")]
  let c := count client c "features_total" t.featuresDropped [("result", "dropped")]
  let c := count client c "unknown_features_total" t.unknownFeatures []
  count client c "unknown_occurrences_total" t.unknownOccurrences []

/-- Prunes one tile. The statistics stay as they are; a tile that was pruned is counted. -/
def pruneTile (s : Session σ) (z : Zoom) (blob : Blob) :
    Session σ × Except PruningError (Blob × PrunedTile) :=
  match s.pruner.pruneBlob z codec blob with
  | .ok (blob, t) => ({ s with metrics := countTile client elapsed s.metrics t }, .ok (blob, t))
  | .error e => (s, .error e)

/-- The statistics after a tile that failed. -/
def addFailure (st : Statistics) (tile : String) (size : Nat) (e : PruningError) : Statistics :=
  { st with
    tilesFailed := st.tilesFailed + 1
    bytesIn := st.bytesIn + size
    bytesOut := st.bytesOut + size
    errors := st.errors ++ ["Tile " ++ tile ++ ": " ++ e.message] }

/-- The statistics after a tile that was pruned from one size to another. -/
def addPruned (st : Statistics) (before after : Nat) (isOversized : Bool) (t : PrunedTile) :
    Statistics :=
  { st with
    tilesProcessed := st.tilesProcessed + 1
    tilesOversized := st.tilesOversized + (if isOversized then 1 else 0)
    bytesIn := st.bytesIn + before
    bytesOut := st.bytesOut + after
    featuresKept := st.featuresKept + t.featuresKept
    featuresDropped := st.featuresDropped + t.featuresDropped
    unknownFeatures := st.unknownFeatures + t.unknownFeatures
    unknownOccurrences := st.unknownOccurrences + t.unknownOccurrences }

/-- Whether a size is above the limit of the session. -/
def isOversized (s : Session σ) (size : Nat) : Bool := s.maxTileBytes.amount.lt (.int size)

/-- Takes in what pruning a tile gave: the session after it, the blob to keep, and what there is to say. -/
def collect (s : Session σ) (tile : TileCoord × Blob)
    (r : Except PruningError (Blob × PrunedTile)) : Session σ × Blob × List PruningNotice :=
  match r with
  | .error e =>
    ({ s with
        statistics := addFailure s.statistics tile.1.id (codec.size tile.2) e
        metrics := count client s.metrics "tiles_total" 1 [("status", "failed")] },
      tile.2, [.failed tile.1.id e.message])
  | .ok (after, t) =>
    let size := codec.size after
    let pruned : PruningNotice := .pruned tile.1.id t.layersKept t.layersDropped t.featuresDropped
    ({ s with
        statistics := addPruned s.statistics (codec.size tile.2) size (s.isOversized size) t
        metrics := count client s.metrics "tiles_total" 1 [("status", "pruned")] },
      after,
      if s.isOversized size then [.oversized tile.1.id size s.maxTileBytes, pruned] else [pruned])

/-- Takes in one tile of a batch, which is pruned first. -/
def takeTile (s : Session σ) (tile : TileCoord × Blob) : Session σ × Blob × List PruningNotice :=
  let (s, r) := s.pruneTile codec client elapsed (.int tile.1.z) tile.2
  s.collect codec client tile r

/-- Takes in the tiles of a batch in the order in which they complete. -/
def takeTiles (s : Session σ) :
    List (TileCoord × Blob) → Session σ × List (TileCoord × Blob) × List PruningNotice
  | [] => (s, [], [])
  | tile :: rest =>
    let (s, after, notices) := s.takeTile codec client elapsed tile
    let (s, output, later) := s.takeTiles rest
    (s, (tile.1, after) :: output, notices ++ later)

/-- How many workers prune a batch: those asked for, or those of the session if none or zero are. -/
def workersFor (s : Session σ) : Option Limit → Limit
  | none => s.maxWorkers
  | some asked => if asked.amount.same (.int 0) then s.maxWorkers else asked

/-- Prunes a batch: the session after it, the notices, and the tiles unless there are no workers. -/
def pruneTiles (s : Session σ) (asked : Option Limit) (tiles : List (TileCoord × Blob)) :
    Session σ × List PruningNotice × Except NoWorkers (List (TileCoord × Blob)) :=
  let workers := s.workersFor asked
  let starting : PruningNotice := .starting tiles.length workers
  if workers.amount.le (.int 0) then (s, [starting], .error ⟨⟩)
  else
    let (s, output, notices) := s.takeTiles codec client elapsed tiles
    let st := s.statistics
    (s, starting :: notices ++
        [.completed st.tilesProcessed st.tilesFailed st.bytesIn st.bytesOut],
      .ok output)

/-- Forgets the statistics; the metrics go on. -/
def reset (s : Session σ) : Session σ := { s with statistics := {} }

end Session

end StyledTiles
