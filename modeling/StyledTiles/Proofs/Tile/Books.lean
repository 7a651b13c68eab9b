import Mathlib.Algebra.Ring.Nat
import StyledTiles.Tile.Batch

/-!
# The books of a batch

What pruning a tile at its own zoom gives depends on the pruner and the tile alone. The books of a list
of tiles are the sums over these outcomes, so they do not depend on the order of the tiles except for
the order of the errors. Collecting the outcome of a tile adds the tile to the books.

Nothing is said here about when outcomes are collected, nor about metrics.
-/
namespace StyledTiles

variable {Blob : Type}

namespace Pruner

variable (p : Pruner) (codec : Codec Blob)

/-- What pruning a tile at its own zoom gives. -/
def outcome (tile : TileCoord × Blob) : Except PruningError (Blob × PrunedTile) :=
  p.pruneBlob (.int tile.1.z) codec tile.2

/-- The blob to keep for a tile: the pruned one, or the tile's own where pruning fails. -/
def returned (tile : TileCoord × Blob) : Blob :=
  match p.outcome codec tile with
  | .ok (blob, _) => blob
  | .error _ => tile.2

def succeeds (tile : TileCoord × Blob) : Bool := (p.outcome codec tile).isOk

/-- What is said of a tile that fails. -/
def failure? (tile : TileCoord × Blob) : Option String :=
  match p.outcome codec tile with
  | .ok _ => none
  | .error e => some ("Tile " ++ tile.1.id ++ ": " ++ e.message)

/-- A count of a tile that succeeds, and nothing for one that fails. -/
def countOf (count : PrunedTile → Nat) (tile : TileCoord × Blob) : Nat :=
  match p.outcome codec tile with
  | .ok (_, t) => count t
  | .error _ => 0

/-- A count summed over the tiles that succeed. -/
def sumOf (count : PrunedTile → Nat) (tiles : List (TileCoord × Blob)) : Nat :=
  (tiles.map (p.countOf codec count)).sum

/-- Whether a tile is pruned to a size above a limit. -/
def isOversized (limit : Limit) (tile : TileCoord × Blob) : Bool :=
  p.succeeds codec tile && limit.amount.lt (.int (codec.size (p.returned codec tile)))

end Pruner

/-- Statistics that tiles have been added to, starting from those given. -/
structure Statistics.Books (p : Pruner) (codec : Codec Blob) (limit : Limit) (base : Statistics)
    (tiles : List (TileCoord × Blob)) (st : Statistics) : Prop where
  processed : st.tilesProcessed = base.tilesProcessed + tiles.countP (p.succeeds codec)
  failed : st.tilesFailed = base.tilesFailed + tiles.countP fun tile => !p.succeeds codec tile
  oversized : st.tilesOversized = base.tilesOversized + tiles.countP (p.isOversized codec limit)
  bytesIn : st.bytesIn = base.bytesIn + (tiles.map fun tile => codec.size tile.2).sum
  bytesOut : st.bytesOut = base.bytesOut + (tiles.map fun tile => codec.size (p.returned codec tile)).sum
  featuresKept : st.featuresKept = base.featuresKept + p.sumOf codec PrunedTile.featuresKept tiles
  featuresDropped :
    st.featuresDropped = base.featuresDropped + p.sumOf codec PrunedTile.featuresDropped tiles
  unknownFeatures :
    st.unknownFeatures = base.unknownFeatures + p.sumOf codec PrunedTile.unknownFeatures tiles
  unknownOccurrences :
    st.unknownOccurrences = base.unknownOccurrences + p.sumOf codec PrunedTile.unknownOccurrences tiles
  errors : st.errors.Perm (base.errors ++ tiles.filterMap (p.failure? codec))

/-- The same statistics, with the errors in any order. -/
def Statistics.Alike (st st' : Statistics) : Prop :=
  { st with errors := [] } = { st' with errors := [] } ∧ st.errors.Perm st'.errors

/-- What balances in the statistics of tiles: each tile is counted once, each failure has its error, and
the sums are over the tiles that succeed. -/
structure Statistics.Balances (p : Pruner) (codec : Codec Blob) (tiles : List (TileCoord × Blob))
    (st : Statistics) : Prop where
  submitted : st.tilesProcessed + st.tilesFailed = tiles.length
  errors : st.errors.length = st.tilesFailed
  oversized : st.tilesOversized ≤ st.tilesProcessed
  bytesIn : st.bytesIn = (tiles.map fun tile => codec.size tile.2).sum
  bytesOut : st.bytesOut = (tiles.map fun tile => codec.size (p.returned codec tile)).sum
  processed : st.tilesProcessed = tiles.countP (p.succeeds codec)
  featuresKept : st.featuresKept = p.sumOf codec PrunedTile.featuresKept tiles
  featuresDropped : st.featuresDropped = p.sumOf codec PrunedTile.featuresDropped tiles
  unknownFeatures : st.unknownFeatures = p.sumOf codec PrunedTile.unknownFeatures tiles
  unknownOccurrences : st.unknownOccurrences = p.sumOf codec PrunedTile.unknownOccurrences tiles

variable {p : Pruner} {codec : Codec Blob} {limit : Limit} {base st st' : Statistics}
  {tiles tiles' : List (TileCoord × Blob)}

namespace Pruner

theorem sumOf_append (count : PrunedTile → Nat) :
    p.sumOf codec count (tiles ++ tiles') =
      p.sumOf codec count tiles + p.sumOf codec count tiles' := by
  rw [sumOf, List.map_append, List.sum_append]
  rfl

theorem sumOf_singleton (count : PrunedTile → Nat) (tile : TileCoord × Blob) :
    p.sumOf codec count [tile] = p.countOf codec count tile := by
  simp [sumOf]

theorem sumOf_perm (count : PrunedTile → Nat) (h : tiles.Perm tiles') :
    p.sumOf codec count tiles = p.sumOf codec count tiles' := (h.map _).sum_nat

/-- As many errors as tiles that fail. -/
theorem length_failures (tiles : List (TileCoord × Blob)) :
    (tiles.filterMap (p.failure? codec)).length = tiles.countP fun tile => !p.succeeds codec tile := by
  induction tiles with
  | nil => rfl
  | cons tile tiles ih =>
    cases h : p.outcome codec tile with
    | ok r => simp [failure?, succeeds, h, Except.isOk, Except.toBool, ih]
    | error e => simp [failure?, succeeds, h, Except.isOk, Except.toBool, ih]

end Pruner

namespace Statistics.Books

theorem refl : Books p codec limit st [] st := by
  constructor <;> simp [Pruner.sumOf]

theorem trans (h : Books p codec limit base tiles st) (h' : Books p codec limit st tiles' st') :
    Books p codec limit base (tiles ++ tiles') st' where
  processed := by rw [h'.processed, h.processed, List.countP_append, Nat.add_assoc]
  failed := by rw [h'.failed, h.failed, List.countP_append, Nat.add_assoc]
  oversized := by rw [h'.oversized, h.oversized, List.countP_append, Nat.add_assoc]
  bytesIn := by rw [h'.bytesIn, h.bytesIn, List.map_append, List.sum_append, Nat.add_assoc]
  bytesOut := by rw [h'.bytesOut, h.bytesOut, List.map_append, List.sum_append, Nat.add_assoc]
  featuresKept := by rw [h'.featuresKept, h.featuresKept, Pruner.sumOf_append, Nat.add_assoc]
  featuresDropped := by
    rw [h'.featuresDropped, h.featuresDropped, Pruner.sumOf_append, Nat.add_assoc]
  unknownFeatures := by
    rw [h'.unknownFeatures, h.unknownFeatures, Pruner.sumOf_append, Nat.add_assoc]
  unknownOccurrences := by
    rw [h'.unknownOccurrences, h.unknownOccurrences, Pruner.sumOf_append, Nat.add_assoc]
  errors := by
    rw [List.filterMap_append, ← List.append_assoc]
    exact h'.errors.trans (h.errors.append_right _)

theorem perm (h : Books p codec limit base tiles st) (hperm : tiles.Perm tiles') :
    Books p codec limit base tiles' st where
  processed := by rw [h.processed, hperm.countP_eq]
  failed := by rw [h.failed, hperm.countP_eq]
  oversized := by rw [h.oversized, hperm.countP_eq]
  bytesIn := by rw [h.bytesIn, (hperm.map _).sum_nat]
  bytesOut := by rw [h.bytesOut, (hperm.map _).sum_nat]
  featuresKept := by rw [h.featuresKept, Pruner.sumOf_perm _ hperm]
  featuresDropped := by rw [h.featuresDropped, Pruner.sumOf_perm _ hperm]
  unknownFeatures := by rw [h.unknownFeatures, Pruner.sumOf_perm _ hperm]
  unknownOccurrences := by rw [h.unknownOccurrences, Pruner.sumOf_perm _ hperm]
  errors := h.errors.trans ((hperm.filterMap _).append_left _)

/-- The books of the same tiles are the same, up to the order of the errors. -/
theorem alike (h : Books p codec limit base tiles st) (h' : Books p codec limit base tiles st') :
    st.Alike st' := by
  refine ⟨?_, h.errors.trans h'.errors.symm⟩
  rw [Statistics.mk.injEq]
  exact ⟨h.processed.trans h'.processed.symm, h.failed.trans h'.failed.symm,
    h.oversized.trans h'.oversized.symm, h.bytesIn.trans h'.bytesIn.symm,
    h.bytesOut.trans h'.bytesOut.symm, h.featuresKept.trans h'.featuresKept.symm,
    h.featuresDropped.trans h'.featuresDropped.symm,
    h.unknownFeatures.trans h'.unknownFeatures.symm,
    h.unknownOccurrences.trans h'.unknownOccurrences.symm, rfl⟩

theorem balances (h : Books p codec limit {} tiles st) : st.Balances p codec tiles where
  submitted := by
    have hall := tiles.length_eq_countP_add_countP (p.succeeds codec)
    rw [h.processed, h.failed, hall]
    simp
  errors := by
    rw [h.errors.length_eq, h.failed, List.nil_append, Pruner.length_failures, Nat.zero_add]
  oversized := by
    rw [h.oversized, h.processed, Nat.zero_add, Nat.zero_add]
    refine List.countP_mono_left fun tile _ hover => ?_
    rw [Pruner.isOversized, Bool.and_eq_true] at hover
    exact hover.1
  bytesIn := by rw [h.bytesIn, Nat.zero_add]
  bytesOut := by rw [h.bytesOut, Nat.zero_add]
  processed := by rw [h.processed, Nat.zero_add]
  featuresKept := by rw [h.featuresKept, Nat.zero_add]
  featuresDropped := by rw [h.featuresDropped, Nat.zero_add]
  unknownFeatures := by rw [h.unknownFeatures, Nat.zero_add]
  unknownOccurrences := by rw [h.unknownOccurrences, Nat.zero_add]

end Statistics.Books

namespace Session

variable {σ ε : Type} (codec) (client : MetricsClient σ Binary64 ε) (s : Session σ) (elapsed : Number)
  (tile : TileCoord × Blob)

theorem pruneTile_snd : (s.pruneTile codec client elapsed (.int tile.1.z) tile.2).2 =
    s.pruner.outcome codec tile := by
  rw [pruneTile, Pruner.outcome]
  split <;> simp [*]

/-- Pruning a tile changes nothing of a session but its metrics. -/
theorem pruneTile_keeps (z : Zoom) (blob : Blob) : (s.pruneTile codec client elapsed z blob).1 =
    { s with metrics := (s.pruneTile codec client elapsed z blob).1.metrics } := by
  rw [pruneTile]
  split <;> rfl

/-- Collecting changes nothing of a session but its statistics and its metrics. -/
theorem collect_keeps (r : Except PruningError (Blob × PrunedTile)) :
    (s.collect codec client tile r).1 = { s with
      statistics := (s.collect codec client tile r).1.statistics
      metrics := (s.collect codec client tile r).1.metrics } := by
  cases r with
  | error e => rfl
  | ok r => rfl

theorem collect_returned :
    (s.collect codec client tile (s.pruner.outcome codec tile)).2.1 = s.pruner.returned codec tile := by
  rw [Pruner.returned]
  cases s.pruner.outcome codec tile with
  | error e => rfl
  | ok r => rfl

/-- Collecting what pruning a tile gave adds the tile to the books. -/
theorem collect_books : Statistics.Books s.pruner codec s.maxTileBytes s.statistics [tile]
    (s.collect codec client tile (s.pruner.outcome codec tile)).1.statistics := by
  cases h : s.pruner.outcome codec tile with
  | error e =>
    have hsucceeds : s.pruner.succeeds codec tile = false := by rw [Pruner.succeeds, h]; rfl
    have hreturned : s.pruner.returned codec tile = tile.2 := by rw [Pruner.returned, h]
    constructor <;> simp [collect, addFailure, Pruner.sumOf_singleton, Pruner.countOf, h, hsucceeds,
      hreturned, Pruner.isOversized, Pruner.failure?]
  | ok r =>
    obtain ⟨after, t⟩ := r
    have hsucceeds : s.pruner.succeeds codec tile = true := by rw [Pruner.succeeds, h]; rfl
    have hreturned : s.pruner.returned codec tile = after := by rw [Pruner.returned, h]
    cases hover : s.maxTileBytes.amount.lt (.int (codec.size after)) with
    | true =>
      constructor <;> simp [collect, addPruned, Pruner.sumOf_singleton, Pruner.countOf, h, hsucceeds,
        hreturned, Pruner.isOversized, Pruner.failure?, isOversized, hover]
    | false =>
      constructor <;> simp [collect, addPruned, Pruner.sumOf_singleton, Pruner.countOf, h, hsucceeds,
        hreturned, Pruner.isOversized, Pruner.failure?, isOversized, hover]

end Session

end StyledTiles
