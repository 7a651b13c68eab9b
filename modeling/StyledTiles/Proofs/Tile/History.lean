import StyledTiles.Metrics.Exposition
import StyledTiles.Proofs.Metrics.Registry
import StyledTiles.Proofs.Tile.Contents
import StyledTiles.Proofs.Tile.Pool

/-!
# The life of a session

A session is called to prune batches and single tiles and to forget its statistics. A batch that is
accepted ends in any way in which its pool can be drained; one without workers changes nothing. The
statistics are always those of the tiles submitted since they were last forgotten, and as long as only
batches are asked for, the samples of the metrics mirror them.

Calls follow one another: what two batches of one session do to each other is not said.
-/
namespace StyledTiles

variable {Blob σ ε : Type}

/-- What a session can be called for. -/
inductive Call (Blob : Type) where
  | batch (asked : Option Limit) (tiles : List (TileCoord × Blob))
  | tile (z : Zoom) (blob : Blob)
  | reset

def Call.isBatch : Call Blob → Bool
  | .batch .. => true
  | _ => false

namespace Session

/-- A batch is accepted if there are workers for it. -/
def accepts (s : Session σ) (asked : Option Limit) : Bool := !(s.workersFor asked).amount.le (.int 0)

/-- What a call can do to a session. -/
inductive Does (codec : Codec Blob) (client : MetricsClient σ Binary64 ε) :
    Session σ → Call Blob → Session σ → Prop
  | batch {s : Session σ} {asked : Option Limit} {tiles : List (TileCoord × Blob)} {pool : Pool Blob σ}
      (accepted : s.accepts asked = true) (run : Pool.Run codec client (Pool.start s tiles) pool)
      (drained : pool.Drained) : Does codec client s (.batch asked tiles) pool.session
  | refused {s : Session σ} {asked : Option Limit} (tiles : List (TileCoord × Blob))
      (refused : s.accepts asked = false) : Does codec client s (.batch asked tiles) s
  | tile (s : Session σ) (elapsed : Number) (z : Zoom) (blob : Blob) :
      Does codec client s (.tile z blob) (s.pruneTile codec client elapsed z blob).1
  | reset (s : Session σ) : Does codec client s .reset s.reset

inductive Runs (codec : Codec Blob) (client : MetricsClient σ Binary64 ε) (s : Session σ) :
    List (Call Blob) → Session σ → Prop
  | start : Runs codec client s [] s
  | snoc {calls : List (Call Blob)} {call : Call Blob} {s' s'' : Session σ}
      (before : Runs codec client s calls s') (last : Does codec client s' call s'') :
      Runs codec client s (calls ++ [call]) s''

/-- The tiles submitted since the last reset, after one call more. -/
def submit (s : Session σ) (sofar : List (TileCoord × Blob)) : Call Blob → List (TileCoord × Blob)
  | .batch asked tiles => if s.accepts asked then sofar ++ tiles else sofar
  | .tile .. => sofar
  | .reset => []

def submitted (s : Session σ) (calls : List (Call Blob)) : List (TileCoord × Blob) :=
  calls.foldl s.submit []

/-- What a call never changes. -/
structure SameSettings (s s' : Session σ) : Prop where
  pruner : s'.pruner = s.pruner
  maxWorkers : s'.maxWorkers = s.maxWorkers
  maxTileBytes : s'.maxTileBytes = s.maxTileBytes

variable {codec : Codec Blob} {client : MetricsClient σ Binary64 ε} {Holds : σ → List Metric → Prop}
  {s s' s'' : Session σ} {asked : Option Limit} {call : Call Blob} {calls : List (Call Blob)}
  {tiles : List (TileCoord × Blob)}

theorem SameSettings.accepts (h : s.SameSettings s') (asked : Option Limit) :
    s'.accepts asked = s.accepts asked := by
  cases asked with
  | none => simp only [Session.accepts, workersFor, h.maxWorkers]
  | some asked => simp only [Session.accepts, workersFor, h.maxWorkers]

theorem pruneTiles_of_accepts (codec : Codec Blob) (client : MetricsClient σ Binary64 ε)
    (h : s.accepts asked = true) (elapsed : Number) (tiles : List (TileCoord × Blob)) : ∃ notices,
    s.pruneTiles codec client elapsed asked tiles = ((s.takeTiles codec client elapsed tiles).1, notices,
      .ok (s.takeTiles codec client elapsed tiles).2.1) := by
  have hworkers : (s.workersFor asked).amount.le (.int 0) = false := by simpa [accepts] using h
  simp only [pruneTiles, hworkers, Bool.false_eq_true, if_false]
  exact ⟨_, rfl⟩

/-- One call keeps the settings, and keeps the books of what has been submitted. -/
theorem Does.books {sofar : List (TileCoord × Blob)} (h : Does codec client s' call s'')
    (hsame : s.SameSettings s')
    (hbooks : Statistics.Books s.pruner codec s.maxTileBytes {} sofar s'.statistics) :
    s.SameSettings s'' ∧
      Statistics.Books s.pruner codec s.maxTileBytes {} (s.submit sofar call) s''.statistics := by
  cases h with
  | @batch _ tiles pool accepted run drained =>
    obtain ⟨order, hperm, hfollows⟩ := run.done drained
    have hadded := hfollows.books.perm hperm
    rw [hsame.pruner, hsame.maxTileBytes] at hadded
    rw [hsame.accepts] at accepted
    refine ⟨⟨hfollows.pruner.trans hsame.pruner, hfollows.maxWorkers.trans hsame.maxWorkers,
      hfollows.maxTileBytes.trans hsame.maxTileBytes⟩, ?_⟩
    rw [submit, if_pos accepted]
    exact hbooks.trans hadded
  | refused tiles refused =>
    rw [hsame.accepts] at refused
    rw [submit, refused]
    exact ⟨hsame, hbooks⟩
  | tile elapsed z blob =>
    rw [s'.pruneTile_keeps codec client]
    exact ⟨⟨hsame.pruner, hsame.maxWorkers, hsame.maxTileBytes⟩, hbooks⟩
  | reset => exact ⟨⟨hsame.pruner, hsame.maxWorkers, hsame.maxTileBytes⟩, .refl⟩

theorem Runs.books (h : Runs codec client s calls s') (hfresh : s.statistics = {}) :
    s.SameSettings s' ∧
      Statistics.Books s.pruner codec s.maxTileBytes {} (s.submitted calls) s'.statistics := by
  induction h with
  | start =>
    rw [hfresh]
    exact ⟨⟨rfl, rfl, rfl⟩, .refl⟩
  | snoc before last ih =>
    rw [submitted, List.foldl_append]
    exact last.books ih.1 ih.2

/-- A batch keeps the metrics in agreement with the statistics. -/
theorem Does.agrees (hclient : client.Documented Holds) (h : Does codec client s call s')
    (hbatch : call.isBatch = true)
    (hagrees : s.metrics.Agrees client Holds s.pruner codec s.statistics []) :
    s'.metrics.Agrees client Holds s'.pruner codec s'.statistics [] := by
  cases h with
  | batch accepted run drained =>
    obtain ⟨order, _, hfollows⟩ := run.done drained
    have hafter := hfollows.agrees Holds hclient hagrees
    rw [drained.2] at hafter
    rw [hfollows.pruner]
    exact hafter
  | refused tiles refused => exact hagrees
  | tile => cases hbatch
  | reset => cases hbatch

theorem Runs.agrees (hclient : client.Documented Holds) (h : Runs codec client s calls s')
    (hbatches : ∀ call ∈ calls, call.isBatch = true)
    (hagrees : s.metrics.Agrees client Holds s.pruner codec s.statistics []) :
    s'.metrics.Agrees client Holds s'.pruner codec s'.statistics [] := by
  induction h with
  | start => exact hagrees
  | snoc before last ih =>
    rw [List.forall_mem_append] at hbatches
    exact last.agrees hclient (hbatches.2 _ (by simp)) (ih hbatches.1)

end Session

/-! ## Tiles as a mapping -/

/-- Where each key has one value, that value is found. -/
theorem lookup_eq_some_iff {β : Type} {pairs : List (TileCoord × β)}
    (h : (pairs.map Prod.fst).Nodup) {c : TileCoord} {b : β} :
    pairs.lookup c = some b ↔ (c, b) ∈ pairs := by
  induction pairs with
  | nil => simp
  | cons pair rest ih =>
    obtain ⟨c', b'⟩ := pair
    rw [List.map_cons, List.nodup_cons] at h
    rw [List.lookup_cons, List.mem_cons, Prod.mk.injEq]
    by_cases hc : c = c'
    · subst hc
      have hnot : (c, b) ∉ rest := fun hmem =>
        h.1 (List.mem_map.mpr ⟨(c, b), hmem, rfl⟩)
      simp [hnot, eq_comm]
    · have hb : (c == c') = false := by simpa using hc
      simp [hb, hc, ih h.2]

/-- A mapping whose values have been replaced, listed in any order. -/
theorem lookup_of_perm {β γ : Type} {pairs : List (TileCoord × β)} {output : List (TileCoord × γ)}
    {value : TileCoord × β → γ} (hnodup : (pairs.map Prod.fst).Nodup)
    (h : output.Perm (pairs.map fun pair => (pair.1, value pair))) (c : TileCoord) :
    output.lookup c = (pairs.lookup c).map fun b => value (c, b) := by
  have hkeys : (output.map Prod.fst).Perm (pairs.map Prod.fst) := by
    simpa [Function.comp_def] using h.map Prod.fst
  have houtput : (output.map Prod.fst).Nodup := hkeys.nodup_iff.mpr hnodup
  ext v
  rw [lookup_eq_some_iff houtput, h.mem_iff, List.mem_map, Option.map_eq_some_iff]
  constructor
  · rintro ⟨⟨c', b⟩, hmem, heq⟩
    cases heq
    exact ⟨b, (lookup_eq_some_iff hnodup).mpr hmem, rfl⟩
  · rintro ⟨b, hb, rfl⟩
    exact ⟨(c, b), (lookup_eq_some_iff hnodup).mp hb, rfl⟩

/-! ## All orders -/

/-- A batch under way can always be finished. In whatever order its tiles are pruned and collected: the
output maps each coordinate to what pruning its tile gave, and the statistics are those of the batch
taken one by one in any order. In whatever order a session is called, the statistics balance; and while
only batches are asked for, the samples of a fresh collector mirror them, whatever client keeps these as
it is documented to. -/
theorem batches_balance_in_every_order (codec : Codec Blob) (client : MetricsClient σ Binary64 ε) :
    (∀ pool : Pool Blob σ, ∃ last, Pool.Run codec client pool last ∧ last.Drained) ∧
    (∀ (s : Session σ) (asked : Option Limit) (tiles : List (TileCoord × Blob)) (pool : Pool Blob σ),
      s.accepts asked = true → Pool.Run codec client (Pool.start s tiles) pool → pool.Drained →
      pool.output.Perm (tiles.map fun tile => (tile.1, s.pruner.returned codec tile)) ∧
      ((tiles.map Prod.fst).Nodup → ∀ c, pool.output.lookup c =
        (tiles.lookup c).map fun blob => s.pruner.returned codec (c, blob)) ∧
      ∀ elapsed order, order.Perm tiles → ∃ s' notices output,
        s.pruneTiles codec client elapsed asked order = (s', notices, .ok output) ∧
          output.Perm pool.output ∧ s'.statistics.Alike pool.session.statistics) ∧
    (∀ (s : Session σ) (calls : List (Call Blob)) (s' : Session σ), s.statistics = {} →
      s.Runs codec client calls s' → s'.statistics.Balances s.pruner codec (s.submitted calls)) ∧
    ∀ Holds, client.Documented Holds → ∀ (namespaceName : String) (metrics : Collector σ),
      Collector.start client namespaceName = .ok metrics →
      ∀ (style : Option Style) (settings : StatedSettings) (calls : List (Call Blob)) (s' : Session σ),
      (∀ call ∈ calls, call.isBatch = true) →
      (Session.start metrics style settings).Runs codec client calls s' →
      s'.metrics.Mirrors client s'.statistics := by
  refine ⟨Pool.exists_run_drained codec client, ?_, ?_, ?_⟩
  · intro s asked tiles pool accepted run drained
    obtain ⟨collected, hperm, hfollows⟩ := run.done drained
    have houtput : pool.output.Perm
        (tiles.map fun tile => (tile.1, s.pruner.returned codec tile)) := by
      rw [hfollows.output]
      exact hperm.map _
    refine ⟨houtput, fun hnodup c => lookup_of_perm hnodup houtput c, ?_⟩
    intro elapsed order horder
    obtain ⟨notices, hprune⟩ := Session.pruneTiles_of_accepts codec client accepted elapsed order
    have hsequential := Pool.run_takeTiles codec client s elapsed horder []
    obtain ⟨collected', hperm', hfollows'⟩ := hsequential.done ⟨rfl, rfl⟩
    refine ⟨_, notices, _, hprune, ?_, (hfollows'.books.perm hperm').alike (hfollows.books.perm hperm)⟩
    have houtput' := hfollows'.output
    simp only [List.nil_append] at houtput'
    rw [houtput', hfollows.output]
    exact (hperm'.trans hperm.symm).map _
  · intro s calls s' hfresh hruns
    exact (hruns.books hfresh).2.balances
  · intro Holds hclient namespaceName metrics hmetrics style settings calls s' hbatches hruns
    exact (hruns.agrees hclient hbatches (.start hclient hmetrics)).mirrors

/-! A session of the lakes' style, a tile of lakes, and one with a ditch that has no shape. -/

def lakeSettings : StatedSettings :=
  ⟨none, .layerFilter, .bool true, .ofInt 2, .ofInt 1000, .str "INFO"⟩

def ditch : DecodedFeature where
  geometry := .document [("type", .str "LineString"), ("coordinates", .arr [pointAt 0 0])]
  properties := some [("depth", .str "deep")]

def lakeTiles : List (TileCoord × Bool × List TileLayer) := [
  (⟨3, 0, 0⟩, true, lakeTile),
  (⟨3, 0, 1⟩, false, [⟨"water", 4096, [ditch]⟩])]

theorem batch_of_lakes : ∃ metrics : Collector (Registry Binary64),
    Collector.start Exposition.client Collector.defaultNamespace = .ok metrics ∧
      Exposition.client.Documented Registry.Holds ∧
      let session := Session.start metrics (some lakeStyle) lakeSettings
      ∃ pool : Pool (Bool × List TileLayer) (Registry Binary64),
        session.accepts none = true ∧
        Pool.Run .bare Exposition.client (Pool.start session lakeTiles) pool ∧ pool.Drained ∧
        (lakeTiles.map Prod.fst).Nodup ∧ session.statistics = {} ∧
        (pool.output.map Prod.fst).Perm [⟨3, 0, 0⟩, ⟨3, 0, 1⟩] ∧
        pool.session.statistics.tilesProcessed = 1 ∧ pool.session.statistics.tilesFailed = 1 ∧
        pool.session.metrics.value Exposition.client "tiles_total" [("status", "failed")] = .ofNat 1 := by
  have hclient : Exposition.client.Documented Registry.Holds := Registry.client_documented _
  obtain ⟨metrics, hmetrics⟩ : ∃ metrics,
      Collector.start Exposition.client Collector.defaultNamespace = .ok metrics := ⟨_, rfl⟩
  refine ⟨metrics, hmetrics, hclient, ?_⟩
  intro session
  have accepted : session.accepts none = true := rfl
  have run : Pool.Run .bare Exposition.client (Pool.start session lakeTiles) _ :=
    Pool.run_takeTiles .bare Exposition.client session (.int 0) (.refl lakeTiles) []
  have once := Session.Runs.snoc .start (Session.Does.batch accepted run ⟨rfl, rfl⟩)
  obtain ⟨_, in_order, balance, mirror⟩ := batches_balance_in_every_order Codec.bare Exposition.client
  obtain ⟨houtput, _, _⟩ := in_order session none lakeTiles _ accepted run ⟨rfl, rfl⟩
  have hbalance := balance session _ _ rfl once
  have hmirror := mirror _ hclient _ metrics hmetrics _ _ _ _ (by simp [Call.isBatch]) once
  have processed := hbalance.processed.trans
    (show lakeTiles.countP (lakePruner.succeeds .bare) = 1 by decide)
  have submitted := hbalance.submitted.trans (show lakeTiles.length = 2 by decide)
  rw [processed] at submitted
  have failed : _ = 1 := Nat.add_left_cancel submitted
  refine ⟨_, accepted, run, ⟨rfl, rfl⟩, by decide, rfl, ?_, processed, failed, ?_⟩
  · exact houtput.map Prod.fst
  · rw [hmirror.failed (by rw [failed]; decide), failed]

end StyledTiles
