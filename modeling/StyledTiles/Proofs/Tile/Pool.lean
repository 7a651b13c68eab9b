import Mathlib.Logic.Relation
import StyledTiles.Proofs.Tile.Samples

/-!
# A batch in the hands of many workers

The tiles of a batch wait until some worker has pruned them, and what that gave is kept until the
collecting thread takes it in. Workers and collector take turns in any order, and each takes any tile that
is there. Whatever the order, the pool is drained in the end, and then each tile has been taken in once.
Pruning a tile is one step, with the counting that a worker does for it.

How many workers there are only limits which orders occur, so it is not looked at. That a session takes
the tiles of a list one by one is one of the orders.
-/
namespace StyledTiles

/-- A batch under way: the session, the tiles that wait, the outcomes to be collected, and the output. -/
structure Pool (Blob σ : Type) where
  session : Session σ
  waiting : List (TileCoord × Blob)
  finished : List ((TileCoord × Blob) × Except PruningError (Blob × PrunedTile))
  output : List (TileCoord × Blob)

namespace Pool

variable {Blob σ ε : Type}

def start (s : Session σ) (tiles : List (TileCoord × Blob)) : Pool Blob σ := ⟨s, tiles, [], []⟩

/-- A worker finishes a tile that waits, or the collector takes in an outcome. -/
inductive Step (codec : Codec Blob) (client : MetricsClient σ Binary64 ε) :
    Pool Blob σ → Pool Blob σ → Prop
  | finish (s : Session σ) (elapsed : Number) (front back : List (TileCoord × Blob))
      (tile : TileCoord × Blob) (finished) (output : List (TileCoord × Blob)) :
      Step codec client ⟨s, front ++ tile :: back, finished, output⟩
        ⟨(s.pruneTile codec client elapsed (.int tile.1.z) tile.2).1, front ++ back,
          finished ++ [(tile, (s.pruneTile codec client elapsed (.int tile.1.z) tile.2).2)], output⟩
  | collect (s : Session σ) (waiting : List (TileCoord × Blob)) (front back)
      (tile : TileCoord × Blob) (r) (output : List (TileCoord × Blob)) :
      Step codec client ⟨s, waiting, front ++ (tile, r) :: back, output⟩
        ⟨(s.collect codec client tile r).1, waiting, front ++ back,
          output ++ [(tile.1, (s.collect codec client tile r).2.1)]⟩

def Run (codec : Codec Blob) (client : MetricsClient σ Binary64 ε) : Pool Blob σ → Pool Blob σ → Prop :=
  Relation.ReflTransGen (Step codec client)

/-- Nothing waits, and nothing is left to collect. -/
def Drained (pool : Pool Blob σ) : Prop := pool.waiting = [] ∧ pool.finished = []

/-- How many steps it takes to drain the pool: a tile that waits has to be pruned and collected. -/
def work (pool : Pool Blob σ) : Nat := 2 * pool.waiting.length + pool.finished.length

/-- Where a batch of tiles stands that was started by a session, some tiles having been collected. -/
structure Follows (codec : Codec Blob) (client : MetricsClient σ Binary64 ε) (s : Session σ)
    (tiles collected : List (TileCoord × Blob)) (pool : Pool Blob σ) : Prop where
  pruner : pool.session.pruner = s.pruner
  maxWorkers : pool.session.maxWorkers = s.maxWorkers
  maxTileBytes : pool.session.maxTileBytes = s.maxTileBytes
  all : (pool.waiting ++ pool.finished.map Prod.fst ++ collected).Perm tiles
  outcomes : ∀ r ∈ pool.finished, r.2 = s.pruner.outcome codec r.1
  output : pool.output = collected.map fun tile => (tile.1, s.pruner.returned codec tile)
  books : Statistics.Books s.pruner codec s.maxTileBytes s.statistics collected
    pool.session.statistics
  agrees : ∀ Holds, client.Documented Holds →
    s.metrics.Agrees client Holds s.pruner codec s.statistics [] →
    pool.session.metrics.Agrees client Holds s.pruner codec pool.session.statistics
      (pool.finished.map Prod.fst)

variable {codec : Codec Blob} {client : MetricsClient σ Binary64 ε} {s : Session σ}
  {tiles collected : List (TileCoord × Blob)} {pool pool' : Pool Blob σ}

theorem Follows.start : (Pool.start s tiles).Follows codec client s tiles [] where
  pruner := rfl
  maxWorkers := rfl
  maxTileBytes := rfl
  all := by simp [Pool.start]
  outcomes := by simp [Pool.start]
  output := rfl
  books := .refl
  agrees _ _ h := h

/-- A step collects at most one tile more. -/
theorem Follows.step (h : pool.Follows codec client s tiles collected)
    (hstep : Step codec client pool pool') :
    ∃ collected', pool'.Follows codec client s tiles collected' := by
  cases hstep with
  | finish s₀ elapsed front back tile finished output =>
    have hpruner : s₀.pruner = s.pruner := h.pruner
    have hkeeps := s₀.pruneTile_keeps codec client elapsed (.int tile.1.z) tile.2
    refine ⟨collected, ?_, ?_, ?_, ?_, ?_, h.output, ?_, ?_⟩
    · rw [hkeeps]
      exact h.pruner
    · rw [hkeeps]
      exact h.maxWorkers
    · rw [hkeeps]
      exact h.maxTileBytes
    · refine .trans (List.Perm.append_right collected ?_) h.all
      have hone : (front ++ tile :: back ++ finished.map Prod.fst).Perm
          (tile :: (front ++ back ++ finished.map Prod.fst)) :=
        List.perm_middle.append_right (finished.map Prod.fst)
      refine .trans ?_ hone.symm
      rw [List.map_append, ← List.append_assoc]
      exact List.perm_append_singleton tile _
    · intro r hr
      rcases List.mem_append.mp hr with hr | hr
      · exact h.outcomes r hr
      · rw [List.mem_singleton.mp hr, ← hpruner]
        exact s₀.pruneTile_snd codec client elapsed tile
    · rw [hkeeps]
      exact h.books
    · intro Holds hclient hstart
      have hagrees := h.agrees Holds hclient hstart
      rw [← hpruner] at hagrees ⊢
      have hpruned := hagrees.pruneTile hclient elapsed tile
      have hstatistics : (s₀.pruneTile codec client elapsed (.int tile.1.z) tile.2).1.statistics =
          s₀.statistics := by rw [hkeeps]
      rw [List.map_append, hstatistics]
      exact hpruned
  | collect s₀ waiting front back tile r output =>
    have hpruner : s₀.pruner = s.pruner := h.pruner
    have hlimit : s₀.maxTileBytes = s.maxTileBytes := h.maxTileBytes
    have hr : r = s₀.pruner.outcome codec tile := by
      rw [hpruner]
      exact h.outcomes (tile, r) (by simp)
    have hkeeps := s₀.collect_keeps codec client tile r
    refine ⟨collected ++ [tile], ?_, ?_, ?_, ?_, ?_, ?_, ?_, ?_⟩
    · rw [hkeeps]
      exact h.pruner
    · rw [hkeeps]
      exact h.maxWorkers
    · rw [hkeeps]
      exact h.maxTileBytes
    · refine .trans ?_ h.all
      simp only [List.map_append, List.map_cons, List.append_assoc]
      refine List.Perm.append_left waiting (List.Perm.append_left (front.map Prod.fst) ?_)
      rw [← List.append_assoc]
      exact List.perm_append_singleton tile _
    · intro r' hr'
      refine h.outcomes r' ?_
      rcases List.mem_append.mp hr' with hr' | hr'
      · exact List.mem_append_left _ hr'
      · exact List.mem_append_right _ (List.mem_cons_of_mem _ hr')
    · have houtput : output = collected.map fun tile => (tile.1, s.pruner.returned codec tile) :=
        h.output
      rw [hr, s₀.collect_returned codec client tile, hpruner, List.map_append, houtput]
      rfl
    · have hbooks := s₀.collect_books codec client tile
      rw [← hr, hpruner, hlimit] at hbooks
      exact h.books.trans hbooks
    · intro Holds hclient hstart
      have hagrees := h.agrees Holds hclient hstart
      simp only [List.map_append, List.map_cons] at hagrees ⊢
      rw [hr, ← hpruner]
      rw [← hpruner] at hagrees
      exact hagrees.collect hclient

theorem Follows.run (h : pool.Follows codec client s tiles collected)
    (hrun : Run codec client pool pool') : ∃ collected', pool'.Follows codec client s tiles collected' := by
  induction hrun with
  | refl => exact ⟨collected, h⟩
  | tail _ hstep ih =>
    obtain ⟨between, hbetween⟩ := ih
    exact hbetween.step hstep

/-- What a batch has come to when it is done, in whatever order it was. -/
theorem Run.done (hrun : Run codec client (Pool.start s tiles) pool) (hdrained : pool.Drained) :
    ∃ order, order.Perm tiles ∧ pool.Follows codec client s tiles order := by
  obtain ⟨collected, h⟩ := Follows.start.run hrun
  have hall := h.all
  rw [hdrained.1, hdrained.2] at hall
  exact ⟨collected, by simpa using hall, h⟩

/-! ## Draining -/

/-- Each step does a part of the work, so no run goes on forever. -/
theorem Step.work_eq (h : Step codec client pool pool') : pool.work = pool'.work + 1 := by
  cases h with
  | finish s elapsed front back tile finished output =>
    simp only [work, List.length_append, List.length_cons, List.length_nil]
    omega
  | collect s waiting front back tile r output =>
    simp only [work, List.length_append, List.length_cons]
    omega

/-- While there is work a step can be taken, so a run that has stopped has drained the pool. -/
theorem exists_step (codec : Codec Blob) (client : MetricsClient σ Binary64 ε) (h : ¬ pool.Drained) :
    ∃ next, Step codec client pool next := by
  obtain ⟨s, waiting, finished, output⟩ := pool
  cases waiting with
  | cons tile waiting => exact ⟨_, .finish s (.int 0) [] waiting tile finished output⟩
  | nil =>
    cases finished with
    | cons done finished => exact ⟨_, .collect s [] [] finished done.1 done.2 output⟩
    | nil => exact absurd ⟨rfl, rfl⟩ h

/-- Wherever a run has come to, it can be carried on until the pool is drained. -/
theorem exists_run_drained (codec : Codec Blob) (client : MetricsClient σ Binary64 ε)
    (pool : Pool Blob σ) : ∃ last, Run codec client pool last ∧ last.Drained := by
  induction hwork : pool.work generalizing pool with
  | zero =>
    have hwaiting : pool.waiting.length = 0 := by unfold work at hwork; omega
    have hfinished : pool.finished.length = 0 := by unfold work at hwork; omega
    exact ⟨pool, .refl, List.length_eq_zero_iff.mp hwaiting, List.length_eq_zero_iff.mp hfinished⟩
  | succ n ih =>
    by_cases hdrained : pool.Drained
    · exact ⟨pool, .refl, hdrained⟩
    · obtain ⟨next, hstep⟩ := exists_step codec client hdrained
      have hless : next.work = n := by
        have h := hstep.work_eq
        omega
      obtain ⟨last, hrun, hlast⟩ := ih next hless
      exact ⟨last, .head hstep hrun, hlast⟩

/-! ## One by one -/

theorem step_finish (elapsed : Number) (front back : List (TileCoord × Blob))
    (tile : TileCoord × Blob) (output : List (TileCoord × Blob)) :
    Run codec client ⟨s, front ++ tile :: back, [], output⟩
      ⟨(s.takeTile codec client elapsed tile).1, front ++ back, [],
        output ++ [(tile.1, (s.takeTile codec client elapsed tile).2.1)]⟩ := by
  refine .tail (.single (Step.finish s elapsed front back tile [] output)) ?_
  exact Step.collect _ (front ++ back) [] [] tile _ output

/-- A session that takes the tiles one by one, in any order, makes a run of the batch. -/
theorem run_takeTiles (codec : Codec Blob) (client : MetricsClient σ Binary64 ε) (s : Session σ)
    (elapsed : Number) {order waiting : List (TileCoord × Blob)} (h : order.Perm waiting)
    (output : List (TileCoord × Blob)) :
    Run codec client ⟨s, waiting, [], output⟩ ⟨(s.takeTiles codec client elapsed order).1, [], [],
      output ++ (s.takeTiles codec client elapsed order).2.1⟩ := by
  induction order generalizing s waiting output with
  | nil =>
    obtain rfl := h.nil_eq
    rw [Session.takeTiles, List.append_nil]
    exact .refl
  | cons tile order ih =>
    obtain ⟨front, back, rfl⟩ := List.append_of_mem (h.subset List.mem_cons_self)
    have hrest : order.Perm (front ++ back) := (h.trans List.perm_middle).cons_inv
    have hrun := ih (s.takeTile codec client elapsed tile).1 hrest
      (output ++ [(tile.1, (s.takeTile codec client elapsed tile).2.1)])
    rw [List.append_assoc] at hrun
    exact (step_finish elapsed front back tile output).trans hrun

end Pool

end StyledTiles
