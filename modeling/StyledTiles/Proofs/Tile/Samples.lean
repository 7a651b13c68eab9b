import StyledTiles.Proofs.Metrics.Collector
import StyledTiles.Proofs.Number.Counting
import StyledTiles.Proofs.Tile.Books

/-!
# What the metrics of a session show

A tile is counted in the metrics twice: when it is pruned, by what was kept and dropped, and when its
outcome is collected, as pruned or failed. The metrics agree with the statistics up to the tiles that
are pruned and not yet collected; once there are none, samples and statistics are the same numbers.

Samples are binary64 numbers, so a number is only shown as far as counting with these is exact. The client
that keeps them is any that does as documented.
-/
namespace StyledTiles

namespace Collector

variable {σ ε : Type}

/-- A standard collector one of whose counters has the given number as a sample, if that can be counted
to. -/
structure Shows (client : MetricsClient σ Binary64 ε) (Holds : σ → List Metric → Prop) (c : Collector σ)
    (key : String) (labels : Labels) (n : Nat) : Prop where
  standard : c.Standard Holds
  counter : ∃ labelNames, (key, labelNames) ∈ counters
  value : n ≤ Binary64.countingLimit → c.value client key labels = Binary64.ofNat n

/-- What counting a pruned tile adds to a sample. -/
def shareOf (t : PrunedTile) (key : String) (labels : Labels) : Nat :=
  (if key = "layers_total" ∧ labels = [("result", "kept")] then t.layersKept.length else 0) +
  (if key = "layers_total" ∧ labels = [("result", "dropped")] then t.layersDropped.length else 0) +
  (if key = "features_total" ∧ labels = [("result", "kept")] then t.featuresKept else 0) +
  (if key = "features_total" ∧ labels = [("result", "dropped")] then t.featuresDropped else 0) +
  (if key = "unknown_features_total" ∧ labels = [] then t.unknownFeatures else 0) +
  (if key = "unknown_occurrences_total" ∧ labels = [] then t.unknownOccurrences else 0)

variable {client : MetricsClient σ Binary64 ε} {Holds : σ → List Metric → Prop} {c : Collector σ}
  {key : String} {labelNames : List String} {labels : Labels} {m : Nat}

theorem ofNumber_natCast {n : Nat} (h : n ≤ Binary64.countingLimit) :
    Amount.ofNumber (.int n) = (.ok (Binary64.ofNat n) : Except OutOfRange Binary64) :=
  Binary64.toBinary64_natCast h

/-- A session's counting succeeds as far as it is exact. -/
theorem Standard.count_isOk (h : c.Standard Holds) (hclient : client.Documented Holds)
    (hc : (key, labelNames) ∈ counters) (hlabels : labels.map Prod.fst = labelNames) {n : Nat}
    (hn : n ≤ Binary64.countingLimit) :
    ∃ notices, (c.increment client key (.int n) labels).2 = .ok notices :=
  (h.increment_isOk hclient hc).mpr
    ⟨hlabels, Binary64.natCast_not_negative n, _, ofNumber_natCast hn⟩

namespace Shows

theorem start (hclient : client.Documented Holds) {namespaceName : String}
    (h : start client namespaceName = .ok c) (hc : (key, labelNames) ∈ counters) (labels : Labels) :
    c.Shows client Holds key labels 0 where
  standard := (fresh_of_start hclient h).1
  counter := ⟨labelNames, hc⟩
  value _ := by
    rw [value_of_start hclient h hc, Binary64.ofNat_zero]
    rfl

theorem observe (hclient : client.Documented Holds) (h : c.Shows client Holds key labels m)
    (name : String) (amount : Number) (labels' : Labels) :
    (c.observe client name amount labels').1.Shows client Holds key labels m where
  standard := h.standard.record hclient _ _ _ _
  counter := h.counter
  value hlimit := by
    obtain ⟨labelNames, hc⟩ := h.counter
    rw [← h.value hlimit]
    exact h.standard.value_record hclient hc nofun

/-- An increment adds to what its sample shows, and to that alone. -/
theorem count (hclient : client.Documented Holds) (h : c.Shows client Holds key labels m)
    {name : String} (labels' : Labels) (hc' : (name, labels'.map Prod.fst) ∈ counters) (n : Nat) :
    (Session.count client c name n labels').Shows client Holds key labels
      (m + if key = name ∧ labels = labels' then n else 0) where
  standard := h.standard.record hclient _ _ _ _
  counter := h.counter
  value hlimit := by
    by_cases hsame : key = name ∧ labels = labels'
    · rw [if_pos hsame] at hlimit ⊢
      obtain ⟨rfl, rfl⟩ := hsame
      have hok := h.standard.count_isOk hclient hc' rfl (n := n) (by omega)
      rw [Session.count, h.standard.value_increment hclient hc' hok, h.value (by omega), Amount.plus,
        ofNumber_natCast (by omega)]
      exact Binary64.add_ofNat hlimit
    · obtain ⟨labelNames, hc⟩ := h.counter
      rw [if_neg hsame, Nat.add_zero] at hlimit ⊢
      rw [← h.value hlimit]
      exact h.standard.value_record hclient hc fun _ hname hother _ => hsame ⟨hname.symm, hother⟩

theorem countTile (hclient : client.Documented Holds) (h : c.Shows client Holds key labels m)
    (elapsed : Number) (t : PrunedTile) :
    (Session.countTile client elapsed c t).Shows client Holds key labels (m + shareOf t key labels) := by
  have hlayers : ("layers_total", ["result"]) ∈ counters := by decide
  have hfeatures : ("features_total", ["result"]) ∈ counters := by decide
  have hunknown : ("unknown_features_total", []) ∈ counters := by decide
  have hoccurrences : ("unknown_occurrences_total", []) ∈ counters := by decide
  have h := h.observe hclient "duration_seconds" elapsed []
  have h := h.count hclient [("result", "kept")] hlayers t.layersKept.length
  have h := h.count hclient [("result", "dropped")] hlayers t.layersDropped.length
  have h := h.count hclient [("result", "kept")] hfeatures t.featuresKept
  have h := h.count hclient [("result", "dropped")] hfeatures t.featuresDropped
  have h := h.count hclient [] hunknown t.unknownFeatures
  have h := h.count hclient [] hoccurrences t.unknownOccurrences
  rw [shareOf]
  simp only [← Nat.add_assoc]
  exact h

end Shows

/-- The metrics show the statistics, with the tiles added that are pruned and not yet collected. -/
structure Agrees {Blob : Type} (client : MetricsClient σ Binary64 ε) (Holds : σ → List Metric → Prop)
    (c : Collector σ) (p : Pruner) (codec : Codec Blob) (st : Statistics)
    (pending : List (TileCoord × Blob)) : Prop where
  pruned : c.Shows client Holds "tiles_total" [("status", "pruned")] st.tilesProcessed
  failed : c.Shows client Holds "tiles_total" [("status", "failed")] st.tilesFailed
  featuresKept : c.Shows client Holds "features_total" [("result", "kept")]
    (st.featuresKept + p.sumOf codec PrunedTile.featuresKept pending)
  featuresDropped : c.Shows client Holds "features_total" [("result", "dropped")]
    (st.featuresDropped + p.sumOf codec PrunedTile.featuresDropped pending)
  unknownFeatures : c.Shows client Holds "unknown_features_total" []
    (st.unknownFeatures + p.sumOf codec PrunedTile.unknownFeatures pending)
  unknownOccurrences : c.Shows client Holds "unknown_occurrences_total" []
    (st.unknownOccurrences + p.sumOf codec PrunedTile.unknownOccurrences pending)

/-- The sample shows the number, if that can be counted to. -/
def Samples (client : MetricsClient σ Binary64 ε) (c : Collector σ) (key : String) (labels : Labels)
    (n : Nat) : Prop :=
  n ≤ Binary64.countingLimit → c.value client key labels = Binary64.ofNat n

/-- The samples that have a counterpart in the statistics show it. -/
structure Mirrors (client : MetricsClient σ Binary64 ε) (c : Collector σ) (st : Statistics) : Prop where
  pruned : c.Samples client "tiles_total" [("status", "pruned")] st.tilesProcessed
  failed : c.Samples client "tiles_total" [("status", "failed")] st.tilesFailed
  featuresKept : c.Samples client "features_total" [("result", "kept")] st.featuresKept
  featuresDropped : c.Samples client "features_total" [("result", "dropped")] st.featuresDropped
  unknownFeatures : c.Samples client "unknown_features_total" [] st.unknownFeatures
  unknownOccurrences : c.Samples client "unknown_occurrences_total" [] st.unknownOccurrences

namespace Agrees

variable {Blob : Type} {p : Pruner} {codec : Codec Blob}

theorem start (hclient : client.Documented Holds) {namespaceName : String}
    (h : start client namespaceName = .ok c) : c.Agrees client Holds p codec {} [] := by
  have htiles : ("tiles_total", ["status"]) ∈ counters := by decide
  have hfeatures : ("features_total", ["result"]) ∈ counters := by decide
  have hunknown : ("unknown_features_total", []) ∈ counters := by decide
  have hoccurrences : ("unknown_occurrences_total", []) ∈ counters := by decide
  exact ⟨.start hclient h htiles _, .start hclient h htiles _, .start hclient h hfeatures _,
    .start hclient h hfeatures _, .start hclient h hunknown _, .start hclient h hoccurrences _⟩

/-- A worker prunes a tile, which is then pending. -/
theorem pruneTile (hclient : client.Documented Holds) {s : Session σ} {st : Statistics}
    {pending : List (TileCoord × Blob)} (h : s.metrics.Agrees client Holds s.pruner codec st pending)
    (elapsed : Number) (tile : TileCoord × Blob) :
    (s.pruneTile codec client elapsed (.int tile.1.z) tile.2).1.metrics.Agrees client Holds s.pruner codec
      st (pending ++ [tile]) := by
  have houtcome : s.pruner.pruneBlob (.int tile.1.z) codec tile.2 = s.pruner.outcome codec tile := rfl
  simp only [Session.pruneTile, houtcome]
  cases hr : s.pruner.outcome codec tile with
  | error e =>
    have hnone : ∀ count, s.pruner.sumOf codec count (pending ++ [tile]) =
        s.pruner.sumOf codec count pending := by
      intro count
      rw [Pruner.sumOf_append, Pruner.sumOf_singleton, Pruner.countOf, hr]
      rfl
    constructor
    · exact h.pruned
    · exact h.failed
    · rw [hnone]; exact h.featuresKept
    · rw [hnone]; exact h.featuresDropped
    · rw [hnone]; exact h.unknownFeatures
    · rw [hnone]; exact h.unknownOccurrences
  | ok r =>
    obtain ⟨after, t⟩ := r
    have hsum : ∀ count, s.pruner.sumOf codec count (pending ++ [tile]) =
        s.pruner.sumOf codec count pending + count t := by
      intro count
      rw [Pruner.sumOf_append, Pruner.sumOf_singleton, Pruner.countOf, hr]
    constructor
    · simpa [shareOf] using h.pruned.countTile hclient elapsed t
    · simpa [shareOf] using h.failed.countTile hclient elapsed t
    · simpa [shareOf, hsum, Nat.add_assoc] using h.featuresKept.countTile hclient elapsed t
    · simpa [shareOf, hsum, Nat.add_assoc] using h.featuresDropped.countTile hclient elapsed t
    · simpa [shareOf, hsum, Nat.add_assoc] using h.unknownFeatures.countTile hclient elapsed t
    · simpa [shareOf, hsum, Nat.add_assoc] using h.unknownOccurrences.countTile hclient elapsed t

/-- A pending tile is collected, and moves to the statistics. -/
theorem collect (hclient : client.Documented Holds) {s : Session σ}
    {front back : List (TileCoord × Blob)} {tile : TileCoord × Blob}
    (h : s.metrics.Agrees client Holds s.pruner codec s.statistics (front ++ tile :: back)) :
    (s.collect codec client tile (s.pruner.outcome codec tile)).1.metrics.Agrees client Holds s.pruner codec
      (s.collect codec client tile (s.pruner.outcome codec tile)).1.statistics (front ++ back) := by
  have hbooks := s.collect_books codec client tile
  have hmoves : ∀ count {n n'}, n' = n + s.pruner.sumOf codec count [tile] →
      n' + s.pruner.sumOf codec count (front ++ back) =
        n + s.pruner.sumOf codec count (front ++ tile :: back) := by
    intro count n n' hn
    rw [← List.singleton_append, Pruner.sumOf_append, Pruner.sumOf_append, Pruner.sumOf_append]
    omega
  have htiles : ("tiles_total", ["status"]) ∈ counters := by decide
  have hkept := h.featuresKept
  have hdropped := h.featuresDropped
  have hunknown := h.unknownFeatures
  have hoccurrences := h.unknownOccurrences
  rw [← hmoves _ hbooks.featuresKept] at hkept
  rw [← hmoves _ hbooks.featuresDropped] at hdropped
  rw [← hmoves _ hbooks.unknownFeatures] at hunknown
  rw [← hmoves _ hbooks.unknownOccurrences] at hoccurrences
  cases hr : s.pruner.outcome codec tile with
  | error e =>
    rw [hr] at hkept hdropped hunknown hoccurrences
    exact ⟨h.pruned.count hclient _ htiles 1, h.failed.count hclient _ htiles 1,
      hkept.count hclient _ htiles 1, hdropped.count hclient _ htiles 1,
      hunknown.count hclient _ htiles 1, hoccurrences.count hclient _ htiles 1⟩
  | ok r =>
    rw [hr] at hkept hdropped hunknown hoccurrences
    exact ⟨h.pruned.count hclient _ htiles 1, h.failed.count hclient _ htiles 1,
      hkept.count hclient _ htiles 1, hdropped.count hclient _ htiles 1,
      hunknown.count hclient _ htiles 1, hoccurrences.count hclient _ htiles 1⟩

/-- When no tile is pending, the samples are the statistics. -/
theorem mirrors {st : Statistics} (h : c.Agrees client Holds p codec st []) : c.Mirrors client st :=
  ⟨h.pruned.value, h.failed.value, h.featuresKept.value, h.featuresDropped.value,
    h.unknownFeatures.value, h.unknownOccurrences.value⟩

end Agrees

end Collector

end StyledTiles
