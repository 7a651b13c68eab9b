import StyledTiles.Metrics.Collector
import StyledTiles.Proofs.Metrics.Client
import StyledTiles.Proofs.Outcome

/-!
# The standard collector

A fresh collector holds the standard metrics under its namespace, and its counters show zero. Counting keeps
the metrics. An increment that succeeds adds to the value under its name and labels; one that fails, and
every other call, leaves that value, whatever else has come into being in the registry.

Clients are documented ones throughout.
-/
namespace StyledTiles

namespace Collector

/-- The counters of the standard metrics, with their labels. -/
def counters : List (String × List String) :=
  standardMetrics.filterMap fun (kind, key, _, labelNames) =>
    if kind = .counter then some (key, labelNames) else none

/-- A standard metric with its short name, under a namespace. -/
def entry (namespaceName : String) : MetricKind × String × String × List String → String × Metric
  | (kind, key, _, labelNames) => (key, ⟨kind, namespaceName ++ "_" ++ key, labelNames⟩)

variable {σ α ε : Type}

/-- A collector of the standard metrics, which its registry holds. -/
structure Standard (Holds : σ → List Metric → Prop) (c : Collector σ) : Prop where
  holds : Holds c.registry (c.metrics.map Prod.snd)
  metrics : c.metrics = (standardMetrics.map (entry c.namespaceName)).reverse

/-- The metric of a counter. -/
def counter (c : Collector σ) (key : String) (labelNames : List String) : Metric :=
  ⟨.counter, c.fullName key, labelNames⟩

variable {Holds : σ → List Metric → Prop} {c : Collector σ} {key : String} {labelNames : List String}

theorem isTally_of_counter (c : Collector σ) (hc : (key, labelNames) ∈ counters) :
    (c.counter key labelNames).IsTally := by
  have hall : ∀ counter ∈ counters,
      String.ofList (counter.1.toList.take (counter.1.toList.length - 6)) ++ "_total" = counter.1 ∧
        counter.2.length ≤ 1 ∧ ownerLabelName ∉ counter.2 := by decide +kernel
  obtain ⟨hending, hlen, howner⟩ := hall _ hc
  obtain ⟨stem, hstem⟩ : ∃ stem, key = stem ++ "_total" := ⟨_, hending.symm⟩
  refine ⟨rfl, ⟨c.namespaceName ++ "_" ++ stem, ?_⟩, hlen, howner⟩
  rw [counter, fullName, hstem]
  exact String.append_assoc.symm

/-- The standard counters are found by their short names. -/
theorem Standard.metric?_counter (h : c.Standard Holds) (hc : (key, labelNames) ∈ counters) :
    c.metric? .counter key = some (c.counter key labelNames) := by
  have hall : ∀ counter ∈ counters,
      (standardMetrics.reverse.find? fun m => m.1 = .counter && m.2.1 = counter.1).map
        (fun m => (m.1, m.2.1, m.2.2.2)) = some (.counter, counter.1, counter.2) := by decide +kernel
  obtain ⟨⟨kind, key', help, labelNames'⟩, hfound, heq⟩ := Option.map_eq_some_iff.mp (hall _ hc)
  cases heq
  rw [metric?, h.metrics, ← List.map_reverse, List.find?_map]
  have hfinds : ((fun e : String × Metric => decide (e.2.kind = .counter) && decide (e.1 = key)) ∘
      entry c.namespaceName) = fun m => m.1 = .counter && m.2.1 = key := rfl
  rw [hfinds, hfound]
  rfl

/-- What is found under a short name is a metric of the collector with the name in full. -/
theorem Standard.of_metric? (h : c.Standard Holds) {kind : MetricKind} {m : Metric}
    (hm : c.metric? kind key = some m) :
    m ∈ c.metrics.map Prod.snd ∧ m.kind = kind ∧ m.name = c.fullName key := by
  obtain ⟨⟨key', m'⟩, hfound, rfl⟩ := Option.map_eq_some_iff.mp hm
  have hmem := List.mem_of_find?_eq_some hfound
  have hkey := List.find?_some hfound
  simp only [Bool.and_eq_true, decide_eq_true_eq] at hkey
  obtain ⟨hkind, rfl⟩ := hkey
  refine ⟨List.mem_map_of_mem hmem, hkind, ?_⟩
  rw [h.metrics, List.mem_reverse, List.mem_map] at hmem
  obtain ⟨⟨_, _, _, _⟩, _, heq⟩ := hmem
  cases heq
  rfl

variable [Amount α] {client : MetricsClient σ α ε}

/-! ## A fresh collector -/

/-- The registry holds the metrics, and its tallies show zero. -/
structure Fresh (client : MetricsClient σ α ε) (Holds : σ → List Metric → Prop) (c : Collector σ) :
    Prop where
  holds : Holds c.registry (c.metrics.map Prod.snd)
  zero : ∀ m ∈ c.metrics.map Prod.snd, m.IsTally → ∀ labels x,
    client.shows? c.registry m labels = some x → x = Amount.zero

theorem Fresh.create (hclient : client.Documented Holds) (h : c.Fresh client Holds) {kind : MetricKind}
    {help : String} {c' : Collector σ} (hc' : c.create client kind key help labelNames = .ok c') :
    c'.Fresh client Holds ∧ c'.namespaceName = c.namespaceName ∧
      c'.metrics = entry c.namespaceName (kind, key, help, labelNames) :: c.metrics := by
  obtain ⟨registry, hregister, rfl⟩ := Outcome.map_eq_ok.mp hc'
  refine ⟨⟨hclient.register h.holds hregister, ?_⟩, rfl, rfl⟩
  intro m hm htally labels x hx
  rcases List.mem_cons.mp hm with rfl | hm
  · exact hclient.register_shows h.holds hregister htally labels x hx
  · rw [hclient.register_keeps h.holds hregister m hm htally labels] at hx
    exact h.zero m hm htally labels x hx

theorem Fresh.foldlM (hclient : client.Documented Holds)
    (metrics : List (MetricKind × String × String × List String)) {c c' : Collector σ}
    (h : c.Fresh client Holds)
    (hc' : metrics.foldlM (fun c (kind, key, help, labelNames) =>
      c.create client kind key help labelNames) c = .ok c') :
    c'.Fresh client Holds ∧ c'.namespaceName = c.namespaceName ∧
      c'.metrics = (metrics.map (entry c.namespaceName)).reverse ++ c.metrics := by
  induction metrics generalizing c with
  | nil =>
    cases hc'
    exact ⟨h, rfl, rfl⟩
  | cons metric rest ih =>
    rw [List.foldlM_cons, Outcome.bind_eq_ok] at hc'
    obtain ⟨next, hnext, hrest⟩ := hc'
    obtain ⟨hfresh, hname, hmetrics⟩ := h.create hclient hnext
    obtain ⟨hfresh', hname', hmetrics'⟩ := ih hfresh hrest
    refine ⟨hfresh', hname'.trans hname, ?_⟩
    rw [hmetrics', hmetrics, hname, List.map_cons, List.reverse_cons, List.append_assoc]
    rfl

theorem fresh_of_start (hclient : client.Documented Holds) {namespaceName : String}
    (h : start client namespaceName = .ok c) : c.Standard Holds ∧ c.Fresh client Holds := by
  have hempty : Fresh client Holds ⟨namespaceName, client.empty, []⟩ := ⟨hclient.empty, by simp⟩
  obtain ⟨hfresh, hname, hmetrics⟩ := hempty.foldlM hclient standardMetrics h
  refine ⟨⟨hfresh.holds, ?_⟩, hfresh⟩
  rw [hmetrics, hname, List.append_nil]

/-- A fresh collector has counted nothing. -/
theorem value_of_start (hclient : client.Documented Holds) {namespaceName : String}
    (h : start client namespaceName = .ok c) (hc : (key, labelNames) ∈ counters) (labels : Labels) :
    c.value client key labels = Amount.zero := by
  obtain ⟨hstandard, hfresh⟩ := fresh_of_start hclient h
  have hmem := (hstandard.of_metric? (hstandard.metric?_counter hc)).1
  rw [value]
  cases hshows : client.sample? c.registry (c.fullName key) labels with
  | none => rfl
  | some x => exact hfresh.zero _ hmem (c.isTally_of_counter hc) labels x hshows

/-! ## Counting -/

variable {kind : MetricKind} {amount : Number} {labels other : Labels}

theorem Standard.record (h : c.Standard Holds) (hclient : client.Documented Holds) (kind : MetricKind)
    (key : String) (amount : Number) (labels : Labels) :
    (c.record client kind key amount labels).1.Standard Holds := by
  rw [Collector.record]
  cases hm : c.metric? kind key with
  | none => exact h
  | some m =>
    have hmem := (h.of_metric? hm).1
    exact ⟨hclient.recordUnder h.holds hmem labels amount, h.metrics⟩

/-- An increment of a counter succeeds where its labels name those of the counter and its amount is one
and not negative. -/
theorem Standard.increment_isOk (h : c.Standard Holds) (hclient : client.Documented Holds)
    (hc : (key, labelNames) ∈ counters) :
    (∃ notices, (c.increment client key amount labels).2 = .ok notices) ↔
      labels.map Prod.fst = labelNames ∧ amount.lt (.int 0) = false ∧
        ∃ y : α, Amount.ofNumber amount = .ok y := by
  have hm := h.metric?_counter hc
  have hisOk : (client.recordUnder c.registry (c.counter key labelNames) labels amount).2 = .ok () ↔ _ :=
    hclient.recordUnder_isOk h.holds (h.of_metric? hm).1 (c.isTally_of_counter hc)
  rw [increment, Collector.record, hm]
  refine .trans ?_ hisOk
  simp only [Outcome.map_eq_ok, exists_comm (α := List MetricNotice), exists_and_left, exists_eq',
    and_true]
  exact ⟨fun ⟨_, hok⟩ => hok, fun hok => ⟨(), hok⟩⟩

/-- An increment that succeeds adds its amount. -/
theorem Standard.value_increment (h : c.Standard Holds) (hclient : client.Documented Holds)
    (hc : (key, labelNames) ∈ counters)
    (hok : ∃ notices, (c.increment client key amount labels).2 = .ok notices) :
    (c.increment client key amount labels).1.value client key labels =
      Amount.plus (c.value client key labels) amount := by
  have hm := h.metric?_counter hc
  rw [increment, Collector.record, hm] at hok ⊢
  obtain ⟨_, hok⟩ := hok
  obtain ⟨_, hok, _⟩ := Outcome.map_eq_ok.mp hok
  exact hclient.recordUnder_adds h.holds (h.of_metric? hm).1 (c.isTally_of_counter hc) hok

/-- Whatever is recorded, the value of a counter stays, unless it is incremented under these labels and
that succeeds. -/
theorem Standard.value_record (h : c.Standard Holds) (hclient : client.Documented Holds)
    (hc : (key, labelNames) ∈ counters) {kind : MetricKind} {name : String}
    (hkeeps : kind = .counter → name = key → other = labels →
      ¬ ∃ notices, (c.record client kind name amount labels).2 = .ok notices) :
    (c.record client kind name amount labels).1.value client key other = c.value client key other := by
  have hcounter := (h.of_metric? (h.metric?_counter hc)).1
  rw [Collector.record] at hkeeps ⊢
  cases hm : c.metric? kind name with
  | none => rfl
  | some m =>
    rw [hm] at hkeeps
    obtain ⟨hmem, hkind, hname⟩ := h.of_metric? hm
    refine hclient.recordUnder_keeps h.holds hmem hcounter (c.isTally_of_counter hc) ?_
    rintro rfl hlabels hok
    have hsame : name = key := (String.append_right_inj _).mp hname.symm
    exact hkeeps hkind.symm hsame hlabels ⟨[], Outcome.map_eq_ok.mpr ⟨(), hok, rfl⟩⟩

end Collector

end StyledTiles
