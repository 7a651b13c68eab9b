import Mathlib.Algebra.Order.BigOperators.Group.List
import Mathlib.Algebra.Order.Ring.Rat
import Mathlib.Data.Rat.Cast.Order
import StyledTiles.Proofs.Metrics.Collector
import StyledTiles.Proofs.Metrics.Registry
import StyledTiles.Proofs.Number.Counting

/-!
# Samples as sums

Calls on the metrics of a run count, observe, look a sample up or report. Whatever the calls, the sample
of a standard counter shows the sum of the amounts by which the calls that succeeded incremented it under
the labels of the sample. A call that fails may leave a new child behind, which shows zero as a missing
one does, so no sample tells the difference.

This holds over every client that does as documented; sums are exact, in rational numbers.
-/
namespace StyledTiles

/-- Exact amounts: all finite numbers, and nothing is rounded. -/
instance : Amount Rat where
  zero := 0
  one := 1
  add := (· + ·)
  ofNumber amount :=
    match amount.place? with
    | some (.at q) => .ok q
    | _ => .error ⟨⟩

/-- A call on the metrics of a run. -/
inductive MetricCall where
  | increment (name : String) (amount : Int) (labels : Labels)
  | observe (name : String) (amount : Int) (labels : Labels)
  | sample (name : String) (labels : Labels)
  | report (format : String)
deriving DecidableEq, Repr

/-- What a call that succeeds gives. -/
inductive MetricAnswer (α : Type) where
  | counted (notices : List MetricNotice)
  | value (x : α)
  | report (report : MetricsReport α)

/-- Why a call fails. -/
inductive MetricFailure (ε : Type) where
  | client (e : ε)
  | format (e : NotSupported)

namespace MetricCall

/-- The amount by which a call increments the counter of a short name under given labels, if it does
where it succeeds. -/
def amount? (key : String) (labels : Labels) : MetricCall → Option Int
  | .increment name amount labels' => if name = key ∧ labels'.same labels then some amount else none
  | _ => none

/-- The amounts by which calls increment a counter. -/
def amountsOf (key : String) (labels : Labels) (calls : List MetricCall) : List Int :=
  calls.filterMap (amount? key labels)

theorem amount?_eq_some {key : String} {labels : Labels} {call : MetricCall} {n : Int} :
    call.amount? key labels = some n ↔
      ∃ labels', call = .increment key n labels' ∧ labels'.same labels = true := by
  cases call with
  | increment name amount labels' =>
    simp only [amount?, Option.ite_none_right_eq_some, Option.some.injEq, increment.injEq]
    constructor
    · rintro ⟨⟨rfl, hsame⟩, rfl⟩
      exact ⟨labels', ⟨rfl, rfl, rfl⟩, hsame⟩
    · rintro ⟨_, ⟨rfl, rfl, rfl⟩, hsame⟩
      exact ⟨⟨rfl, hsame⟩, rfl⟩
  | observe name amount labels' => simp [amount?]
  | sample name labels' => simp [amount?]
  | report format => simp [amount?]

end MetricCall

namespace Collector

variable {σ α ε : Type} [Amount α] (client : MetricsClient σ α ε)

/-- A call, with the collector after it and its answer. -/
def perform (c : Collector σ) :
    MetricCall → Collector σ × Except (MetricFailure ε) (MetricAnswer α)
  | .increment name amount labels =>
    let (c', result) := c.increment client name (.int amount) labels
    (c', (result.mapError .client).map .counted)
  | .observe name amount labels =>
    let (c', result) := c.observe client name (.int amount) labels
    (c', (result.mapError .client).map .counted)
  | .sample name labels => (c, .ok (.value (c.value client name labels)))
  | .report format => (c, ((c.reportAs client format).mapError .format).map .report)

/-- The collector after calls. -/
def after (c : Collector σ) (calls : List MetricCall) : Collector σ :=
  calls.foldl (fun c call => (c.perform client call).1) c

/-- The calls that succeed, each on the collector that the ones before it leave. -/
def succeeded (c : Collector σ) : List MetricCall → List MetricCall
  | [] => []
  | call :: calls =>
    let rest := (c.perform client call).1.succeeded calls
    match (c.perform client call).2 with
    | .ok _ => call :: rest
    | .error _ => rest

/-- The sum of the amounts by which the calls that succeed increment a counter. -/
def added (c : Collector σ) (key : String) (labels : Labels) (calls : List MetricCall) : Int :=
  (MetricCall.amountsOf key labels (c.succeeded client calls)).sum

/-! ## One call -/

variable {client} {Holds : σ → List Metric → Prop} {c : Collector σ} {key : String}
  {labelNames : List String}

theorem Standard.perform (h : c.Standard Holds) (hclient : client.Documented Holds)
    (call : MetricCall) : (c.perform client call).1.Standard Holds := by
  cases call with
  | increment name amount labels => exact h.record hclient _ _ _ _
  | observe name amount labels => exact h.record hclient _ _ _ _
  | sample name labels => exact h
  | report format => exact h

theorem Standard.after (h : c.Standard Holds) (hclient : client.Documented Holds)
    (calls : List MetricCall) : (c.after client calls).Standard Holds := by
  induction calls generalizing c with
  | nil => exact h
  | cons call calls ih => exact ih (h.perform hclient call)

/-- A call to increment succeeds where the increment does. -/
theorem perform_increment_isOk (name : String) (n : Int) (labels : Labels) :
    (∃ answer, (c.perform client (.increment name n labels)).2 = .ok answer) ↔
      ∃ notices, (c.increment client name (.int n) labels).2 = .ok notices := by
  simp only [Collector.perform, Outcome.map_eq_ok, Outcome.mapError_eq_ok]
  constructor
  · rintro ⟨_, notices, hok, _⟩
    exact ⟨notices, hok⟩
  · rintro ⟨notices, hok⟩
    exact ⟨_, notices, hok, rfl⟩

/-- An increment of a counter succeeds where its labels name those of the counter and its amount is one
and not negative. -/
theorem Standard.perform_isOk (h : c.Standard Holds) (hclient : client.Documented Holds)
    (hc : (key, labelNames) ∈ counters) (n : Int) (labels : Labels) :
    (∃ answer, (c.perform client (.increment key n labels)).2 = .ok answer) ↔
      labels.map Prod.fst = labelNames ∧ 0 ≤ n ∧ ∃ y : α, Amount.ofNumber (.int n) = .ok y := by
  rw [perform_increment_isOk, h.increment_isOk hclient hc, Binary64.int_lt_zero, decide_eq_false_iff_not,
    Int.not_lt]

/-- What a call does to the sample of a counter: an increment that succeeds is added, and nothing else
changes the sample. -/
theorem Standard.value_perform (h : c.Standard Holds) (hclient : client.Documented Holds)
    (hc : (key, labelNames) ∈ counters) (labels : Labels) (call : MetricCall) :
    (c.perform client call).1.value client key labels =
      match call.amount? key labels, (c.perform client call).2 with
      | some n, .ok _ => Amount.plus (c.value client key labels) (.int n)
      | _, _ => c.value client key labels := by
  cases call with
  | sample name labels => rfl
  | report format => rfl
  | observe name n labels' => exact h.value_record hclient hc fun hkind => nomatch hkind
  | increment name n labels' =>
    split
    · rename_i n' answer hn hanswer
      obtain ⟨labels', heq, hsame⟩ := MetricCall.amount?_eq_some.mp hn
      cases heq
      have hnames := ((h.perform_isOk hclient hc n labels').mp ⟨answer, hanswer⟩).1
      have hlen : labels'.length ≤ 1 := by
        rw [← List.length_map Prod.fst, hnames]
        exact (c.isTally_of_counter hc).labels
      obtain rfl := (Labels.same_iff hlen).mp hsame
      exact h.value_increment hclient hc ((perform_increment_isOk ..).mp ⟨answer, hanswer⟩)
    · rename_i hnot
      refine h.value_record hclient hc fun _ hname hlabels hok => ?_
      obtain ⟨answer, hanswer⟩ := (perform_increment_isOk ..).mpr hok
      refine hnot n answer (MetricCall.amount?_eq_some.mpr ⟨labels', by rw [hname], ?_⟩) hanswer
      rw [hlabels]
      exact List.isPerm_iff.mpr (.refl _)

/-! ## Runs -/

/-- After calls, the sample of a counter shows what it showed before with the increments added that
succeeded. -/
theorem Standard.value_after (h : c.Standard Holds) (hclient : client.Documented Holds)
    (hc : (key, labelNames) ∈ counters) (labels : Labels) (calls : List MetricCall) :
    (c.after client calls).value client key labels =
      (MetricCall.amountsOf key labels (c.succeeded client calls)).foldl
        (fun x n => Amount.plus x (.int n)) (c.value client key labels) := by
  induction calls generalizing c with
  | nil => rfl
  | cons call calls ih =>
    have hafter : c.after client (call :: calls) = (c.perform client call).1.after client calls := rfl
    rw [hafter, ih (h.perform hclient call), h.value_perform hclient hc, succeeded, MetricCall.amountsOf,
      MetricCall.amountsOf]
    cases (c.perform client call).2 with
    | error e => cases call.amount? key labels <;> rfl
    | ok answer => cases hn : call.amount? key labels <;> simp [hn]

/-- Only increments by amounts that are not negative succeed. -/
theorem Standard.amounts_nonneg (h : c.Standard Holds) (hclient : client.Documented Holds)
    (hc : (key, labelNames) ∈ counters) (labels : Labels) (calls : List MetricCall) :
    ∀ n ∈ MetricCall.amountsOf key labels (c.succeeded client calls), 0 ≤ n := by
  induction calls generalizing c with
  | nil => simp [succeeded, MetricCall.amountsOf]
  | cons call calls ih =>
    have hrest := ih (h.perform hclient call)
    rw [succeeded]
    cases hanswer : (c.perform client call).2 with
    | error e => exact hrest
    | ok answer =>
      intro n hn
      obtain ⟨call', hcall, hamount⟩ := List.mem_filterMap.mp hn
      rcases List.mem_cons.mp hcall with heq | hcall
      · obtain ⟨labels', rfl, _⟩ := MetricCall.amount?_eq_some.mp hamount
        rw [← heq] at hanswer
        exact ((h.perform_isOk hclient hc n labels').mp ⟨answer, hanswer⟩).2.1
      · exact hrest n (List.mem_filterMap.mpr ⟨call', hcall, hamount⟩)

/-! ## Sums -/

theorem ofNumber_int (n : Int) : (Amount.ofNumber (.int n) : Except OutOfRange Rat) = .ok n := by
  rw [← Rat.mkRat_one n]
  rfl

theorem foldl_plus (x : Rat) (ns : List Int) :
    ns.foldl (fun x n => Amount.plus x (.int n)) x = x + (ns.sum : Int) := by
  induction ns generalizing x with
  | nil => simp
  | cons n ns ih =>
    have hplus : Amount.plus x (.int n) = x + n := by
      rw [Amount.plus, ofNumber_int]
      rfl
    rw [List.foldl_cons, ih, hplus, List.sum_cons, Int.cast_add, add_assoc]

/-- Whatever the calls on a fresh collector, the sample of a standard counter is the sum of the amounts of
the increments under its name and labels that succeeded. An increment succeeds where it names the
counter's labels and its amount is not negative; a call that fails or is no such increment leaves the
sample; and the sample never decreases. -/
theorem sample_is_sum_of_increments {client : MetricsClient σ Rat ε} {Holds : σ → List Metric → Prop}
    (hclient : client.Documented Holds) {namespaceName : String} {fresh : Collector σ}
    (hfresh : start client namespaceName = .ok fresh) {key : String} {labelNames : List String}
    (hc : (key, labelNames) ∈ counters) (labels : Labels) (calls : List MetricCall) :
    let c := fresh.after client calls
    (c.perform client (.sample key labels)).2 = .ok (.value (fresh.added client key labels calls)) ∧
      (∀ n, (∃ answer, (c.perform client (.increment key n labels)).2 = .ok answer) ↔
        labels.map Prod.fst = labelNames ∧ 0 ≤ n) ∧
      (∀ call, (∀ n, call.amount? key labels = some n → ∃ e, (c.perform client call).2 = .error e) →
        (c.perform client call).1.value client key labels = c.value client key labels) ∧
      ∀ more, c.value client key labels ≤ (c.after client more).value client key labels := by
  intro c
  have hstandard := (fresh_of_start hclient hfresh).1
  have hafter : c.Standard Holds := hstandard.after hclient calls
  refine ⟨?_, ?_, ?_, ?_⟩
  · have hzero : fresh.value client key labels = 0 := value_of_start hclient hfresh hc labels
    simp only [Collector.perform, c, hstandard.value_after hclient hc, hzero, foldl_plus, zero_add, added]
  · intro n
    rw [hafter.perform_isOk hclient hc n labels]
    simp [ofNumber_int]
  · intro call hcall
    rw [hafter.value_perform hclient hc]
    split
    · rename_i n answer hn hanswer
      obtain ⟨e, he⟩ := hcall n hn
      rw [hanswer] at he
      cases he
    · rfl
  · intro more
    have hnonneg := List.sum_nonneg (hafter.amounts_nonneg hclient hc labels more)
    rw [hafter.value_after hclient hc labels more, foldl_plus]
    exact le_add_of_nonneg_right (Int.cast_nonneg hnonneg)

/-- Two increments of the pruned tiles that count, among calls that fail and one that counts another
status. -/
def mixedCalls : List MetricCall := [
  .increment "tiles_total" 2 [("status", "pruned")],
  .increment "tiles_total" (-1) [("status", "pruned")],
  .increment "tiles_total" 5 [],
  .increment "tiles_total" 3 [("status", "failed")],
  .report "xml",
  .increment "tiles_total" 4 [("status", "pruned")]]

def exactClient : MetricsClient (Registry Rat) Rat MetricError := Registry.client fun _ => ""

theorem pruned_tiles_sample_is_sum : ∃ fresh, start exactClient defaultNamespace = .ok fresh ∧
    exactClient.Documented Registry.Holds ∧ ("tiles_total", ["status"]) ∈ counters ∧
      ((fresh.after exactClient mixedCalls).perform exactClient
        (.sample "tiles_total" [("status", "pruned")])).2 = .ok (.value 6) := by
  have hclient : exactClient.Documented Registry.Holds := Registry.client_documented _
  have hc : ("tiles_total", ["status"]) ∈ counters := by decide
  have hadded : (start exactClient defaultNamespace).map (fun fresh =>
      fresh.added exactClient "tiles_total" [("status", "pruned")] mixedCalls) = .ok 6 := by
    decide +kernel
  obtain ⟨fresh, hfresh, hadded⟩ := Outcome.map_eq_ok.mp hadded
  obtain ⟨hsample, _⟩ :=
    sample_is_sum_of_increments hclient hfresh hc [("status", "pruned")] mixedCalls
  rw [hadded] at hsample
  exact ⟨fresh, hfresh, hclient, hc, hsample⟩

end Collector

end StyledTiles
