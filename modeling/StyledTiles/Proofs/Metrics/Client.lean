import StyledTiles.Metrics.Client

/-!
# What a metrics client is documented to do

The laws are about tallies: counters with at most one label, whose names end as those of their samples do.
What a tally shows under labels is its sample under its own name. Each law is about one operation of the
client. A child comes into being showing zero; a counter adds the amounts that are not negative; what is
not named stays as it is.

Which metrics a registry holds is a relation that comes with the client. Nothing is assumed of histograms
but that recording in them disturbs no tally, nor of how a registry is built or reported.
-/
namespace StyledTiles

/-- A counter whose samples bear its own name, with at most one label. -/
structure Metric.IsTally (m : Metric) : Prop where
  kind : m.kind = .counter
  ending : ∃ stem, m.name = stem ++ "_total"
  labels : m.labelNames.length ≤ 1
  owner : ownerLabelName ∉ m.labelNames

namespace MetricsClient

variable {σ α ε : Type} (client : MetricsClient σ α ε)

/-- What a metric shows under labels. -/
def shows? (s : σ) (m : Metric) (labels : Labels) : Option α := client.sample? s m.name labels

/-- The documented behaviour of a client, one step at a time. -/
structure Documented [Amount α] (Holds : σ → List Metric → Prop) : Prop where
  empty : Holds client.empty []
  register {s s' : σ} {ms : List Metric} {m : Metric} {help : String} :
    Holds s ms → client.register s m help = .ok s' → Holds s' (m :: ms)
  /-- A fresh tally shows zero if anything. -/
  register_shows {s s' : σ} {ms : List Metric} {m : Metric} {help : String} :
    Holds s ms → client.register s m help = .ok s' → m.IsTally →
    ∀ labels x, client.shows? s' m labels = some x → x = Amount.zero
  register_keeps {s s' : σ} {ms : List Metric} {m : Metric} {help : String} :
    Holds s ms → client.register s m help = .ok s' → ∀ t ∈ ms, t.IsTally →
    ∀ labels, client.shows? s' t labels = client.shows? s t labels
  /-- A tally without labels shows an amount from the start. -/
  bare {s : σ} {ms : List Metric} {m : Metric} :
    Holds s ms → m ∈ ms → m.IsTally → m.labelNames = [] → ∃ x, client.shows? s m [] = some x
  child {s : σ} {ms : List Metric} {m : Metric} (labels : Labels) :
    Holds s ms → m ∈ ms → Holds (client.child s m labels).1 ms
  /-- A child is named by exactly the labels of the metric. -/
  child_isOk {s : σ} {ms : List Metric} {m : Metric} {labels : Labels} :
    Holds s ms → m ∈ ms → m.IsTally → labels ≠ [] →
    ((client.child s m labels).2 = .ok () ↔ labels.map Prod.fst = m.labelNames)
  /-- A child that is named for the first time shows zero. -/
  child_shows {s : σ} {ms : List Metric} {m : Metric} {labels : Labels} :
    Holds s ms → m ∈ ms → m.IsTally → (client.child s m labels).2 = .ok () →
    client.shows? (client.child s m labels).1 m labels =
      some ((client.shows? s m labels).getD Amount.zero)
  child_keeps {s : σ} {ms : List Metric} {m t : Metric} {labels other : Labels} :
    Holds s ms → m ∈ ms → t ∈ ms → t.IsTally →
    (t = m → other = labels → (client.child s m labels).2 ≠ .ok ()) →
    client.shows? (client.child s m labels).1 t other = client.shows? s t other
  record {s : σ} {ms : List Metric} {m : Metric} (labels : Labels) (amount : Number) :
    Holds s ms → m ∈ ms → Holds (client.record s m labels amount).1 ms
  /-- An amount that is not negative is added to what is shown. -/
  record_adds {s : σ} {ms : List Metric} {m : Metric} {labels : Labels} {amount : Number} {x y : α} :
    Holds s ms → m ∈ ms → m.IsTally → client.shows? s m labels = some x →
    amount.lt (.int 0) = false → Amount.ofNumber amount = .ok y →
    (client.record s m labels amount).2 = .ok () ∧
      client.shows? (client.record s m labels amount).1 m labels = some (Amount.add x y)
  /-- A counter takes no negative amount, and nothing that is no amount. -/
  record_refuses {s : σ} {ms : List Metric} {m : Metric} {labels : Labels} {amount : Number} :
    Holds s ms → m ∈ ms → m.IsTally → (client.record s m labels amount).2 = .ok () →
    amount.lt (.int 0) = false ∧ ∃ y : α, Amount.ofNumber amount = .ok y
  /-- A metric with labels is not counted in without them. -/
  record_bare {s : σ} {ms : List Metric} {m : Metric} {amount : Number} :
    Holds s ms → m ∈ ms → m.IsTally → m.labelNames ≠ [] →
    (client.record s m [] amount).2 ≠ .ok ()
  record_keeps {s : σ} {ms : List Metric} {m t : Metric} {labels other : Labels} {amount : Number} :
    Holds s ms → m ∈ ms → t ∈ ms → t.IsTally →
    (t = m → other = labels → (client.record s m labels amount).2 ≠ .ok ()) →
    client.shows? (client.record s m labels amount).1 t other = client.shows? s t other

/-- The total of a metric under labels, which is zero where nothing is shown. -/
def total [Amount α] (s : σ) (m : Metric) (labels : Labels) : α :=
  (client.shows? s m labels).getD Amount.zero

end MetricsClient

/-- A total with an amount added to it, if it is one. -/
def Amount.plus {α : Type} [Amount α] (x : α) (amount : Number) : α :=
  match (Amount.ofNumber amount : Except OutOfRange α) with
  | .ok y => Amount.add x y
  | .error _ => x

namespace MetricsClient.Documented

variable {σ α ε : Type} [Amount α] {client : MetricsClient σ α ε} {Holds : σ → List Metric → Prop}
  {s : σ} {ms : List Metric} {m : Metric} {labels : Labels} {amount : Number}

/-! ## Recording under labels -/

theorem recordUnder (h : client.Documented Holds) (hs : Holds s ms) (hm : m ∈ ms) (labels : Labels)
    (amount : Number) : Holds (client.recordUnder s m labels amount).1 ms := by
  rw [MetricsClient.recordUnder]
  split
  · exact h.record [] amount hs hm
  · have hchild := h.child labels hs hm
    split
    · rename_i heq
      rwa [heq] at hchild
    · rename_i heq
      rw [heq] at hchild
      exact h.record labels amount hchild hm

/-- Recording under labels: naming the child fails and nothing is recorded, or what is recorded in is shown
and the total has stayed. -/
theorem recordUnder_cases (h : client.Documented Holds) (hs : Holds s ms) (hm : m ∈ ms)
    (htally : m.IsTally) (labels : Labels) (amount : Number) :
    labels.map Prod.fst ≠ m.labelNames ∧ (client.recordUnder s m labels amount).2 ≠ .ok () ∨
      labels.map Prod.fst = m.labelNames ∧ ∃ s' x, Holds s' ms ∧ client.shows? s' m labels = some x ∧
        x = client.total s m labels ∧
        client.recordUnder s m labels amount = client.record s' m labels amount := by
  cases hlabels : labels with
  | nil =>
    have hrecord : client.recordUnder s m [] amount = client.record s m [] amount := rfl
    by_cases hnames : m.labelNames = []
    · obtain ⟨x, hx⟩ := h.bare hs hm htally hnames
      refine .inr ⟨hnames.symm, s, x, hs, hx, ?_, hrecord⟩
      rw [total, hx, Option.getD_some]
    · exact .inl ⟨Ne.symm hnames, hrecord ▸ h.record_bare hs hm htally hnames⟩
  | cons label rest =>
    rw [← hlabels]
    have hne : labels ≠ [] := by rw [hlabels]; exact List.cons_ne_nil _ _
    have hisEmpty : labels.isEmpty = false := by rw [hlabels]; rfl
    have hisOk := h.child_isOk hs hm htally hne
    have hshows : (client.child s m labels).2 = .ok () → _ := h.child_shows hs hm htally
    have hchild := h.child labels hs hm
    rw [MetricsClient.recordUnder, hisEmpty]
    generalize client.child s m labels = named at hisOk hshows hchild ⊢
    obtain ⟨s', result⟩ := named
    cases result with
    | error e =>
      refine .inl ⟨?_, ?_⟩
      · intro hnames
        cases hisOk.mpr hnames
      · intro hok
        cases hok
    | ok _ => exact .inr ⟨hisOk.mp rfl, s', _, hchild, hshows rfl, rfl, rfl⟩

theorem recordUnder_isOk (h : client.Documented Holds) (hs : Holds s ms) (hm : m ∈ ms)
    (htally : m.IsTally) :
    (client.recordUnder s m labels amount).2 = .ok () ↔
      labels.map Prod.fst = m.labelNames ∧ amount.lt (.int 0) = false ∧
        ∃ y : α, Amount.ofNumber amount = .ok y := by
  rcases h.recordUnder_cases hs hm htally labels amount with
    ⟨hnames, hfails⟩ | ⟨hnames, s', x, hs', hx, _, hrecord⟩
  · exact ⟨fun hok => absurd hok hfails, fun hok => absurd hok.1 hnames⟩
  · rw [hrecord]
    constructor
    · exact fun hok => ⟨hnames, h.record_refuses hs' hm htally hok⟩
    · rintro ⟨_, hamount, y, hy⟩
      exact (h.record_adds hs' hm htally hx hamount hy).1

theorem recordUnder_adds (h : client.Documented Holds) (hs : Holds s ms) (hm : m ∈ ms)
    (htally : m.IsTally) (hok : (client.recordUnder s m labels amount).2 = .ok ()) :
    client.total (client.recordUnder s m labels amount).1 m labels =
      Amount.plus (client.total s m labels) amount := by
  rcases h.recordUnder_cases hs hm htally labels amount with
    ⟨_, hfails⟩ | ⟨_, s', x, hs', hx, htotal, hrecord⟩
  · exact absurd hok hfails
  · rw [hrecord] at hok ⊢
    obtain ⟨hamount, y, hy⟩ := h.record_refuses hs' hm htally hok
    rw [total, (h.record_adds hs' hm htally hx hamount hy).2, Option.getD_some, Amount.plus, hy, htotal]

/-- Where recording fails, and of anything else, the total stays: a child that came into being shows zero,
as a missing one counts. -/
theorem recordUnder_keeps (h : client.Documented Holds) (hs : Holds s ms) (hm : m ∈ ms) {t : Metric}
    (ht : t ∈ ms) (htally : t.IsTally) {other : Labels}
    (hkeeps : t = m → other = labels → (client.recordUnder s m labels amount).2 ≠ .ok ()) :
    client.total (client.recordUnder s m labels amount).1 t other = client.total s t other := by
  rw [MetricsClient.recordUnder] at hkeeps ⊢
  split at hkeeps
  · rename_i hempty
    obtain rfl := List.isEmpty_iff.mp hempty
    rw [if_pos hempty, total, total, h.record_keeps hs hm ht htally hkeeps]
  · rename_i hempty
    rw [if_neg hempty]
    have hnamed : client.total (client.child s m labels).1 t other = client.total s t other := by
      by_cases hsame : t = m ∧ other = labels ∧ (client.child s m labels).2 = .ok ()
      · obtain ⟨rfl, rfl, hok⟩ := hsame
        rw [total, h.child_shows hs hm htally hok, Option.getD_some, total]
      · have hstays : client.shows? (client.child s m labels).1 t other = client.shows? s t other :=
          h.child_keeps hs hm ht htally fun htm hlabels hok => hsame ⟨htm, hlabels, hok⟩
        rw [total, hstays, total]
    have hchild := h.child labels hs hm
    generalize client.child s m labels = named at hkeeps hnamed hchild ⊢
    obtain ⟨s', result⟩ := named
    cases result with
    | error e => exact hnamed
    | ok _ =>
      rw [← hnamed]
      exact congrArg (Option.getD · Amount.zero) (h.record_keeps hchild hm ht htally hkeeps)

end MetricsClient.Documented

end StyledTiles
