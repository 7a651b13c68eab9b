import StyledTiles.Metrics.Registry
import StyledTiles.Proofs.Metrics.Client

/-!
# What a family shows

A series shows the sum of what was recorded in it. Naming labels brings a series that shows zero into being;
recording adds to the series that the labels name; every other series stays, and where a call fails all of
them do.

Labels are compared here for families with at most one label.
-/
namespace StyledTiles

variable {α : Type}

/-- At most one label is the same as others only in the same order. -/
theorem Labels.same_iff {a b : Labels} (hlen : a.length ≤ 1) : Labels.same a b = true ↔ b = a := by
  rw [Labels.same, List.isPerm_iff]
  match a, hlen with
  | [], _ => exact List.nil_perm
  | [label], _ => exact List.singleton_perm.trans eq_comm

/-- Labels are their names and their values. -/
theorem Labels.eq_of_names_values {a b : Labels} (hnames : a.map Prod.fst = b.map Prod.fst)
    (hvalues : a.map Prod.snd = b.map Prod.snd) : a = b := by
  rw [← List.zip_unzip a, ← List.zip_unzip b, List.unzip_fst, List.unzip_snd, List.unzip_fst,
    List.unzip_snd, hnames, hvalues]

/-- Label values under their names are the labels that have these names and values. -/
theorem Labels.same_zip {names values : List String} (hvalues : values.length = names.length)
    (hnames : names.length ≤ 1) (labels : Labels) :
    Labels.same (names.zip values) labels = true ↔
      labels.map Prod.fst = names ∧ values = labels.map Prod.snd := by
  have hfst : (names.zip values).map Prod.fst = names := List.map_fst_zip (Nat.le_of_eq hvalues.symm)
  have hsnd : (names.zip values).map Prod.snd = values := List.map_snd_zip (Nat.le_of_eq hvalues)
  have hzip : (names.zip values).length ≤ 1 := by rwa [← List.length_map Prod.fst, hfst]
  rw [Labels.same_iff hzip]
  constructor
  · rintro rfl
    exact ⟨hfst, hsnd.symm⟩
  · rintro ⟨hlabels, rfl⟩
    exact Labels.eq_of_names_values (hlabels.trans hfst.symm) hsnd.symm

/-- The sum of all that was recorded. -/
def Reading.sum : Reading α → α
  | .total sum => sum
  | .spread _ sum => sum

/-- The kind of the metrics that show readings like this. -/
def Reading.kind : Reading α → MetricKind
  | .total _ => .counter
  | .spread _ _ => .histogram

namespace Family

/-- The series with the given label values. -/
def series? (family : Family α) (values : List String) : Option (Series α) :=
  family.series.find? fun s => s.labelValues == values

/-- What a family shows under labels, if they name its labels and the series is there. -/
def shows? (family : Family α) (labels : Labels) : Option α :=
  if labels.map Prod.fst = family.labelNames then
    (family.series? (labels.map Prod.snd)).map fun s => s.reading.sum
  else none

/-- Series name as many values as the family has labels and show what its kind shows; a family without
labels has its series. -/
structure Sound (family : Family α) : Prop where
  labels : ∀ s ∈ family.series, s.labelValues.length = family.labelNames.length
  readings : ∀ s ∈ family.series, s.reading.kind = family.kind
  bare : family.labelNames = [] → family.hasSeries [] = true

variable {family : Family α} {values : List String}

theorem series?_isSome : (family.series? values).isSome = family.hasSeries values := by
  rw [series?, hasSeries, Bool.eq_iff_iff, List.find?_isSome, List.any_eq_true]

theorem series?_update (change : Reading α → Reading α) (other : List String) :
    (family.update values change).series? other = (family.series? other).map fun s =>
      if other = values then { s with reading := change s.reading } else s := by
  simp only [series?, update, List.find?_map]
  have hkeep : ((fun s : Series α => s.labelValues == other) ∘ fun s =>
      if s.labelValues = values then { s with reading := change s.reading } else s) =
      fun s => s.labelValues == other := by
    funext s
    simp only [Function.comp]
    split <;> rfl
  rw [hkeep]
  cases h : family.series.find? fun s => s.labelValues == other with
  | none => rfl
  | some s =>
    have hs : s.labelValues = other := by simpa using List.find?_some h
    simp [hs]

/-- Labels that select a series name exactly the labels of the family. -/
theorem valuesOf?_of_select {labels : Labels} (h : family.select labels = .ok values) :
    family.valuesOf? labels = some values := by
  unfold select at h
  split at h
  · rename_i hnames
    cases h
    simp [valuesOf?, hnames, List.isPerm]
  · cases h
  · split at h
    · cases h
    · split at h
      · cases h
      · split at h
        · rename_i hvalues
          cases h
          exact hvalues
        · cases h

/-- The values that labels name are as many as the family has labels. -/
theorem length_of_select {labels : Labels} (h : family.select labels = .ok values) :
    values.length = family.labelNames.length := by
  have hvalues := valuesOf?_of_select h
  rw [valuesOf?] at hvalues
  split at hvalues
  · cases hvalues
    rw [List.length_map]
  · cases hvalues

/-- Labels select the series with their values where they name the labels of the family. -/
theorem select_eq_ok (hlen : family.labelNames.length ≤ 1)
    (howner : ownerLabelName ∉ family.labelNames) {labels : Labels} :
    family.select labels = .ok values ↔
      labels.map Prod.fst = family.labelNames ∧ labels.map Prod.snd = values := by
  constructor
  · intro h
    have hvalues := valuesOf?_of_select h
    rw [valuesOf?] at hvalues
    split at hvalues
    · rename_i hperm
      rw [List.isPerm_iff] at hperm
      cases hvalues
      generalize family.labelNames = names at hlen hperm ⊢
      rcases names with _ | ⟨name, _ | _⟩
      · rw [List.map_eq_nil_iff.mp (List.perm_nil.mp hperm)]
        exact ⟨rfl, rfl⟩
      · obtain ⟨⟨name', value⟩, rfl, hname⟩ :=
          List.map_eq_singleton_iff.mp (List.perm_singleton.mp hperm)
        obtain rfl : name' = name := hname
        simp [List.lookup_cons]
      · simp at hlen
    · cases hvalues
  · rintro ⟨hnames, rfl⟩
    match labels, hnames with
    | [], hnames =>
      have hnone : family.labelNames = [] := hnames.symm
      simp [select, hnone]
    | [(name, value)], hnames =>
      have hone : family.labelNames = [name] := hnames.symm
      have hself : (ownerLabelName == name) = false := by simpa [hone] using howner
      simp [select, valuesOf?, hone, List.lookup_cons, hself, List.isPerm]
    | _ :: _ :: _, hnames =>
      rw [← hnames] at hlen
      simp at hlen

/-- Labels that select a series are the only ones under which this series is shown. -/
theorem eq_of_select (hlen : family.labelNames.length ≤ 1)
    (howner : ownerLabelName ∉ family.labelNames) {labels other : Labels}
    (hselect : family.select labels = .ok values)
    (hnames : other.map Prod.fst = family.labelNames) :
    other.map Prod.snd = values ↔ other = labels := by
  obtain ⟨hlabels, rfl⟩ := (select_eq_ok hlen howner).mp hselect
  constructor
  · exact Labels.eq_of_names_values (hnames.trans hlabels.symm)
  · rintro rfl
    rfl

theorem Sound.shows?_bare (h : family.Sound) (hnames : family.labelNames = []) :
    ∃ x, family.shows? [] = some x := by
  have hseries := h.bare hnames
  rw [← series?_isSome, Option.isSome_iff_exists] at hseries
  obtain ⟨s, hs⟩ := hseries
  refine ⟨s.reading.sum, ?_⟩
  rw [shows?, List.map_nil, List.map_nil, if_pos hnames.symm, hs, Option.map_some]

end Family

variable [Amount α]

theorem Reading.sum_fresh (kind : MetricKind) :
    (Reading.fresh kind : Reading α).sum = Amount.zero := by
  cases kind <;> rfl

theorem Reading.kind_fresh (kind : MetricKind) : (Reading.fresh kind : Reading α).kind = kind := by
  cases kind <;> rfl

theorem Reading.kind_record (amount : Number) (x : α) (reading : Reading α) :
    (reading.record amount x).kind = reading.kind := by
  cases reading <;> rfl

theorem Reading.sum_record (amount : Number) (x : α) (reading : Reading α) :
    (reading.record amount x).sum = Amount.add reading.sum x := by
  cases reading <;> rfl

namespace Family

variable {family : Family α} {values : List String}

/-! ## Calls -/

theorem touch_keeps (family : Family α) (values : List String) :
    (family.touch values).toMetric = family.toMetric := by
  rw [touch]
  split
  · rfl
  · rfl

/-- A series that comes into being shows zero. -/
theorem series?_touch (family : Family α) (values other : List String) :
    (family.touch values).series? other =
      if other = values then some ((family.series? values).getD ⟨values, .fresh family.kind⟩)
      else family.series? other := by
  rw [touch, ← series?_isSome]
  by_cases hother : other = values
  · subst hother
    rw [if_pos rfl]
    cases h : family.series? other with
    | some s => simp [h]
    | none =>
      rw [series?] at h
      simp [series?, List.find?_append, h]
  · rw [if_neg hother]
    split
    · rfl
    · simp [series?, List.find?_append, Ne.symm hother]

/-- A counter takes the amounts that are not negative. -/
theorem checkAmount_eq_ok (hkind : family.kind = .counter) {amount : Number} {x : α} :
    family.checkAmount amount = .ok x ↔
      amount.lt (.int 0) = false ∧ Amount.ofNumber amount = .ok x := by
  rw [checkAmount]
  cases hlt : amount.lt (.int 0) with
  | true => simp [hkind]
  | false => cases (Amount.ofNumber amount : Except OutOfRange α) <;> simp

theorem child_keeps (family : Family α) (labels : Labels) :
    (family.child labels).1.toMetric = family.toMetric := by
  rw [child]
  cases family.select labels with
  | error e => rfl
  | ok values => exact family.touch_keeps values

/-- Recording changes nothing of a family but its series. -/
theorem record_keeps (family : Family α) (labels : Labels) (amount : Number) :
    (family.record labels amount).1.toMetric = family.toMetric := by
  rw [record]
  cases family.select labels with
  | error e => rfl
  | ok values =>
    cases family.checkAmount amount with
    | error e => rfl
    | ok x => exact family.touch_keeps values

theorem child_isOk (labels : Labels) :
    (family.child labels).2 = .ok () ↔ ∃ values, family.select labels = .ok values := by
  rw [child]
  cases family.select labels <;> simp

/-- Recording succeeds where the labels name a series and the amount may be recorded. -/
theorem record_isOk (labels : Labels) (amount : Number) :
    (family.record labels amount).2 = .ok () ↔
      (∃ values, family.select labels = .ok values) ∧ ∃ x, family.checkAmount amount = .ok x := by
  rw [record]
  cases family.select labels with
  | error e => simp
  | ok values => cases family.checkAmount amount <;> simp

/-! ## What calls show -/

theorem shows?_fresh {m : Metric} {help : String} {labels : Labels} {x : α}
    (h : (fresh m help : Family α).shows? labels = some x) : x = Amount.zero := by
  rw [shows?, Option.ite_none_right_eq_some, Option.map_eq_some_iff] at h
  obtain ⟨_, s, hs, rfl⟩ := h
  have hmem : s ∈ (fresh m help : Family α).series := List.mem_of_find?_eq_some hs
  simp only [fresh] at hmem
  split at hmem
  · rw [List.mem_singleton.mp hmem]
    exact Reading.sum_fresh m.kind
  · cases hmem

section

variable (hlen : family.labelNames.length ≤ 1) (howner : ownerLabelName ∉ family.labelNames)
  {labels other : Labels} {amount : Number}
include hlen howner

/-- Naming the labels of a family has their series shown. -/
theorem shows?_child (hok : (family.child labels).2 = .ok ()) :
    (family.child labels).1.shows? labels = some ((family.shows? labels).getD Amount.zero) := by
  obtain ⟨values, hselect⟩ := (child_isOk labels).mp hok
  obtain ⟨hlabels, rfl⟩ := (select_eq_ok hlen howner).mp hselect
  have hkeeps := family.touch_keeps (labels.map Prod.snd)
  rw [child, hselect, shows?, shows?, if_pos hlabels, congrArg Metric.labelNames hkeeps, if_pos hlabels,
    series?_touch, if_pos rfl]
  cases family.series? (labels.map Prod.snd) with
  | some s => rfl
  | none => exact congrArg some (Reading.sum_fresh family.kind)

theorem shows?_child_keeps (h : other = labels → (family.child labels).2 ≠ .ok ()) :
    (family.child labels).1.shows? other = family.shows? other := by
  rw [child]
  cases hselect : family.select labels with
  | error e => rfl
  | ok values =>
    have hkeeps := family.touch_keeps values
    rw [shows?, shows?, congrArg Metric.labelNames hkeeps]
    refine ite_congr rfl (fun hnames => ?_) fun _ => rfl
    have hother : other.map Prod.snd ≠ values := fun hvalues =>
      h ((eq_of_select hlen howner hselect hnames).mp hvalues) ((child_isOk labels).mpr ⟨_, hselect⟩)
    rw [series?_touch, if_neg hother]

/-- Recording an amount that a counter takes adds it to what is shown. -/
theorem shows?_record (hkind : family.kind = .counter) {x y : α} (hshows : family.shows? labels = some x)
    (hamount : amount.lt (.int 0) = false) (hy : Amount.ofNumber amount = .ok y) :
    (family.record labels amount).2 = .ok () ∧
      (family.record labels amount).1.shows? labels = some (Amount.add x y) := by
  rw [shows?, Option.ite_none_right_eq_some, Option.map_eq_some_iff] at hshows
  obtain ⟨hlabels, s, hs, rfl⟩ := hshows
  have hselect := (select_eq_ok hlen howner).mpr ⟨hlabels, rfl⟩
  have hcheck := (checkAmount_eq_ok hkind).mpr ⟨hamount, hy⟩
  have hkeeps := family.record_keeps labels amount
  refine ⟨(record_isOk labels amount).mpr ⟨⟨_, hselect⟩, y, hcheck⟩, ?_⟩
  rw [shows?, congrArg Metric.labelNames hkeeps, if_pos hlabels, record, hselect]
  simp only [hcheck, series?_update, series?_touch, if_true, hs, Option.getD_some, Option.map_some,
    Reading.sum_record]

theorem shows?_record_keeps (h : other = labels → (family.record labels amount).2 ≠ .ok ()) :
    (family.record labels amount).1.shows? other = family.shows? other := by
  have hkeeps := family.record_keeps labels amount
  rw [shows?, shows?, congrArg Metric.labelNames hkeeps]
  refine ite_congr rfl (fun hnames => ?_) fun _ => rfl
  rw [record]
  cases hselect : family.select labels with
  | error e => rfl
  | ok values =>
    cases hcheck : family.checkAmount amount with
    | error e => rfl
    | ok y =>
      have hother : other.map Prod.snd ≠ values := fun hvalues =>
        h ((eq_of_select hlen howner hselect hnames).mp hvalues)
          ((record_isOk labels amount).mpr ⟨⟨_, hselect⟩, y, hcheck⟩)
      simp only [series?_update, series?_touch, hother, if_false, Option.map_id']

end

/-! ## Soundness -/

theorem sound_fresh (m : Metric) (help : String) : (fresh m help : Family α).Sound := by
  obtain ⟨kind, name, labelNames⟩ := m
  cases labelNames with
  | cons label rest => exact ⟨by simp [fresh], by simp [fresh], by simp [fresh]⟩
  | nil => exact ⟨by simp [fresh], by simp [fresh, Reading.kind_fresh], fun _ => rfl⟩

theorem Sound.touch (h : family.Sound) (hvalues : values.length = family.labelNames.length) :
    (family.touch values).Sound := by
  rw [Family.touch]
  split
  · exact h
  · constructor
    · intro s hs
      rcases List.mem_append.mp hs with hs | hs
      · exact h.labels s hs
      · rw [List.mem_singleton.mp hs]
        exact hvalues
    · intro s hs
      rcases List.mem_append.mp hs with hs | hs
      · exact h.readings s hs
      · rw [List.mem_singleton.mp hs]
        exact Reading.kind_fresh _
    · intro hnames
      have hbare := h.bare hnames
      rw [hasSeries] at hbare ⊢
      rw [List.any_append, hbare, Bool.true_or]

theorem Sound.update_record (h : family.Sound) (amount : Number) (x : α) :
    (family.update values (Reading.record amount x)).Sound := by
  constructor
  · intro s hs
    obtain ⟨s, hmem, rfl⟩ := List.mem_map.mp hs
    split
    · exact h.labels s hmem
    · exact h.labels s hmem
  · intro s hs
    obtain ⟨s, hmem, rfl⟩ := List.mem_map.mp hs
    split
    · exact (Reading.kind_record amount x s.reading).trans (h.readings s hmem)
    · exact h.readings s hmem
  · intro hnames
    have hbare := h.bare hnames
    rw [← series?_isSome] at hbare ⊢
    rw [series?_update, Option.isSome_map, hbare]

theorem Sound.child (h : family.Sound) (labels : Labels) : (family.child labels).1.Sound := by
  rw [Family.child]
  cases hselect : family.select labels with
  | error e => exact h
  | ok values => exact h.touch (length_of_select hselect)

theorem Sound.record (h : family.Sound) (labels : Labels) (amount : Number) :
    (family.record labels amount).1.Sound := by
  rw [Family.record]
  cases hselect : family.select labels with
  | error e => exact h
  | ok values =>
    cases hcheck : family.checkAmount amount with
    | error e => simpa [hcheck] using h
    | ok x => simpa [hcheck] using (h.touch (length_of_select hselect)).update_record amount x

end Family

end StyledTiles
