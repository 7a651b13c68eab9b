import Mathlib.Data.List.Pairwise
import StyledTiles.Proofs.Metrics.Family
import StyledTiles.Proofs.Outcome

/-!
# The registry as a client

A registry holds the metrics of its families, which are sound and whose sample names are apart. A call on a
metric changes its family and no other, so the sample of a tally is what its family shows; with that the
registry is a client as documented.
-/
namespace StyledTiles

variable {α : Type} [Amount α]

/-! ## Samples -/

/-- The samples of a tally bear its name. -/
theorem Metric.IsTally.stem_append {m : Metric} (h : m.IsTally) : m.stem ++ "_total" = m.name := by
  obtain ⟨stem, hname⟩ := h.ending
  have hsuffix : "_total".toList.isSuffixOf m.name.toList = true := by
    rw [hname, String.toList_append]
    exact List.isSuffixOf_iff_suffix.mpr (List.suffix_append ..)
  rw [Metric.stem, h.kind]
  simp only [MetricKind.stem, hsuffix, if_true]
  rw [hname, String.toList_append, List.length_append]
  simp

theorem Metric.IsTally.name_mem {m : Metric} (h : m.IsTally) : m.name ∈ m.sampleNames := by
  rw [Metric.sampleNames, h.kind, ← h.stem_append]
  simp

namespace Family

variable {family : Family α}

/-- A series of a tally shows one sample, its total. -/
theorem seriesSamples_tally (htally : family.toMetric.IsTally) {s : Series α}
    (hkind : s.reading.kind = family.kind) :
    ∃ sum, s.reading = .total sum ∧
      family.seriesSamples s = [⟨family.name, family.labelNames.zip s.labelValues, sum⟩] := by
  cases hreading : s.reading with
  | total sum =>
    refine ⟨sum, rfl, ?_⟩
    rw [seriesSamples, hreading, ← htally.stem_append]
  | spread counts sum =>
    rw [hreading, htally.kind] at hkind
    cases hkind

theorem Sound.find?_samples (h : family.Sound) (htally : family.toMetric.IsTally) (labels : Labels) :
    (family.samples.find? fun s => s.name == family.name && s.labels.same labels).map Sample.value =
      family.shows? labels := by
  have hlabels := h.labels
  have hreadings := h.readings
  rw [samples, shows?, series?]
  generalize family.series = series at hlabels hreadings
  induction series with
  | nil => simp
  | cons s series ih =>
    rw [List.forall_mem_cons] at hlabels hreadings
    obtain ⟨sum, hsum, hsample⟩ := seriesSamples_tally htally hreadings.1
    have hsame : Labels.same (family.labelNames.zip s.labelValues) labels =
        decide (labels.map Prod.fst = family.labelNames ∧ s.labelValues = labels.map Prod.snd) := by
      rw [Bool.eq_iff_iff, Labels.same_zip hlabels.1 htally.labels, decide_eq_true_iff]
    rw [List.flatMap_cons, hsample, List.singleton_append, List.find?_cons, List.find?_cons]
    simp only [BEq.rfl, Bool.true_and, hsame]
    have ih := ih hlabels.2 hreadings.2
    by_cases hnames : labels.map Prod.fst = family.labelNames
    · by_cases hvalues : s.labelValues = labels.map Prod.snd
      · simp [hnames, hvalues, hsum, Reading.sum]
      · have hother : (s.labelValues == labels.map Prod.snd) = false := by simpa using hvalues
        simpa [hnames, hvalues, hother] using ih
    · simpa [hnames] using ih

theorem Sound.name_mem (h : family.Sound) {s : Sample α} (hs : s ∈ family.samples) :
    s.name ∈ family.sampleNames := by
  obtain ⟨series, hseries, hs⟩ := List.mem_flatMap.mp hs
  have hkind := h.readings series hseries
  rw [seriesSamples] at hs
  rw [Metric.sampleNames, ← hkind]
  cases hreading : series.reading with
  | total sum =>
    rw [hreading] at hs
    obtain rfl := List.mem_singleton.mp hs
    simp [Reading.kind]
  | spread counts sum =>
    rw [hreading] at hs
    rcases List.mem_append.mp hs with hs | hs
    · obtain ⟨_, _, rfl⟩ := List.mem_map.mp hs
      simp [Reading.kind]
    · simp only [List.mem_cons, List.not_mem_nil, or_false] at hs
      rcases hs with rfl | rfl
      · simp [Reading.kind]
      · simp [Reading.kind]

end Family

/-- Where one member alone has an image, that image is found. -/
theorem findSome?_of_alone {β γ : Type} {f : β → Option γ} {xs : List β} {x : β} (hx : x ∈ xs)
    (halone : ∀ y ∈ xs, y ≠ x → f y = none) : xs.findSome? f = f x := by
  induction xs with
  | nil => cases hx
  | cons y ys ih =>
    rw [List.forall_mem_cons] at halone
    rw [List.findSome?_cons]
    by_cases hyx : y = x
    · subst hyx
      cases hy : f y with
      | some c => rfl
      | none =>
        refine List.findSome?_eq_none_iff.mpr fun z hz => ?_
        by_cases hzy : z = y
        · rw [hzy, hy]
        · exact halone.2 z hz hzy
    · rw [halone.1 hyx]
      rcases List.mem_cons.mp hx with rfl | hx
      · exact absurd rfl hyx
      · exact ih hx halone.2

namespace Registry

/-- The registry has a sound family for each metric, and the names of its families' samples are apart. -/
structure Holds (r : Registry α) (ms : List Metric) : Prop where
  metrics : r.families.map Family.toMetric = ms.reverse
  sound : ∀ family ∈ r.families, family.Sound
  apart : ms.Pairwise fun a b => a.sampleNames.Disjoint b.sampleNames

variable {r : Registry α} {ms : List Metric}

omit [Amount α] in
/-- The metrics that are held are those of the families. -/
theorem Holds.exists_family (h : r.Holds ms) {m : Metric} (hm : m ∈ ms) :
    ∃ family ∈ r.families, family.toMetric = m := by
  rw [← List.mem_map, h.metrics]
  exact List.mem_reverse.mpr hm

/-- The sample of a tally is what its family shows: no other family has samples of that name. -/
theorem Holds.sample?_eq (h : r.Holds ms) {family : Family α} (hfamily : family ∈ r.families)
    (htally : family.toMetric.IsTally) (labels : Labels) :
    r.sample? family.name labels = family.shows? labels := by
  have hapart : (r.families.map Family.toMetric).Pairwise fun a b =>
      a.sampleNames.Disjoint b.sampleNames := by
    rw [h.metrics, List.pairwise_reverse]
    exact h.apart.imp List.disjoint_symm
  rw [List.pairwise_map] at hapart
  have : Std.Symm fun a b : Family α => a.sampleNames.Disjoint b.sampleNames :=
    ⟨fun _ _ => List.disjoint_symm⟩
  have halone : ∀ other ∈ r.families, other ≠ family → other.samples.find? (fun s =>
      s.name == family.name && s.labels.same labels) = none := by
    intro other hother hne
    rw [List.find?_eq_none]
    intro s hs hmatch
    rw [Bool.and_eq_true, beq_iff_eq] at hmatch
    have hname := (h.sound other hother).name_mem hs
    rw [hmatch.1] at hname
    exact hapart.forall hother hfamily hne hname htally.name_mem
  rw [sample?, samples, List.find?_flatMap, findSome?_of_alone hfamily halone]
  exact (h.sound family hfamily).find?_samples htally labels

omit [Amount α] in
/-- A call on a metric changes its family, the first one, and leaves the others. -/
theorem change_cases (m : Metric) (f : Family α → Family α × Except MetricError Unit)
    {families : List (Family α)} (hm : ∃ family ∈ families, family.toMetric = m) :
    ∃ front family back, families = front ++ family :: back ∧ family.toMetric = m ∧
      change m f families = (front ++ (f family).1 :: back, (f family).2) := by
  induction families with
  | nil =>
    obtain ⟨_, hnil, _⟩ := hm
    cases hnil
  | cons family rest ih =>
    rw [change]
    by_cases hfirst : family.toMetric = m
    · exact ⟨[], family, rest, rfl, hfirst, by rw [if_pos hfirst, List.nil_append]⟩
    · obtain ⟨found, hmem, hfound⟩ := hm
      have hrest : found ∈ rest := by
        rcases List.mem_cons.mp hmem with rfl | hrest
        · exact absurd hfound hfirst
        · exact hrest
      obtain ⟨front, family', back, rfl, hfamily, heq⟩ := ih ⟨found, hrest, hfound⟩
      exact ⟨family :: front, family', back, rfl, hfamily, by rw [if_neg hfirst, heq, List.cons_append]⟩

/-- What a call on a metric does, if it keeps the metric and the family sound: it answers as the family
does, and of the tallies only that metric may show anything else. -/
theorem Holds.change (h : r.Holds ms) {m : Metric} (hm : m ∈ ms)
    {f : Family α → Family α × Except MetricError Unit}
    (hkeeps : ∀ family, (f family).1.toMetric = family.toMetric)
    (hsound : ∀ family : Family α, family.Sound → (f family).1.Sound) :
    Holds ⟨(change m f r.families).1⟩ ms ∧ ∃ family ∈ r.families, family.toMetric = m ∧
      (Registry.change m f r.families).2 = (f family).2 ∧
      ∀ t ∈ ms, t.IsTally → ∀ labels,
        sample? ⟨(Registry.change m f r.families).1⟩ t.name labels =
          if t = m then (f family).1.shows? labels else r.sample? t.name labels := by
  obtain ⟨front, family, back, hfamilies, hfamily, heq⟩ := change_cases m f (h.exists_family hm)
  rw [heq]
  have hsounds := h.sound
  have hmetrics := h.metrics
  rw [hfamilies] at hsounds hmetrics
  have hafter : Holds ⟨front ++ (f family).1 :: back⟩ ms := by
    refine ⟨?_, ?_, h.apart⟩
    · simpa [hkeeps] using hmetrics
    · intro other hother
      rcases List.mem_append.mp hother with hother | hother
      · exact hsounds other (List.mem_append_left _ hother)
      · rcases List.mem_cons.mp hother with rfl | hother
        · exact hsound family (hsounds family (by simp))
        · exact hsounds other (by simp [hother])
  refine ⟨hafter, family, by simp [hfamilies], hfamily, rfl, ?_⟩
  intro t ht htally labels
  by_cases hsame : t = m
  · subst hsame
    have hname : (f family).1.toMetric = t := (hkeeps family).trans hfamily
    rw [if_pos rfl, ← hname]
    exact hafter.sample?_eq (by simp) (hname ▸ htally) labels
  · rw [if_neg hsame]
    obtain ⟨other, hother, rfl⟩ := h.exists_family ht
    have hstays : other ∈ front ++ (f family).1 :: back := by
      rw [hfamilies] at hother
      rcases List.mem_append.mp hother with hother | hother
      · exact List.mem_append_left _ hother
      · rcases List.mem_cons.mp hother with rfl | hother
        · exact absurd hfamily hsame
        · exact List.mem_append_right _ (List.mem_cons_of_mem _ hother)
    rw [h.sample?_eq hother htally]
    exact hafter.sample?_eq hstays htally labels

theorem Holds.child (h : r.Holds ms) {m : Metric} (hm : m ∈ ms) (labels : Labels) :
    (r.child m labels).1.Holds ms ∧ ∃ family ∈ r.families, family.toMetric = m ∧
      (r.child m labels).2 = (family.child labels).2 ∧
      ∀ t ∈ ms, t.IsTally → ∀ other, (r.child m labels).1.sample? t.name other =
        if t = m then (family.child labels).1.shows? other else r.sample? t.name other :=
  h.change hm (Family.child_keeps · labels) fun _ hsound => hsound.child labels

theorem Holds.record (h : r.Holds ms) {m : Metric} (hm : m ∈ ms) (labels : Labels) (amount : Number) :
    (r.record m labels amount).1.Holds ms ∧ ∃ family ∈ r.families, family.toMetric = m ∧
      (r.record m labels amount).2 = (family.record labels amount).2 ∧
      ∀ t ∈ ms, t.IsTally → ∀ other, (r.record m labels amount).1.sample? t.name other =
        if t = m then (family.record labels amount).1.shows? other else r.sample? t.name other :=
  h.change hm (Family.record_keeps · labels amount) fun _ hsound => hsound.record labels amount

/-! ## The laws -/

/-- Registering appends a fresh family, with sample names that no other has. -/
theorem register_eq_ok {m : Metric} {help : String} {r' : Registry α} (h : r.register m help = .ok r') :
    r' = ⟨r.families ++ [.fresh m help]⟩ ∧
      ∀ family ∈ r.families, m.sampleNames.Disjoint family.sampleNames := by
  rw [register, Outcome.bind_eq_ok] at h
  obtain ⟨_, _, h⟩ := h
  split at h
  · cases h
  · dsimp only at h
    split at h
    · rename_i hfilter
      cases h
      refine ⟨rfl, fun family hfamily name hname htaken => ?_⟩
      refine List.filter_eq_nil_iff.mp hfilter name hname ?_
      rw [List.contains_iff_mem]
      exact List.mem_flatMap.mpr ⟨family, hfamily, htaken⟩
    · cases h

theorem Holds.register (h : r.Holds ms) {m : Metric} {help : String} {r' : Registry α}
    (hr' : r.register m help = .ok r') : r'.Holds (m :: ms) := by
  obtain ⟨rfl, hdisjoint⟩ := register_eq_ok hr'
  refine ⟨?_, ?_, List.pairwise_cons.mpr ⟨?_, h.apart⟩⟩
  · rw [List.map_append, h.metrics, List.reverse_cons]
    rfl
  · intro family hfamily
    rcases List.mem_append.mp hfamily with hfamily | hfamily
    · exact h.sound family hfamily
    · rw [List.mem_singleton.mp hfamily]
      exact Family.sound_fresh m help
  · intro other hother
    obtain ⟨family, hfamily, rfl⟩ := h.exists_family hother
    exact hdisjoint family hfamily

/-- The registry does what a client is documented to do. -/
theorem client_documented (text : Registry α → String) : (client text).Documented Holds where
  empty := ⟨rfl, by simp [client], .nil⟩
  register h hr' := h.register hr'
  register_shows := by
    intro r r' ms m help h hr' htally labels x hx
    have hafter := h.register hr'
    obtain ⟨rfl, _⟩ := register_eq_ok hr'
    have hmem : Family.fresh m help ∈ r.families ++ [.fresh m help] := by simp
    have hshows := hafter.sample?_eq hmem htally labels
    exact Family.shows?_fresh (hshows.symm.trans hx)
  register_keeps := by
    intro r r' ms m help h hr' t ht htally labels
    have hafter := h.register hr'
    obtain ⟨rfl, _⟩ := register_eq_ok hr'
    obtain ⟨family, hfamily, rfl⟩ := h.exists_family ht
    exact (hafter.sample?_eq (List.mem_append_left _ hfamily) htally labels).trans
      (h.sample?_eq hfamily htally labels).symm
  bare := by
    intro r ms m h hm htally hnames
    obtain ⟨family, hfamily, rfl⟩ := h.exists_family hm
    obtain ⟨x, hx⟩ := (h.sound family hfamily).shows?_bare hnames
    exact ⟨x, (h.sample?_eq hfamily htally []).trans hx⟩
  child labels h hm := (h.child hm labels).1
  child_isOk := by
    intro r ms m labels h hm htally hne
    obtain ⟨_, family, _, rfl, hresult, _⟩ := h.child hm labels
    have hisOk : (family.child labels).2 = .ok () ↔ _ := Family.child_isOk labels
    simp only [Family.select_eq_ok htally.labels htally.owner, exists_and_left, exists_eq', and_true]
      at hisOk
    exact (iff_of_eq (congrArg (· = .ok ()) hresult)).trans hisOk
  child_shows := by
    intro r ms m labels h hm htally hok
    obtain ⟨_, family, hfamily, rfl, hresult, hshows⟩ := h.child hm labels
    have hchild := Family.shows?_child htally.labels htally.owner (hresult.symm.trans hok)
    rw [← h.sample?_eq hfamily htally labels] at hchild
    exact (hshows _ hm htally labels).trans ((if_pos rfl).trans hchild)
  child_keeps := by
    intro r ms m t labels other h hm ht htally hkeeps
    obtain ⟨_, family, hfamily, rfl, hresult, hshows⟩ := h.child hm labels
    refine (hshows t ht htally other).trans ?_
    split
    · rename_i hsame
      subst hsame
      rw [Family.shows?_child_keeps htally.labels htally.owner]
      · exact (h.sample?_eq hfamily htally other).symm
      · exact fun hlabels hok => hkeeps rfl hlabels (hresult.trans hok)
    · rfl
  record labels amount h hm := (h.record hm labels amount).1
  record_adds := by
    intro r ms m labels amount x y h hm htally hx hamount hy
    obtain ⟨_, family, hfamily, rfl, hresult, hshows⟩ := h.record hm labels amount
    have hbefore : family.shows? labels = some x := (h.sample?_eq hfamily htally labels).symm.trans hx
    obtain ⟨hok, hadds⟩ :=
      Family.shows?_record htally.labels htally.owner htally.kind hbefore hamount hy
    exact ⟨hresult.trans hok, (hshows _ hm htally labels).trans ((if_pos rfl).trans hadds)⟩
  record_refuses := by
    intro r ms m labels amount h hm htally hok
    obtain ⟨_, family, _, rfl, hresult, _⟩ := h.record hm labels amount
    obtain ⟨_, y, hy⟩ := (Family.record_isOk labels amount).mp (hresult.symm.trans hok)
    obtain ⟨hamount, hy⟩ := (Family.checkAmount_eq_ok htally.kind).mp hy
    exact ⟨hamount, y, hy⟩
  record_bare := by
    intro r ms m amount h hm htally hnames hok
    obtain ⟨_, family, _, rfl, hresult, _⟩ := h.record hm [] amount
    obtain ⟨⟨values, hselect⟩, _⟩ := (Family.record_isOk [] amount).mp (hresult.symm.trans hok)
    exact hnames ((Family.select_eq_ok htally.labels htally.owner).mp hselect).1.symm
  record_keeps := by
    intro r ms m t labels other amount h hm ht htally hkeeps
    obtain ⟨_, family, hfamily, rfl, hresult, hshows⟩ := h.record hm labels amount
    refine (hshows t ht htally other).trans ?_
    split
    · rename_i hsame
      subst hsame
      rw [Family.shows?_record_keeps htally.labels htally.owner]
      · exact (h.sample?_eq hfamily htally other).symm
      · exact fun hlabels hok => hkeeps rfl hlabels (hresult.trans hok)
    · rfl

end Registry

end StyledTiles
