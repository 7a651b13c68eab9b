import Mathlib.Data.List.Forall2
import StyledTiles.Proofs.Filter.Degraded
import StyledTiles.Proofs.Style.Deciding
import StyledTiles.Proofs.Style.Loading

/-!
# Degraded styles

A style document is degraded when the filters of some of its entries are. What else an entry holds is
the same, and an entry without a filter stays without one. The degraded document loads where the first
one does; its layers are those of the first but for their filters, so the same of them are drawn. About
a feature the two styles decide alike, or the degraded one cannot tell.

Both decisions have to be there to be compared: a layer that settled the first may leave the degraded
style to ask others, and one of those may meet a number out of range.
-/
namespace StyledTiles

open Outcome

/-! ## Documents -/

namespace Json

/-- The filter of an entry is the same, or it is one before and after and was degraded. -/
def OwnFilterDegraded (j k : Json) : Prop :=
  k = j ∨ ¬ j.NoFilter ∧ ¬ k.NoFilter ∧ FilterDegraded j k

/-- Entries that differ at most in their filters. -/
inductive EntryDegraded : Json → Json → Prop
  | same (j : Json) : EntryDegraded j j
  | filter {ms ns : Members} (rest : ∀ key, key ≠ "filter" → member ns key = member ms key)
      (own : OwnFilterDegraded (member ms "filter") (member ns "filter")) :
      EntryDegraded (.obj ms) (.obj ns)

/-- Style documents that differ at most in the filters of their entries. -/
inductive StyleDegraded : Json → Json → Prop
  | entries {ms ns : Members} {js ks : List Json} (first : member ms "layers" = .arr js)
      (second : member ns "layers" = .arr ks) (h : List.Forall₂ EntryDegraded js ks) :
      StyleDegraded (.obj ms) (.obj ns)

end Json

/-! ## Layers and styles -/

/-- No filter on either side, or a filter and a degraded one. -/
def Layer.FiltersDegraded : Option Filter → Option Filter → Prop
  | none, none => True
  | some a, some b => a.Degraded b
  | _, _ => False

/-- The second layer is the first but for its filter, which may be degraded. -/
structure Layer.Degraded (l l' : Layer) : Prop where
  rest : l' = { l with filter := l'.filter }
  filter : Layer.FiltersDegraded l.filter l'.filter

/-- The same source-layers in the same order, with degraded layers. -/
def Style.Degraded (s s' : Style) : Prop :=
  List.Forall₂ (fun g g' => g'.1 = g.1 ∧ List.Forall₂ Layer.Degraded g.2 g'.2) s.groups s'.groups

namespace Layer.Degraded

variable {l l' : Layer}

theorem sourceLayer (h : l.Degraded l') : l'.sourceLayer = l.sourceLayer := by rw [h.rest]

/-- Whether a layer is drawn does not depend on its filter. -/
theorem isDrawn (h : l.Degraded l') (z : Number) : l'.isDrawn z = l.isDrawn z := by
  rw [h.rest]
  rfl

end Layer.Degraded

/-! ## Loading -/

namespace Layer

theorem FiltersDegraded.refl (a : Option Filter) : FiltersDegraded a a := by
  cases a with
  | none => trivial
  | some a => exact .same a

theorem Degraded.refl (l : Layer) : l.Degraded l := ⟨rfl, .refl _⟩

theorem filterOf_degraded {j k : Json} {a : Option Filter} (h : j.OwnFilterDegraded k)
    (ha : filterOf j = .ok a) : ∃ b, filterOf k = .ok b ∧ FiltersDegraded a b := by
  rcases h with rfl | ⟨hj, hk, h⟩
  · exact ⟨a, ha, .refl a⟩
  · rw [filterOf_of_not_noFilter hj, map_eq_ok] at ha
    obtain ⟨a, ha, rfl⟩ := ha
    obtain ⟨b, hb, degraded⟩ := Filter.Reader.filter_degraded h ha
    exact ⟨some b, by rw [filterOf_of_not_noFilter hk, hb]; rfl, degraded⟩

theorem ofMembers_degraded {sourceLayer : String} {ms ns : Json.Members} {l : Layer}
    (rest : ∀ key, key ≠ "filter" → Json.member ns key = Json.member ms key)
    (own : (Json.member ms "filter").OwnFilterDegraded (Json.member ns "filter"))
    (h : ofMembers sourceLayer ms = .ok l) :
    ∃ l', ofMembers sourceLayer ns = .ok l' ∧ l.Degraded l' := by
  obtain ⟨minzoom, maxzoom, paint, filter, hmin, hmax, hpaint, hfilter, rfl⟩ :=
    ofMembers_eq_ok.mp h
  obtain ⟨filter', hfilter', degraded⟩ := filterOf_degraded own hfilter
  refine ⟨⟨sourceLayer, (Json.member ms "id").str?, minzoom, maxzoom,
    visibilityOf (Json.member ms "layout"), paint, filter'⟩, ?_, rfl, degraded⟩
  rw [ofMembers_eq_ok, rest "minzoom" (by decide), rest "maxzoom" (by decide),
    rest "paint" (by decide), rest "id" (by decide), rest "layout" (by decide)]
  exact ⟨minzoom, maxzoom, paint, filter', hmin, hmax, hpaint, hfilter', rfl⟩

end Layer

namespace StyleEntry

theorem layer?_degraded {j k : Json} {a : Option Layer} (h : j.EntryDegraded k)
    (ha : (ofJson j).layer? = .ok a) :
    ∃ b, (ofJson k).layer? = .ok b ∧ List.Forall₂ Layer.Degraded a.toList b.toList := by
  cases h with
  | same => exact ⟨a, ha, List.forall₂_same.mpr fun l _ => .refl l⟩
  | @filter ms ns rest own =>
    have hname : sourceLayer? ns = sourceLayer? ms := by
      rw [sourceLayer?, sourceLayer?, rest "source" (by decide), rest "source-layer" (by decide)]
    rw [layer?_obj] at ha ⊢
    rw [hname]
    cases hused : sourceLayer? ms with
    | none =>
      rw [hused] at ha
      cases ha
      exact ⟨none, rfl, .nil⟩
    | some name =>
      rw [hused] at ha
      obtain ⟨l, hl, rfl⟩ := map_eq_ok.mp ha
      obtain ⟨l', hl', degraded⟩ := Layer.ofMembers_degraded rest own hl
      exact ⟨some l', map_eq_ok.mpr ⟨l', hl', rfl⟩, .cons degraded .nil⟩

end StyleEntry

namespace Style

theorem readEntries_degraded {js ks : List Json} {layers : List Layer}
    (h : List.Forall₂ Json.EntryDegraded js ks) (hjs : (readEntries js).2 = .ok layers) :
    ∃ layers', (readEntries ks).2 = .ok layers' ∧ List.Forall₂ Layer.Degraded layers layers' := by
  induction h generalizing layers with
  | nil =>
    cases hjs
    exact ⟨[], rfl, .nil⟩
  | cons head _ ih =>
    obtain ⟨a, rest, ha, hrest, rfl⟩ := readEntries_cons_eq_ok.mp hjs
    obtain ⟨b, hb, hab⟩ := StyleEntry.layer?_degraded head ha
    obtain ⟨rest', hrest', degraded⟩ := ih hrest
    exact ⟨b.toList ++ rest', readEntries_cons_eq_ok.mpr ⟨b, rest', hb, hrest', rfl⟩,
      List.rel_append hab degraded⟩

theorem insert_degraded {s s' : Style} {l l' : Layer} (hs : s.Degraded s') (hl : l.Degraded l') :
    (s.insert l).Degraded (s'.insert l') := by
  obtain ⟨groups⟩ := s
  obtain ⟨groups'⟩ := s'
  change List.Forall₂ _ groups groups' at hs
  change List.Forall₂ _ (insertInto l groups) (insertInto l' groups')
  induction hs with
  | nil => exact .cons ⟨hl.sourceLayer, .cons hl .nil⟩ .nil
  | @cons g g' groups groups' head tail ih =>
    obtain ⟨name, layers⟩ := g
    obtain ⟨name', layers'⟩ := g'
    obtain ⟨rfl, hlayers⟩ := head
    rw [insertInto, insertInto, hl.sourceLayer]
    split
    · exact .cons ⟨rfl, List.rel_append hlayers (.cons hl .nil)⟩ tail
    · exact .cons ⟨rfl, hlayers⟩ ih

theorem ofLayers_degraded {layers layers' : List Layer}
    (h : List.Forall₂ Layer.Degraded layers layers') :
    (ofLayers layers).Degraded (ofLayers layers') :=
  List.rel_foldl (P := Degraded) (R := Layer.Degraded)
    (fun _ _ hs _ _ hl => insert_degraded hs hl) .nil h

/-- A degraded document loads where the first one does, as a degraded style. -/
theorem ofJson_degraded {j k : Json} {s : Style} (h : j.StyleDegraded k)
    (path path' : Option String) (hs : (ofJson j path).result = .ok s) :
    ∃ s', (ofJson k path').result = .ok s' ∧ s.Degraded s' := by
  obtain ⟨first, second, h⟩ := h
  simp only [ofJson, first, second] at hs ⊢
  obtain ⟨layers, hlayers, hne, rfl⟩ := ofEntries_eq_ok.mp hs
  obtain ⟨layers', hlayers', degraded⟩ := readEntries_degraded h hlayers
  refine ⟨ofLayers layers', ofEntries_eq_ok.mpr ⟨layers', hlayers', ?_, rfl⟩,
    ofLayers_degraded degraded⟩
  rintro rfl
  exact hne (List.forall₂_nil_right_iff.mp degraded)

/-! ## Looking up and deciding -/

variable {s s' : Style} {f : Feature} {z : Zoom}

theorem Degraded.sourceLayers (h : s.Degraded s') : s'.sourceLayers = s.sourceLayers := by
  obtain ⟨groups⟩ := s
  obtain ⟨groups'⟩ := s'
  change List.Forall₂ _ groups groups' at h
  change groups'.map Prod.fst = groups.map Prod.fst
  induction h with
  | nil => rfl
  | cons head _ ih => rw [List.map_cons, List.map_cons, head.1, ih]

theorem Degraded.layersFor (h : s.Degraded s') (name : String) :
    List.Forall₂ Layer.Degraded (s.layersFor name) (s'.layersFor name) := by
  obtain ⟨groups⟩ := s
  obtain ⟨groups'⟩ := s'
  change List.Forall₂ _ groups groups' at h
  change List.Forall₂ _ ((groups.lookup name).getD []) ((groups'.lookup name).getD [])
  induction h with
  | nil => exact .nil
  | @cons g g' groups groups' head _ ih =>
    obtain ⟨_, layers⟩ := g
    obtain ⟨name', layers'⟩ := g'
    obtain ⟨rfl, hlayers⟩ := head
    cases hname : name == name' with
    | true => simpa [List.lookup_cons, hname] using hlayers
    | false => simpa [List.lookup_cons, hname] using ih

/-- The same layers are drawn, of every source-layer at every zoom. -/
theorem Degraded.drawn (h : s.Degraded s') (name : String) (z : Zoom) :
    List.Forall₂ Layer.Degraded ((s.layersFor name).filter fun l => l.isDrawn z)
      ((s'.layersFor name).filter fun l => l.isDrawn z) := by
  refine List.rel_filter (fun l l' hl => ?_) (h.layersFor name)
  change l.isDrawn z = true ↔ l'.isDrawn z = true
  rw [hl.isDrawn z]

theorem Degraded.isVisible (h : s.Degraded s') (name : String) (z : Zoom) :
    s'.isVisible name z = s.isVisible name z := by
  have hlayers := h.layersFor name
  unfold Style.isVisible
  generalize s.layersFor name = layers at hlayers
  generalize s'.layersFor name = layers' at hlayers
  induction hlayers with
  | nil => rfl
  | cons head _ ih => rw [List.any_cons, List.any_cons, head.isDrawn z, ih]

theorem answer_degraded {l l' : Layer} {d d' : Decision} (h : l.Degraded l')
    (hd : l.answer z f = .ok d) (hd' : l'.answer z f = .ok d') : d.Degraded d' := by
  rw [Layer.answer] at hd hd'
  rw [h.isDrawn z] at hd'
  have hfilter := h.filter
  cases hdrawn : l.isDrawn z with
  | false =>
    rw [hdrawn] at hd hd'
    cases hd
    cases hd'
    exact .inl rfl
  | true =>
    rw [hdrawn] at hd hd'
    cases ha : l.filter with
    | none =>
      cases hb : l'.filter with
      | none =>
        rw [ha] at hd
        rw [hb] at hd'
        cases hd
        cases hd'
        exact .inl rfl
      | some b => simp [ha, hb, Layer.FiltersDegraded] at hfilter
    | some a =>
      cases hb : l'.filter with
      | none => simp [ha, hb, Layer.FiltersDegraded] at hfilter
      | some b =>
        rw [ha, hb] at hfilter
        rw [ha] at hd
        rw [hb] at hd'
        exact Filter.eval_degraded hfilter hd hd'

/-- Having been in doubt before, the second style may only know less than the first. -/
theorem decideFrom_degraded {layers layers' : List Layer} {unknowns unknowns' : Nat}
    {r r' : Decision × Nat} (h : List.Forall₂ Layer.Degraded layers layers')
    (hdoubt : unknowns ≠ 0 → unknowns' ≠ 0) (hr : decideFrom z f unknowns layers = .ok r)
    (hr' : decideFrom z f unknowns' layers' = .ok r') : r.1.Degraded r'.1 := by
  induction h generalizing unknowns unknowns' with
  | nil =>
    cases hr
    cases hr'
    by_cases h : unknowns' = 0
    · have h : unknowns = 0 := by
        by_contra hne
        exact hdoubt hne h
      simp [Decision.Degraded, *]
    · exact .inr (if_neg h)
  | @cons l l' layers layers' head _ ih =>
    obtain ⟨d, hd, hr⟩ := decideFrom_cons_eq_ok.mp hr
    obtain ⟨d', hd', hr'⟩ := decideFrom_cons_eq_ok.mp hr'
    rcases answer_degraded head hd hd' with rfl | rfl
    · rcases hr with ⟨rfl, rfl⟩ | ⟨rfl, hr⟩ | ⟨rfl, hr⟩
      · obtain rfl : r' = (.yes, unknowns') := by simpa using hr'
        exact .inl rfl
      · exact ih (fun _ => Nat.succ_ne_zero unknowns') hr (by simpa using hr')
      · exact ih hdoubt hr (by simpa using hr')
    · have hr' : decideFrom z f (unknowns' + 1) layers' = .ok r' := by simpa using hr'
      rcases hr with ⟨rfl, rfl⟩ | ⟨rfl, hr⟩ | ⟨rfl, hr⟩
      · exact decideFrom_of_unknowns (Nat.succ_ne_zero unknowns') hr'
      · exact ih (fun _ => Nat.succ_ne_zero unknowns') hr hr'
      · exact ih (fun _ => Nat.succ_ne_zero unknowns') hr hr'

/-- A degraded style decides as before or cannot tell. -/
theorem Degraded.evaluate {name : String} {r r' : Decision × Nat} (h : s.Degraded s')
    (hr : s.evaluate name z f = .ok r) (hr' : s'.evaluate name z f = .ok r') :
    r.1.Degraded r'.1 := decideFrom_degraded (h.layersFor name) (fun h => h) hr hr'

theorem Degraded.decision {name : String} {d d' : Decision} (h : s.Degraded s')
    (hd : s.decision name z f = .ok d) (hd' : s'.decision name z f = .ok d') : d.Degraded d' := by
  obtain ⟨r, hr, rfl⟩ := map_eq_ok.mp hd
  obtain ⟨r', hr', rfl⟩ := map_eq_ok.mp hd'
  exact h.evaluate hr hr'

end Style

end StyledTiles
