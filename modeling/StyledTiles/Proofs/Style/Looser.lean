import Mathlib.Data.List.Forall2
import StyledTiles.Proofs.Decision
import StyledTiles.Proofs.Paint
import StyledTiles.Proofs.Style.Deciding
import StyledTiles.Proofs.Style.Grouping
import StyledTiles.Proofs.Style.Loading

/-!
# Looser styles

A style document is loosened when entries are inserted anywhere and entries that were there lose bounds,
a layout that hides them, paint properties or their filter; instead of being left out these may be
replaced by what counts as absent. The looser style has a layer for each layer of the first one, drawn
wherever that is drawn and accepting whatever that accepts, and it may have others between them.

Both documents have to load, since an inserted entry may hold a number out of range. Decisions are
compared where both are there: a layer that only the looser style asks may meet such a number.
-/
namespace StyledTiles

open Outcome

/-! ## Documents -/

namespace Json

/-- The same bound, or what is no bound. -/
def BoundLoosened (j k : Json) : Prop := k = j ∨ k.finite = .ok none

/-- The same visibility, or none that is stated. -/
def LayoutLoosened (j k : Json) : Prop :=
  Layer.visibilityOf k = Layer.visibilityOf j ∨ Layer.visibilityOf k = none

/-- The paint properties that an entry states. -/
def paintMembers : Json → Members
  | .obj members => members
  | _ => []

/-- Under some names nothing is left, or only what does not read as paint; the rest is the same. -/
def PaintLoosened (j k : Json) : Prop :=
  ∃ touched : String → Bool,
    k.paintMembers.filter (fun m => !touched m.1) = j.paintMembers.filter (fun m => !touched m.1) ∧
    ∀ m ∈ k.paintMembers, touched m.1 = true → Paint.ofJson m.2 = .ok none

/-- The same filter or none. -/
def FilterLoosened (j k : Json) : Prop := k = j ∨ k.NoFilter

/-- Members of entries that differ at most in what restricts a layer. -/
structure MembersLoosened (ms ns : Members) : Prop where
  rest : ∀ key, key ∉ ["minzoom", "maxzoom", "layout", "paint", "filter"] →
    member ns key = member ms key
  minzoom : BoundLoosened (member ms "minzoom") (member ns "minzoom")
  maxzoom : BoundLoosened (member ms "maxzoom") (member ns "maxzoom")
  layout : LayoutLoosened (member ms "layout") (member ns "layout")
  paint : PaintLoosened (member ms "paint") (member ns "paint")
  filter : FilterLoosened (member ms "filter") (member ns "filter")

inductive EntryLoosened : Json → Json → Prop
  | same (j : Json) : EntryLoosened j j
  | members {ms ns : Members} (h : MembersLoosened ms ns) : EntryLoosened (.obj ms) (.obj ns)

/-- Style documents of which the second has the entries of the first, loosened, among others. -/
inductive StyleLoosened : Json → Json → Prop
  | entries {ms ns : Members} {js ks : List Json} (first : member ms "layers" = .arr js)
      (second : member ns "layers" = .arr ks) (h : List.SublistForall₂ EntryLoosened js ks) :
      StyleLoosened (.obj ms) (.obj ns)

end Json

/-! ## Layers -/

/-- The same value or none. -/
def Relaxed {α : Type} (a b : Option α) : Prop := b = a ∨ b = none

/-- The second layer is restricted by nothing that does not restrict the first. -/
structure Layer.Loosened (l l' : Layer) : Prop where
  sourceLayer : l'.sourceLayer = l.sourceLayer
  minzoom : Relaxed l.minzoom l'.minzoom
  maxzoom : Relaxed l.maxzoom l'.maxzoom
  visibility : Relaxed l.visibility l'.visibility
  paint : ∀ property, Relaxed (l.paint.lookup property) (l'.paint.lookup property)
  filter : Relaxed l.filter l'.filter

namespace Layer.Loosened

variable {l l' : Layer} {z : Zoom} {f : Feature}

theorem refl (l : Layer) : l.Loosened l :=
  ⟨rfl, .inl rfl, .inl rfl, .inl rfl, fun _ => .inl rfl, .inl rfl⟩

theorem isVisible (h : l.Loosened l') (hl : l.isVisible z = true) : l'.isVisible z = true := by
  rw [Layer.isVisible, Bool.and_eq_true, Bool.and_eq_true] at hl ⊢
  obtain ⟨⟨hlaidOut, hreaches⟩, hendsAbove⟩ := hl
  refine ⟨⟨?_, ?_⟩, ?_⟩
  · rw [isLaidOut] at hlaidOut ⊢
    rcases h.visibility with heq | hnone
    · rw [heq, hlaidOut]
    · rw [hnone]
      rfl
  · rw [reaches] at hreaches ⊢
    rcases h.minzoom with heq | hnone
    · rw [heq, hreaches]
    · rw [hnone]
  · rw [endsAbove] at hendsAbove ⊢
    rcases h.maxzoom with heq | hnone
    · rw [heq, hendsAbove]
    · rw [hnone]

theorem isPainted (h : l.Loosened l') (hl : l.isPainted z = true) : l'.isPainted z = true := by
  rw [Layer.isPainted, List.all_eq_true] at hl ⊢
  intro property hproperty
  have hpainted := hl property hproperty
  rw [isPaintedBy] at hpainted ⊢
  rcases h.paint property with heq | hnone
  · rw [heq, hpainted]
  · rw [hnone]

/-- What is drawn stays drawn. -/
theorem isDrawn (h : l.Loosened l') (hl : l.isDrawn z = true) : l'.isDrawn z = true := by
  rw [Layer.isDrawn, Bool.and_eq_true] at hl ⊢
  exact ⟨h.isVisible hl.1, h.isPainted hl.2⟩

theorem answer_le (h : l.Loosened l') {d d' : Decision} (hd : l.answer z f = .ok d)
    (hd' : l'.answer z f = .ok d') : d ≤ d' := by
  cases hdrawn : l.isDrawn z with
  | false =>
    rw [Layer.answer_of_not_drawn hdrawn] at hd
    cases hd
    exact d'.no_le
  | true =>
    rw [answer, if_pos hdrawn] at hd
    rw [answer, if_pos (h.isDrawn hdrawn)] at hd'
    rcases h.filter with heq | hnone
    · rw [heq, hd] at hd'
      obtain rfl := Except.ok.inj hd'
      exact d.le_refl
    · rw [hnone] at hd'
      cases hd'
      exact d.le_yes

end Layer.Loosened

/-! ## Reading -/

namespace Paint

/-- What stands under other names does not matter. -/
theorem lookup_ofMembers_filter (touched : String → Bool) {ms : Json.Members}
    {paints : List (String × Paint)} (h : ofMembers ms = .ok paints) :
    ∃ left, ofMembers (ms.filter fun m => !touched m.1) = .ok left ∧
      ∀ property, touched property = false → left.lookup property = paints.lookup property := by
  induction ms generalizing paints with
  | nil => exact ⟨paints, h, fun _ _ => rfl⟩
  | cons m ms ih =>
    obtain ⟨name, j⟩ := m
    obtain ⟨paint, rest, hpaint, hrest, rfl⟩ := ofMembers_cons_eq_ok.mp h
    obtain ⟨left, hleft, alike⟩ := ih hrest
    cases hname : touched name with
    | true =>
      refine ⟨left, by simpa [hname] using hleft, fun property hproperty => ?_⟩
      have hne : (property == name) = false := by
        have : property ≠ name := fun heq => by simp [heq, hname] at hproperty
        simpa using this
      rw [alike property hproperty]
      cases paint with
      | none => rfl
      | some paint => simp [List.lookup_cons, hne]
    | false =>
      refine ⟨paint.toList.map (name, ·) ++ left, ?_, fun property hproperty => ?_⟩
      · rw [List.filter_cons_of_pos (by simp [hname])]
        exact ofMembers_cons_eq_ok.mpr ⟨paint, left, hpaint, hleft, rfl⟩
      · rw [List.lookup_append, List.lookup_append, alike property hproperty]

/-- What does not read as paint is not there. -/
theorem lookup_ofMembers_ignored {touched : String → Bool} {ms : Json.Members}
    {paints : List (String × Paint)} (h : ofMembers ms = .ok paints)
    (ignored : ∀ m ∈ ms, touched m.1 = true → ofJson m.2 = .ok none) {property : String}
    (hproperty : touched property = true) : paints.lookup property = none := by
  induction ms generalizing paints with
  | nil =>
    cases h
    rfl
  | cons m ms ih =>
    obtain ⟨name, j⟩ := m
    rw [List.forall_mem_cons] at ignored
    obtain ⟨paint, rest, hpaint, hrest, rfl⟩ := ofMembers_cons_eq_ok.mp h
    have hnone := ih hrest ignored.2
    cases paint with
    | none => exact hnone
    | some paint =>
      have hne : (property == name) = false := by
        have : property ≠ name := by
          rintro rfl
          cases hpaint.symm.trans (ignored.1 hproperty)
        simpa using this
      simpa [List.lookup_cons, hne] using hnone

theorem properties_eq_ofMembers (j : Json) : properties j = ofMembers j.paintMembers := by
  cases j <;> rfl

theorem properties_loosened {j k : Json} {paints paints' : List (String × Paint)}
    (h : j.PaintLoosened k) (hj : properties j = .ok paints) (hk : properties k = .ok paints')
    (property : String) : Relaxed (paints.lookup property) (paints'.lookup property) := by
  rw [properties_eq_ofMembers] at hj hk
  obtain ⟨touched, untouched, ignored⟩ := h
  cases hproperty : touched property with
  | true => exact .inr (lookup_ofMembers_ignored hk ignored hproperty)
  | false =>
    obtain ⟨left, hleft, alike⟩ := lookup_ofMembers_filter touched hj
    obtain ⟨left', hleft', alike'⟩ := lookup_ofMembers_filter touched hk
    rw [untouched, hleft] at hleft'
    cases hleft'
    exact .inl ((alike' property hproperty).symm.trans (alike property hproperty))

end Paint

namespace Layer

theorem boundOf_loosened {j k : Json} {a b : Option Number} (h : j.BoundLoosened k)
    (ha : boundOf j = .ok a) (hb : boundOf k = .ok b) : Relaxed a b := by
  rcases h with rfl | hnone
  · exact .inl (Except.ok.inj (hb.symm.trans ha))
  · rw [boundOf, hnone] at hb
    exact .inr (Except.ok.inj hb).symm

theorem filterOf_loosened {j k : Json} {a b : Option Filter} (h : j.FilterLoosened k)
    (ha : filterOf j = .ok a) (hb : filterOf k = .ok b) : Relaxed a b := by
  rcases h with rfl | rfl | rfl
  · exact .inl (Except.ok.inj (hb.symm.trans ha))
  · exact .inr (Except.ok.inj hb).symm
  · exact .inr (Except.ok.inj hb).symm

theorem ofMembers_loosened {sourceLayer : String} {ms ns : Json.Members} {l l' : Layer}
    (h : Json.MembersLoosened ms ns) (hl : ofMembers sourceLayer ms = .ok l)
    (hl' : ofMembers sourceLayer ns = .ok l') : l.Loosened l' := by
  obtain ⟨minzoom, maxzoom, paint, filter, hmin, hmax, hpaint, hfilter, rfl⟩ :=
    ofMembers_eq_ok.mp hl
  obtain ⟨minzoom', maxzoom', paint', filter', hmin', hmax', hpaint', hfilter', rfl⟩ :=
    ofMembers_eq_ok.mp hl'
  exact {
    sourceLayer := rfl
    minzoom := boundOf_loosened h.minzoom hmin hmin'
    maxzoom := boundOf_loosened h.maxzoom hmax hmax'
    visibility := h.layout
    paint := Paint.properties_loosened h.paint hpaint hpaint'
    filter := filterOf_loosened h.filter hfilter hfilter' }

end Layer

theorem StyleEntry.layer?_loosened {j k : Json} {a b : Option Layer} (h : j.EntryLoosened k)
    (ha : (ofJson j).layer? = .ok a) (hb : (ofJson k).layer? = .ok b) :
    List.Forall₂ Layer.Loosened a.toList b.toList := by
  cases h with
  | same =>
    obtain rfl := Except.ok.inj (hb.symm.trans ha)
    exact List.forall₂_same.mpr fun l _ => .refl l
  | @members ms ns h =>
    have hname : sourceLayer? ns = sourceLayer? ms := by
      rw [sourceLayer?, sourceLayer?, h.rest "source" (by decide), h.rest "source-layer" (by decide)]
    rw [layer?_obj] at ha hb
    rw [hname] at hb
    cases hused : sourceLayer? ms with
    | none =>
      rw [hused] at ha hb
      cases ha
      cases hb
      exact .nil
    | some name =>
      rw [hused] at ha hb
      obtain ⟨l, hl, rfl⟩ := map_eq_ok.mp ha
      obtain ⟨l', hl', rfl⟩ := map_eq_ok.mp hb
      exact .cons (Layer.ofMembers_loosened h hl hl') .nil

namespace Style

/-- The layers of a looser document are those of the first one, loosened, among others. -/
theorem readEntries_loosened {js ks : List Json} {layers layers' : List Layer}
    (h : List.SublistForall₂ Json.EntryLoosened js ks) (hjs : (readEntries js).2 = .ok layers)
    (hks : (readEntries ks).2 = .ok layers') :
    List.SublistForall₂ Layer.Loosened layers layers' := by
  induction h generalizing layers layers' with
  | nil =>
    cases hjs
    exact .nil
  | cons head _ ih =>
    obtain ⟨a, rest, ha, hrest, rfl⟩ := readEntries_cons_eq_ok.mp hjs
    obtain ⟨b, rest', hb, hrest', rfl⟩ := readEntries_cons_eq_ok.mp hks
    obtain ⟨among, loosened, sublist⟩ := List.sublistForall₂_iff.mp (ih hrest hrest')
    refine List.sublistForall₂_iff.mpr ⟨b.toList ++ among, ?_, sublist.append_left _⟩
    exact List.rel_append (StyleEntry.layer?_loosened head ha hb) loosened
  | cons_right _ ih =>
    obtain ⟨b, rest', hb, hrest', rfl⟩ := readEntries_cons_eq_ok.mp hks
    obtain ⟨among, loosened, sublist⟩ := List.sublistForall₂_iff.mp (ih hjs hrest')
    exact List.sublistForall₂_iff.mpr ⟨among, loosened, sublist.trans (List.sublist_append_right _ _)⟩

/-- The second style is made of the layers of the first, loosened, among others. -/
def Loosened (s s' : Style) : Prop :=
  ∃ layers layers', s = ofLayers layers ∧ s' = ofLayers layers' ∧
    List.SublistForall₂ Layer.Loosened layers layers'

/-- Where a document and a looser one load, the second is loaded as a looser style. -/
theorem ofJson_loosened {j k : Json} {s s' : Style} {path path' : Option String}
    (h : j.StyleLoosened k) (hs : (ofJson j path).result = .ok s)
    (hs' : (ofJson k path').result = .ok s') : s.Loosened s' := by
  obtain ⟨first, second, h⟩ := h
  simp only [ofJson, first] at hs
  simp only [ofJson, second] at hs'
  obtain ⟨layers, hlayers, _, rfl⟩ := ofEntries_eq_ok.mp hs
  obtain ⟨layers', hlayers', _, rfl⟩ := ofEntries_eq_ok.mp hs'
  exact ⟨layers, layers', rfl, rfl, readEntries_loosened h hlayers hlayers'⟩

/-! ## Looking up and deciding -/

variable {s s' : Style} {name : String} {z : Zoom} {f : Feature}

theorem Loosened.layersFor (h : s.Loosened s') (name : String) :
    List.SublistForall₂ Layer.Loosened (s.layersFor name) (s'.layersFor name) := by
  obtain ⟨layers, layers', rfl, rfl, h⟩ := h
  obtain ⟨among, loosened, sublist⟩ := List.sublistForall₂_iff.mp h
  rw [layersFor_ofLayers, layersFor_ofLayers]
  refine List.sublistForall₂_iff.mpr ⟨_, List.rel_filter ?_ loosened, sublist.filter _⟩
  intro l l' hl
  change (l.sourceLayer == name) = true ↔ (l'.sourceLayer == name) = true
  rw [hl.sourceLayer]

theorem exists_loosened {layers layers' : List Layer} {l : Layer}
    (h : List.SublistForall₂ Layer.Loosened layers layers') (hl : l ∈ layers) :
    ∃ l' ∈ layers', l.Loosened l' := by
  induction h with
  | nil => cases hl
  | cons head _ ih =>
    rcases List.mem_cons.mp hl with rfl | hl
    · exact ⟨_, List.mem_cons_self, head⟩
    · obtain ⟨l', hl', loosened⟩ := ih hl
      exact ⟨l', List.mem_cons_of_mem _ hl', loosened⟩
  | cons_right _ ih =>
    obtain ⟨l', hl', loosened⟩ := ih hl
    exact ⟨l', List.mem_cons_of_mem _ hl', loosened⟩

theorem Loosened.sourceLayers (h : s.Loosened s') : s.sourceLayers ⊆ s'.sourceLayers := by
  obtain ⟨layers, layers', rfl, rfl, h⟩ := h
  intro name hname
  rw [mem_sourceLayers_ofLayers] at hname ⊢
  obtain ⟨l, hl, hname⟩ := hname
  obtain ⟨l', hl', loosened⟩ := exists_loosened h hl
  exact ⟨l', hl', loosened.sourceLayer.trans hname⟩

theorem Loosened.isVisible (h : s.Loosened s') (hs : s.isVisible name z = true) :
    s'.isVisible name z = true := by
  rw [Style.isVisible, List.any_eq_true] at hs ⊢
  obtain ⟨l, hl, hdrawn⟩ := hs
  obtain ⟨l', hl', loosened⟩ := exists_loosened (h.layersFor name) hl
  exact ⟨l', hl', loosened.isDrawn hdrawn⟩

/-- Having been in doubt before, the looser style may only be in doubt as well. -/
theorem decideFrom_le {layers layers' : List Layer} {unknowns unknowns' : Nat}
    {r r' : Decision × Nat} (h : List.SublistForall₂ Layer.Loosened layers layers')
    (hdoubt : unknowns ≠ 0 → unknowns' ≠ 0) (hr : decideFrom z f unknowns layers = .ok r)
    (hr' : decideFrom z f unknowns' layers' = .ok r') : r.1 ≤ r'.1 := by
  induction h generalizing unknowns unknowns' with
  | nil =>
    cases hr
    by_cases hzero : unknowns = 0
    · rw [undecided, if_pos hzero]
      exact r'.1.no_le
    · rw [undecided, if_neg hzero]
      exact Decision.unknown_le_iff.mpr (decideFrom_of_unknowns (hdoubt hzero) hr')
  | cons head _ ih =>
    obtain ⟨d, hd, hr⟩ := decideFrom_cons_eq_ok.mp hr
    obtain ⟨d', hd', hr'⟩ := decideFrom_cons_eq_ok.mp hr'
    have hle := head.answer_le hd hd'
    rcases hr' with ⟨_, rfl⟩ | ⟨rfl, hr'⟩ | ⟨rfl, hr'⟩
    · exact r.1.le_yes
    · rcases hr with ⟨rfl, _⟩ | ⟨_, hr⟩ | ⟨_, hr⟩
      · cases Decision.yes_le_iff.mp hle
      · exact ih (fun _ => Nat.succ_ne_zero unknowns') hr hr'
      · exact ih (fun _ => Nat.succ_ne_zero unknowns') hr hr'
    · obtain rfl := Decision.le_no_iff.mp hle
      exact ih hdoubt (by simpa using hr) hr'
  | cons_right _ ih =>
    obtain ⟨d', _, ⟨_, rfl⟩ | ⟨_, hr'⟩ | ⟨_, hr'⟩⟩ := decideFrom_cons_eq_ok.mp hr'
    · exact r.1.le_yes
    · exact ih (fun _ => Nat.succ_ne_zero unknowns') hr hr'
    · exact ih hdoubt hr hr'

theorem Loosened.evaluate_le (h : s.Loosened s') {r r' : Decision × Nat}
    (hr : s.evaluate name z f = .ok r) (hr' : s'.evaluate name z f = .ok r') : r.1 ≤ r'.1 :=
  decideFrom_le (h.layersFor name) (fun h => h) hr hr'

theorem Loosened.decision_le (h : s.Loosened s') {d d' : Decision}
    (hd : s.decision name z f = .ok d) (hd' : s'.decision name z f = .ok d') : d ≤ d' := by
  obtain ⟨r, hr, rfl⟩ := map_eq_ok.mp hd
  obtain ⟨r', hr', rfl⟩ := map_eq_ok.mp hd'
  exact h.evaluate_le hr hr'

end Style

end StyledTiles
