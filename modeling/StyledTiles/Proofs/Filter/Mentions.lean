import StyledTiles.Proofs.Filter.Resolved

/-!
# What a filter mentions

A filter looks at a feature through what it mentions: the names whose values it compares, the names that
it tests for presence, the geometry class, the identifier, and the zoom. Two features that are alike in
what is mentioned have the same decision, whatever else they carry; and where the zoom is not mentioned
the decision is the same at every zoom. Everything mentioned counts, whether evaluation comes to it or
not, so nothing here depends on where it stops.

The name of the zoom is a special case. A filter that asks for the value under that name gets the zoom
where the feature has no such property, so it mentions the zoom unless the feature carries one.
-/
namespace StyledTiles

/-- One thing that a filter may look at. -/
inductive Mention where
  /-- The value under a name. -/
  | value (name : String)
  /-- Whether there is something under a name. -/
  | presence (name : String)
  | zoom
  | geometryType
  | id
deriving DecidableEq, Repr

mutual

def Expression.mentions : Expression → List Mention
  | .get name => [.value name]
  | .literal _ => []
  | .zoom => [.zoom]
  | .geometryType => [.geometryType]
  | .id => [.id]
  | .switch input cases fallback =>
    input.mentions ++ Expression.mentionsOfCases cases ++ fallback.mentions
  | .choose branches fallback => Expression.mentionsOfBranches branches ++ fallback.mentions
  | .coalesce candidates => Expression.mentionsOfAll candidates

def Expression.mentionsOfCases : List (List Scalar × Expression) → List Mention
  | [] => []
  | (_, output) :: rest => output.mentions ++ Expression.mentionsOfCases rest

def Expression.mentionsOfBranches : List (Filter × Expression) → List Mention
  | [] => []
  | (condition, output) :: rest =>
    condition.mentions ++ output.mentions ++ Expression.mentionsOfBranches rest

def Expression.mentionsOfAll : List Expression → List Mention
  | [] => []
  | e :: rest => e.mentions ++ Expression.mentionsOfAll rest

def Filter.mentions : Filter → List Mention
  | .compare _ key _ => key.mentions
  | .member _ key _ => key.mentions
  | .present _ key => [.presence key]
  | .combine _ filters => Filter.mentionsOfAll filters
  | .unknown => []

def Filter.mentionsOfAll : List Filter → List Mention
  | [] => []
  | a :: rest => a.mentions ++ Filter.mentionsOfAll rest

end

variable {f f' : Feature} {z z' : Zoom}

/-- What is mentioned is the same of one feature at one zoom and of another at another. -/
def Mention.Alike (f : Feature) (z : Zoom) (f' : Feature) (z' : Zoom) : Mention → Prop
  | .value name => (Expression.get name).eval f z = (Expression.get name).eval f' z'
  | .presence name => f.has name = f'.has name
  | .zoom => Expression.zoom.eval f z = Expression.zoom.eval f' z'
  | .geometryType => f.geometry = f'.geometry
  | .id => f.idScalar = f'.idScalar

/-- Everything in a list of mentions is the same. -/
def AlikeIn (f : Feature) (z : Zoom) (f' : Feature) (z' : Zoom) (ms : List Mention) : Prop :=
  ∀ m ∈ ms, m.Alike f z f' z'

theorem alikeIn_singleton {m : Mention} : AlikeIn f z f' z' [m] ↔ m.Alike f z f' z' :=
  List.forall_mem_singleton

theorem alikeIn_append {ms ns : List Mention} :
    AlikeIn f z f' z' (ms ++ ns) ↔ AlikeIn f z f' z' ms ∧ AlikeIn f z f' z' ns :=
  List.forall_mem_append

/-! ## Two runs -/

mutual

/-- An expression yields the same where all that it mentions is the same. -/
theorem Expression.eval_alike :
    ∀ e : Expression, AlikeIn f z f' z' e.mentions → e.eval f z = e.eval f' z'
  | .get name, h => by
    rw [Expression.mentions, alikeIn_singleton] at h
    exact h
  | .literal v, _ => by rw [Expression.eval, Expression.eval]
  | .zoom, h => by
    rw [Expression.mentions, alikeIn_singleton] at h
    exact h
  | .geometryType, h => by
    rw [Expression.mentions, alikeIn_singleton] at h
    rw [Expression.eval, Expression.eval, h]
  | .id, h => by
    rw [Expression.mentions, alikeIn_singleton] at h
    rw [Expression.eval, Expression.eval, h]
  | .switch input cases fallback, h => by
    rw [Expression.mentions, alikeIn_append, alikeIn_append] at h
    obtain ⟨⟨hinput, hcases⟩, hfallback⟩ := h
    have hcases (v : Scalar) := Expression.evalCases_alike v cases hcases
    rw [Expression.eval, Expression.eval, Expression.eval_alike input hinput,
      Expression.eval_alike fallback hfallback]
    simp only [hcases]
  | .choose branches fallback, h => by
    rw [Expression.mentions, alikeIn_append] at h
    obtain ⟨hbranches, hfallback⟩ := h
    rw [Expression.eval, Expression.eval, Expression.evalBranches_alike branches hbranches,
      Expression.eval_alike fallback hfallback]
  | .coalesce candidates, h => by
    rw [Expression.mentions] at h
    rw [Expression.eval, Expression.eval, Expression.evalFirst_alike candidates h]

theorem Expression.evalCases_alike (v : Scalar) :
    ∀ cases : List (List Scalar × Expression), AlikeIn f z f' z' (Expression.mentionsOfCases cases) →
      Expression.evalCases f z v cases = Expression.evalCases f' z' v cases
  | [], _ => by rw [Expression.evalCases, Expression.evalCases]
  | (labels, output) :: rest, h => by
    rw [Expression.mentionsOfCases, alikeIn_append] at h
    rw [Expression.evalCases, Expression.evalCases, Expression.eval_alike output h.1,
      Expression.evalCases_alike v rest h.2]

theorem Expression.evalBranches_alike :
    ∀ branches : List (Filter × Expression),
      AlikeIn f z f' z' (Expression.mentionsOfBranches branches) →
      Expression.evalBranches f z branches = Expression.evalBranches f' z' branches
  | [], _ => by rw [Expression.evalBranches, Expression.evalBranches]
  | (condition, output) :: rest, h => by
    rw [Expression.mentionsOfBranches, alikeIn_append, alikeIn_append] at h
    obtain ⟨⟨hcondition, houtput⟩, hrest⟩ := h
    rw [Expression.evalBranches, Expression.evalBranches, Filter.eval_alike condition hcondition,
      Expression.eval_alike output houtput, Expression.evalBranches_alike rest hrest]

theorem Expression.evalFirst_alike :
    ∀ candidates : List Expression, AlikeIn f z f' z' (Expression.mentionsOfAll candidates) →
      Expression.evalFirst f z candidates = Expression.evalFirst f' z' candidates
  | [], _ => by rw [Expression.evalFirst, Expression.evalFirst]
  | e :: rest, h => by
    rw [Expression.mentionsOfAll, alikeIn_append] at h
    rw [Expression.evalFirst, Expression.evalFirst, Expression.eval_alike e h.1,
      Expression.evalFirst_alike rest h.2]

/-- A filter decides the same where all that it mentions is the same. -/
theorem Filter.eval_alike :
    ∀ a : Filter, AlikeIn f z f' z' a.mentions → a.eval f z = a.eval f' z'
  | .compare negated key value, h => by
    rw [Filter.mentions] at h
    rw [Filter.eval, Filter.eval, Expression.eval_alike key h]
  | .member negated key values, h => by
    rw [Filter.mentions] at h
    rw [Filter.eval, Filter.eval, Expression.eval_alike key h]
  | .present negated key, h => by
    rw [Filter.mentions, alikeIn_singleton] at h
    rw [Filter.eval, Filter.eval, h]
  | .combine how filters, h => by
    rw [Filter.mentions] at h
    rw [Filter.eval, Filter.eval, Filter.evalAll_alike how false filters h]
  | .unknown, _ => by rw [Filter.eval, Filter.eval]

theorem Filter.evalAll_alike (how : Connective) (sawUnknown : Bool) :
    ∀ filters : List Filter, AlikeIn f z f' z' (Filter.mentionsOfAll filters) →
      Filter.evalAll f z how sawUnknown filters = Filter.evalAll f' z' how sawUnknown filters
  | [], _ => by rw [Filter.evalAll, Filter.evalAll]
  | a :: rest, h => by
    rw [Filter.mentionsOfAll, alikeIn_append] at h
    have hrest (saw : Bool) := Filter.evalAll_alike how saw rest h.2
    rw [Filter.evalAll, Filter.evalAll, Filter.eval_alike a h.1]
    simp only [hrest]

end

/-! ## Features that agree -/

/-- The features agree in what is mentioned. Of a name that is only tested for presence no more than that
has to agree. -/
structure Feature.AgreeIn (ms : List Mention) (f f' : Feature) : Prop where
  value : ∀ name, .value name ∈ ms → name ≠ Feature.typeKey → name ≠ Feature.idKey →
    f'.get name = f.get name
  presence : ∀ name, .presence name ∈ ms → name ≠ Feature.typeKey → name ≠ Feature.idKey →
    f'.has name = f.has name
  geometry : .geometryType ∈ ms ∨ .value Feature.typeKey ∈ ms → f'.geometry = f.geometry
  id : .id ∈ ms ∨ .value Feature.idKey ∈ ms ∨ .presence Feature.idKey ∈ ms → f'.id = f.id

namespace Feature.AgreeIn

variable {ms : List Mention}

theorem refl (ms : List Mention) (f : Feature) : AgreeIn ms f f where
  value _ _ _ _ := rfl
  presence _ _ _ _ := rfl
  geometry _ := rfl
  id _ := rfl

theorem idScalar (h : AgreeIn ms f f')
    (hm : .id ∈ ms ∨ .value idKey ∈ ms ∨ .presence idKey ∈ ms) : f'.idScalar = f.idScalar := by
  rw [Feature.idScalar, Feature.idScalar, h.id hm]

theorem get (h : AgreeIn ms f f') {name : String} (hm : .value name ∈ ms) :
    f'.get name = f.get name := by
  by_cases htype : name = typeKey
  · subst htype
    rw [Feature.get, Feature.get, if_pos rfl, if_pos rfl, h.geometry (.inr hm)]
  · by_cases hid : name = idKey
    · subst hid
      rw [Feature.get, Feature.get, if_neg htype, if_neg htype, if_pos rfl, if_pos rfl]
      exact h.idScalar (.inr (.inl hm))
    · exact h.value name hm htype hid

theorem has (h : AgreeIn ms f f') {name : String} (hm : .presence name ∈ ms) :
    f'.has name = f.has name := by
  by_cases htype : name = typeKey
  · rw [Feature.has, Feature.has, if_pos htype, if_pos htype]
  · by_cases hid : name = idKey
    · subst hid
      rw [Feature.has, Feature.has, if_neg htype, if_neg htype, if_pos rfl, if_pos rfl,
        h.id (.inr (.inr hm))]
    · exact h.presence name hm htype hid

end Feature.AgreeIn

/-- What is under a name is the same at every zoom unless the zoom is asked for. -/
theorem Expression.eval_get_alike {name : String} (hget : f'.get name = f.get name)
    (hzoom : z' = z ∨ name ≠ zoomKey ∨ f.Carries name) :
    (get name).eval f z = (get name).eval f' z' := by
  rw [eval, eval, hget]
  rcases hzoom with rfl | hname | hcarries
  · rfl
  · simp only [if_neg hname]
  · rw [Feature.get_eq_ofJson]
    cases hv : Scalar.ofJson (f.value name) with
    | error e => rfl
    | ok v =>
      cases v with
      | none => exact absurd hv (Scalar.ofJson_ne_none hcarries)
      | some v => rfl

/-- The filter does not look at the zoom where it decides about the feature. -/
def Filter.IgnoresZoom (a : Filter) (f : Feature) : Prop :=
  .zoom ∉ a.mentions ∧ (.value zoomKey ∉ a.mentions ∨ f.Carries zoomKey)

/-- Features that agree are alike at one zoom, and at any two if the zoom is not looked at. -/
theorem Feature.AgreeIn.alikeIn {a : Filter} (h : Feature.AgreeIn a.mentions f f')
    (hzoom : z' = z ∨ a.IgnoresZoom f) : AlikeIn f z f' z' a.mentions := by
  intro m hm
  cases m with
  | value name =>
    refine Expression.eval_get_alike (h.get hm) (hzoom.imp_right fun hignores => ?_)
    by_cases hname : name = zoomKey
    · subst hname
      exact .inr (hignores.2.resolve_left fun hnot => hnot hm)
    · exact .inl hname
  | presence name => exact (h.has hm).symm
  | zoom =>
    rcases hzoom with rfl | hignores
    · rw [Mention.Alike, Expression.eval, Expression.eval]
    · exact absurd hm hignores.1
  | geometryType => exact (h.geometry (.inl hm)).symm
  | id => exact (h.idScalar (.inl hm)).symm

end StyledTiles
