import StyledTiles.Filter.Basic

/-!
# Induction over filters and expressions

Expressions and filters contain each other, and both contain lists. What holds of a tree whenever it
holds of its parts holds of every tree: `ByParts` names one step for each form of a tree, in which the
parts that stand in a list are given by their membership.

A property of filters that does not look into keys needs only the steps of `Filter.induct`.
-/
namespace StyledTiles

/-- A property of expressions and one of filters that pass from the parts of a tree to the tree. -/
structure ByParts (P : Expression → Prop) (Q : Filter → Prop) : Prop where
  get : ∀ name, P (.get name)
  literal : ∀ v, P (.literal v)
  zoom : P .zoom
  geometryType : P .geometryType
  id : P .id
  switch : ∀ {input cases fallback}, P input → (∀ c ∈ cases, P c.2) → P fallback →
    P (.switch input cases fallback)
  choose : ∀ {branches fallback}, (∀ b ∈ branches, Q b.1 ∧ P b.2) → P fallback →
    P (.choose branches fallback)
  coalesce : ∀ {candidates}, (∀ e ∈ candidates, P e) → P (.coalesce candidates)
  compare : ∀ negated {key} value, P key → Q (.compare negated key value)
  member : ∀ negated {key} values, P key → Q (.member negated key values)
  present : ∀ negated key, Q (.present negated key)
  combine : ∀ how {filters}, (∀ a ∈ filters, Q a) → Q (.combine how filters)
  unknown : Q .unknown

namespace ByParts

variable {P : Expression → Prop} {Q : Filter → Prop}

mutual

theorem expression (h : ByParts P Q) : ∀ e : Expression, P e
  | .get name => h.get name
  | .literal v => h.literal v
  | .zoom => h.zoom
  | .geometryType => h.geometryType
  | .id => h.id
  | .switch input cases fallback =>
    h.switch (expression h input) (outputs h cases) (expression h fallback)
  | .choose branches fallback => h.choose (chosen h branches) (expression h fallback)
  | .coalesce candidates => h.coalesce (expressions h candidates)

theorem outputs (h : ByParts P Q) : ∀ cases : List (List Scalar × Expression), ∀ c ∈ cases, P c.2
  | [] => fun _ hc => nomatch hc
  | (_, output) :: rest => List.forall_mem_cons.mpr ⟨expression h output, outputs h rest⟩

theorem chosen (h : ByParts P Q) :
    ∀ branches : List (Filter × Expression), ∀ b ∈ branches, Q b.1 ∧ P b.2
  | [] => fun _ hb => nomatch hb
  | (condition, output) :: rest =>
    List.forall_mem_cons.mpr ⟨⟨filter h condition, expression h output⟩, chosen h rest⟩

theorem expressions (h : ByParts P Q) : ∀ candidates : List Expression, ∀ e ∈ candidates, P e
  | [] => fun _ he => nomatch he
  | e :: rest => List.forall_mem_cons.mpr ⟨expression h e, expressions h rest⟩

theorem filter (h : ByParts P Q) : ∀ a : Filter, Q a
  | .compare negated key value => h.compare negated value (expression h key)
  | .member negated key values => h.member negated values (expression h key)
  | .present negated key => h.present negated key
  | .combine how filters => h.combine how (allFilters h filters)
  | .unknown => h.unknown

theorem allFilters (h : ByParts P Q) : ∀ filters : List Filter, ∀ a ∈ filters, Q a
  | [] => fun _ ha => nomatch ha
  | a :: rest => List.forall_mem_cons.mpr ⟨filter h a, allFilters h rest⟩

end

end ByParts

/-- Induction over the connectives of a filter. -/
@[elab_as_elim]
theorem Filter.induct {Q : Filter → Prop}
    (compare : ∀ negated key value, Q (.compare negated key value))
    (member : ∀ negated key values, Q (.member negated key values))
    (present : ∀ negated key, Q (.present negated key))
    (combine : ∀ how filters, (∀ a ∈ filters, Q a) → Q (.combine how filters))
    (unknown : Q .unknown) (a : Filter) : Q a := by
  have parts : ByParts (fun _ => True) Q :=
    { get := fun _ => trivial, literal := fun _ => trivial, zoom := trivial
      geometryType := trivial, id := trivial
      switch := fun _ _ _ => trivial, choose := fun _ _ => trivial, coalesce := fun _ => trivial
      compare := fun negated key value _ => compare negated key value
      member := fun negated key values _ => member negated key values
      present, combine := fun how filters h => combine how filters h, unknown }
  exact parts.filter a

end StyledTiles
