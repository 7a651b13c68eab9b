import StyledTiles.Proofs.Filter.Rewritten

/-!
# Two spellings of keys and lists

The key of a comparison or of a membership filter may be a bare name or the expression that gets the
property of that name. The values of a membership filter may follow the key one by one, or be one array,
itself or as a literal. Whichever spelling is used at whichever filters, the same filter is read. It does
not matter whether these filters, the ones around them or the keys they stand in are well formed.

An array among the values is not put into another one, since it would be the list there.
-/
namespace StyledTiles

namespace Json

/-- A bare name is spelled as the property of that name. -/
inductive KeyRespelled : Json → Json → Prop
  | property (name : String) : KeyRespelled (.str name) (.arr [.str "get", .str name])

/-- Values that follow each other, none of them an array, are put into one array. -/
inductive ListedRespelled : List Json → List Json → Prop
  | same (js : List Json) : ListedRespelled js js
  | array {js : List Json} (hsome : js ≠ []) (hflat : ∀ j ∈ js, ∀ items, j ≠ .arr items) :
      ListedRespelled js [.arr js]
  | literal {js : List Json} (hsome : js ≠ []) (hflat : ∀ j ∈ js, ∀ items, j ≠ .arr items) :
      ListedRespelled js [.arr [.str "literal", .arr js]]

/-- Spelling keys as expressions and lists of values as arrays. -/
def respelling : Rewriting where
  operand := Eq
  listed := ListedRespelled
  label := Eq
  key := KeyRespelled
  expression := Eq

theorem ListedRespelled.eq_nil_iff {js ks : List Json} (h : ListedRespelled js ks) :
    ks = [] ↔ js = [] := by
  cases h with
  | same => exact Iff.rfl
  | array hsome _ | literal hsome _ => simp [hsome]

end Json

namespace Filter.Reader

open Json (KeyRespelled ListedRespelled respelling)

theorem listed_of_flat {js : List Json} (hflat : ∀ j ∈ js, ∀ items, j ≠ .arr items) :
    listed js = operands js := by
  rw [listed]
  rintro items rfl
  exact hflat (.arr items) (by simp) items rfl

/-- The array is not taken for a wrapped one, even if the first of the values is the word "literal". -/
theorem listed_array_of_flat {js : List Json} (hflat : ∀ j ∈ js, ∀ items, j ≠ .arr items) :
    listed [.arr js] = operands js := by
  rw [listed]
  split
  next items hitems =>
    obtain rfl := unwrap?_eq_some.mp hitems
    exact absurd rfl (hflat (.arr items) (by simp) items)
  · rfl

theorem listed_respelled {js ks : List Json} (h : ListedRespelled js ks) : listed ks = listed js := by
  cases h with
  | same => rfl
  | array _ hflat => rw [listed_of_flat hflat, listed_array_of_flat hflat]
  | literal _ hflat =>
    rw [listed_of_flat hflat]
    rfl

theorem key_respelled {j k : Json} (h : KeyRespelled j k) :
    key k (expression k) = key j (expression j) := by
  cases h with
  | property name => rfl

theorem preserves_respelling : Preserves respelling where
  operand := by
    rintro j _ rfl
    rfl
  listed := listed_respelled
  label := by
    rintro j _ rfl
    rfl
  key := key_respelled
  expression := by
    rintro j _ rfl
    rfl

end Filter.Reader

/-- Keys and lists may be respelled at any depth of a value, be it a well-formed filter or not, and the
same filter is read. -/
theorem spellings_read_alike {j k : Json} (h : Json.FilterRewritten Json.respelling j k) :
    Filter.ofJson k = Filter.ofJson j :=
  Filter.ofJson_rewritten Filter.Reader.preserves_respelling h

/-! ## Paths by surface and class -/

/-- Keys are names here, and values follow them. The second filter compares with nothing. -/
def pathsByName : Json := .arr [.str "none",
  .arr [.str "!in", .str "surface", .str "literal", .str "gravel"],
  .arr [.str "==", .str "bridge"],
  .arr [.str "in",
    .arr [.str "case", .arr [.str "!=", .str "ford", .bool true], .arr [.str "get", .str "class"],
      .str "ford"],
    .str "path", .str "track"]]

/-- Keys are expressions here, and values are in arrays. The first array reads like a wrapped constant. -/
def pathsByExpression : Json := .arr [.str "none",
  .arr [.str "!in", .arr [.str "get", .str "surface"], .arr [.str "literal", .str "gravel"]],
  .arr [.str "==", .arr [.str "get", .str "bridge"]],
  .arr [.str "in",
    .arr [.str "case", .arr [.str "!=", .arr [.str "get", .str "ford"], .bool true],
      .arr [.str "get", .str "class"], .str "ford"],
    .arr [.str "literal", .arr [.str "path", .str "track"]]]]

/-- What both of them are read as. -/
def paths : Filter := .combine .none [
  .member true (.get "surface") [.string "literal", .string "gravel"],
  .unknown,
  .member false
    (.choose [(.compare true (.get "ford") (.boolean true), .get "class")] (.literal (.string "ford")))
    [.string "path", .string "track"]]

theorem paths_in_both_spellings : Json.FilterRewritten Json.respelling pathsByName pathsByExpression ∧
    Filter.ofJson pathsByName = .ok (some paths) ∧
    Filter.ofJson pathsByExpression = .ok (some paths) := by
  have name (s : String) :
      Json.KeyRewritten Json.respelling (.str s) (.arr [.str "get", .str s]) :=
    .replaced (.property s)
  have surfaces : Json.ListedRespelled [.str "literal", .str "gravel"]
      [.arr [.str "literal", .str "gravel"]] := .array (by simp) (by simp)
  have classes : Json.ListedRespelled [.str "path", .str "track"]
      [.arr [.str "literal", .arr [.str "path", .str "track"]]] := .literal (by simp) (by simp)
  have unforded : Json.BranchesRewritten Json.respelling
      [.arr [.str "!=", .str "ford", .bool true], .arr [.str "get", .str "class"], .str "ford"]
      [.arr [.str "!=", .arr [.str "get", .str "ford"], .bool true], .arr [.str "get", .str "class"],
        .str "ford"] :=
    .pair (.compare true (name "ford") (.cons rfl .nil)) (.same _) (.fallback (.same _))
  have respelled : Json.FilterRewritten Json.respelling pathsByName pathsByExpression :=
    .combine .none (.cons (.member true (name "surface") surfaces surfaces.eq_nil_iff)
      (.cons (.compare false (name "bridge") .nil)
        (.cons (.member false (.expression (.choose unforded)) classes classes.eq_nil_iff) .nil)))
  have read : Filter.ofJson pathsByName = .ok (some paths) := rfl
  exact ⟨respelled, read, (spellings_read_alike respelled).trans read⟩

end StyledTiles
