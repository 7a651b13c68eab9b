import StyledTiles.Feature
import StyledTiles.Proofs.Outcome

/-!
# Numbers in range

An integer fits when a binary64 number can hold it; a binary64 number always does. A JSON value fits
when all integers in it do, at any depth, and a feature when its identifier and its properties do.
Where everything fits, every scalar can be read.

Nothing is said here about what is read, only that reading does not fail.
-/
namespace StyledTiles

open Outcome

/-- The number can be held as a binary64 number. -/
def Number.Fits (n : Number) : Prop := ∃ x, n.toBinary64 = .ok x

instance (n : Number) : Decidable n.Fits :=
  match h : n.toBinary64 with
  | .ok x => isTrue ⟨x, h⟩
  | .error _ => isFalse fun ⟨_, hx⟩ => by rw [h] at hx; cases hx

mutual

/-- All integers of the value fit, at any depth. -/
def Json.Fits : Json → Prop
  | .num n => n.Fits
  | .arr items => Json.ItemsFit items
  | .obj members => Json.MembersFit members
  | _ => True

def Json.ItemsFit : List Json → Prop
  | [] => True
  | j :: js => j.Fits ∧ Json.ItemsFit js

def Json.MembersFit : List (String × Json) → Prop
  | [] => True
  | (_, j) :: rest => j.Fits ∧ Json.MembersFit rest

end

namespace Json

theorem fits_arr {items : List Json} : (arr items).Fits ↔ ItemsFit items := by rw [Fits]

theorem fits_num {n : Number} : (num n).Fits ↔ n.Fits := by rw [Fits]

@[simp] theorem fits_null : null.Fits := by simp [Fits]

@[simp] theorem fits_bool (b : Bool) : (bool b).Fits := by simp [Fits]

@[simp] theorem fits_str (s : String) : (str s).Fits := by simp [Fits]

@[simp] theorem itemsFit_nil : ItemsFit [] := by simp [ItemsFit]

@[simp] theorem itemsFit_cons {j : Json} {js : List Json} :
    ItemsFit (j :: js) ↔ j.Fits ∧ ItemsFit js := by rw [ItemsFit]

theorem itemsFit_iff {js : List Json} : ItemsFit js ↔ ∀ j ∈ js, j.Fits := by
  induction js with
  | nil => simp
  | cons j js ih => rw [itemsFit_cons, List.forall_mem_cons, ih]

theorem itemsFit_append {js ks : List Json} : ItemsFit (js ++ ks) ↔ ItemsFit js ∧ ItemsFit ks := by
  simp only [itemsFit_iff, List.forall_mem_append]

theorem fits_of_mem {items : List Json} {j : Json} (h : (arr items).Fits) (hj : j ∈ items) : j.Fits :=
  itemsFit_iff.mp (fits_arr.mp h) j hj

/-- A missing member is null, so it fits as well. -/
theorem MembersFit.member {members : Members} (h : MembersFit members) (key : String) :
    (Json.member members key).Fits := by
  induction members with
  | nil => simp [Json.member]
  | cons m rest ih =>
    obtain ⟨name, j⟩ := m
    rw [MembersFit] at h
    by_cases hk : key = name
    · simp [Json.member, hk, h.1]
    · have hb : (key == name) = false := by simp [hk]
      simpa [Json.member, List.lookup_cons, hb] using ih h.2

end Json

namespace Scalar

theorem ofNumber_ok {n : Number} (h : n.Fits) : ∃ v, ofNumber n = .ok v := by
  obtain ⟨x, hx⟩ := h
  exact ⟨.number x, by simp [ofNumber, hx, Except.map]⟩

theorem ofJson_ok {j : Json} (h : j.Fits) : ∃ v, ofJson j = .ok v := by
  cases j with
  | num n =>
    obtain ⟨v, hv⟩ := ofNumber_ok (Json.fits_num.mp h)
    exact ⟨some v, by simp [ofJson, hv, Except.map]⟩
  | null => exact ⟨none, rfl⟩
  | bool b => exact ⟨some (.boolean b), rfl⟩
  | str s => exact ⟨some (.string s), rfl⟩
  | arr items => exact ⟨none, rfl⟩
  | obj members => exact ⟨none, rfl⟩

end Scalar

/-- The identifier and all properties fit. -/
structure Feature.Fits (f : Feature) : Prop where
  id : f.id.Fits
  properties : Json.MembersFit f.properties

namespace Feature

variable {f : Feature}

theorem idScalar_ok (h : f.Fits) : ∃ v, f.idScalar = .ok v := Scalar.ofJson_ok h.id

theorem get_ok (h : f.Fits) (key : String) : ∃ v, f.get key = .ok v := by
  unfold get
  split
  · exact ⟨_, rfl⟩
  · split
    · exact idScalar_ok h
    · exact Scalar.ofJson_ok (h.properties.member key)

end Feature

/-- A lake of which nothing but its depth is known, and that is out of range. -/
def fathomlessLake : Feature := { properties := [("depth", .int (1 <<< 1024))] }

end StyledTiles
