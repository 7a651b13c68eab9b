import StyledTiles.Json.Reader
import StyledTiles.Proofs.Outcome

/-!
# One member for a key

A value is keyed once when no object in it has two members with one key, at any depth. What is read from
a text always is, whatever the text holds, for of two members with one key the last one counts.

A list of members made otherwise may hold a key twice; then the first one is found under the key.
-/
namespace StyledTiles.Json

open Outcome

mutual

/-- No object in the value has two members with one key. -/
def KeyedOnce : Json → Prop
  | .arr items => ItemsKeyedOnce items
  | .obj members => MembersKeyedOnce members
  | _ => True

def ItemsKeyedOnce : List Json → Prop
  | [] => True
  | j :: js => j.KeyedOnce ∧ ItemsKeyedOnce js

def MembersKeyedOnce : List (String × Json) → Prop
  | [] => True
  | (key, j) :: rest => key ∉ rest.map Prod.fst ∧ j.KeyedOnce ∧ MembersKeyedOnce rest

end

theorem keyedOnce_arr {items : List Json} : (arr items).KeyedOnce ↔ ItemsKeyedOnce items := by
  rw [KeyedOnce]

theorem keyedOnce_obj {ms : Members} : (obj ms).KeyedOnce ↔ MembersKeyedOnce ms := by rw [KeyedOnce]

theorem ItemsKeyedOnce.mem {js : List Json} (h : ItemsKeyedOnce js) {j : Json} (hj : j ∈ js) :
    j.KeyedOnce := by
  induction js with
  | nil => cases hj
  | cons i js ih =>
    rw [ItemsKeyedOnce] at h
    rcases List.mem_cons.mp hj with rfl | hj
    · exact h.1
    · exact ih h.2 hj

theorem MembersKeyedOnce.nodup {ms : Members} (h : MembersKeyedOnce ms) : (ms.map Prod.fst).Nodup := by
  induction ms with
  | nil => exact List.nodup_nil
  | cons m ms ih =>
    rw [MembersKeyedOnce] at h
    exact List.nodup_cons.mpr ⟨h.1, ih h.2.2⟩

/-- A missing member is null, which is keyed once as well. -/
theorem MembersKeyedOnce.member {ms : Members} (h : MembersKeyedOnce ms) (key : String) :
    (Json.member ms key).KeyedOnce := by
  induction ms with
  | nil => simp [Json.member, KeyedOnce]
  | cons m ms ih =>
    obtain ⟨name, j⟩ := m
    rw [MembersKeyedOnce] at h
    by_cases hname : key = name
    · simp [Json.member, hname, h.2.1]
    · have hother : (key == name) = false := by simp [hname]
      simpa [Json.member, List.lookup_cons, hother] using ih h.2.2

/-! ## Setting members -/

theorem mem_keys_setMember {key k : String} {value : Json} {ms : Members} :
    k ∈ (setMember key value ms).map Prod.fst ↔ k = key ∨ k ∈ ms.map Prod.fst := by
  induction ms with
  | nil => simp [setMember]
  | cons m ms ih =>
    obtain ⟨name, j⟩ := m
    rw [setMember]
    by_cases hname : name = key
    · simp [hname]
    · rw [if_neg hname, List.map_cons, List.mem_cons, ih, List.map_cons, List.mem_cons, or_left_comm]

theorem setMember_keyedOnce {key : String} {value : Json} {ms : Members} (hvalue : value.KeyedOnce)
    (h : MembersKeyedOnce ms) : MembersKeyedOnce (setMember key value ms) := by
  induction ms with
  | nil => simp [setMember, MembersKeyedOnce, hvalue]
  | cons m ms ih =>
    obtain ⟨name, j⟩ := m
    rw [MembersKeyedOnce] at h
    rw [setMember]
    by_cases hname : name = key
    · rw [if_pos hname, MembersKeyedOnce]
      exact ⟨h.1, hvalue, h.2.2⟩
    · rw [if_neg hname, MembersKeyedOnce, mem_keys_setMember]
      exact ⟨not_or.mpr ⟨hname, h.1⟩, h.2.1, ih h.2.2⟩

theorem foldl_setMember_keyedOnce {ms done : Members} (hms : ∀ m ∈ ms, m.2.KeyedOnce)
    (hdone : MembersKeyedOnce done) :
    MembersKeyedOnce (ms.foldl (fun done (k, v) => setMember k v done) done) := by
  induction ms generalizing done with
  | nil => exact hdone
  | cons m ms ih =>
    rw [List.forall_mem_cons] at hms
    exact ih hms.2 (setMember_keyedOnce hms.1 hdone)

/-! ## Reading -/

namespace Reader

/-- An array that is not empty. -/
theorem value_openBracket {fuel : Nat} {ts : List Token} (h : ∀ rest, ts ≠ .closeBracket :: rest) :
    value (fuel + 1) (.openBracket :: ts) = (items fuel ts).map fun (vs, rest) => (.arr vs, rest) := by
  rw [value]
  exact h

/-- An object that is not empty. -/
theorem value_openBrace {fuel : Nat} {ts : List Token} (h : ∀ rest, ts ≠ .closeBrace :: rest) :
    value (fuel + 1) (.openBrace :: ts) = (members fuel ts).map fun (ms, rest) =>
      (.obj (ms.foldl (fun done (k, v) => setMember k v done) []), rest) := by
  rw [value]
  exact h

-- By the fuel: each of the three calls the others with less of it.
mutual

theorem value_keyedOnce {fuel : Nat} {ts rest : List Token} {j : Json}
    (h : value fuel ts = .ok (j, rest)) : j.KeyedOnce := by
  match fuel, ts with
  | 0, _ | _ + 1, [] => cases h
  | fuel + 1, t :: ts =>
    cases t with
    | openBracket =>
      by_cases hempty : ∃ after, ts = .closeBracket :: after
      · obtain ⟨after, rfl⟩ := hempty
        cases h
        simp [KeyedOnce, ItemsKeyedOnce]
      · rw [value_openBracket (not_exists.mp hempty)] at h
        obtain ⟨⟨vs, after⟩, hitems, heq⟩ := map_eq_ok.mp h
        cases heq
        exact keyedOnce_arr.mpr (items_keyedOnce hitems)
    | openBrace =>
      by_cases hempty : ∃ after, ts = .closeBrace :: after
      · obtain ⟨after, rfl⟩ := hempty
        cases h
        simp [KeyedOnce, MembersKeyedOnce]
      · rw [value_openBrace (not_exists.mp hempty)] at h
        obtain ⟨⟨ms, after⟩, hmembers, heq⟩ := map_eq_ok.mp h
        cases heq
        refine keyedOnce_obj.mpr (foldl_setMember_keyedOnce (members_keyedOnce hmembers) ?_)
        simp [MembersKeyedOnce]
    | null | bool _ | num _ | str _ =>
      cases h
      simp [KeyedOnce]
    | _ => cases h

theorem items_keyedOnce {fuel : Nat} {ts rest : List Token} {js : List Json}
    (h : items fuel ts = .ok (js, rest)) : ItemsKeyedOnce js := by
  match fuel with
  | 0 => cases h
  | fuel + 1 =>
    rw [items] at h
    split at h
    · cases h
    next v after hvalue =>
      obtain ⟨⟨vs, after'⟩, hitems, heq⟩ := map_eq_ok.mp h
      cases heq
      rw [ItemsKeyedOnce]
      exact ⟨value_keyedOnce hvalue, items_keyedOnce hitems⟩
    next v after hvalue =>
      cases h
      simp [ItemsKeyedOnce, value_keyedOnce hvalue]
    · cases h

theorem members_keyedOnce {fuel : Nat} {ts rest : List Token} {ms : Members}
    (h : members fuel ts = .ok (ms, rest)) : ∀ m ∈ ms, m.2.KeyedOnce := by
  match fuel with
  | 0 => cases h
  | fuel + 1 =>
    unfold members at h
    split at h
    · cases h
    next key ts =>
      split at h
      · cases h
      next v after hvalue =>
        obtain ⟨⟨ms, after'⟩, hmembers, heq⟩ := map_eq_ok.mp h
        cases heq
        exact List.forall_mem_cons.mpr ⟨value_keyedOnce hvalue, members_keyedOnce hmembers⟩
      next v after hvalue =>
        cases h
        simp [value_keyedOnce hvalue]
      · cases h
    · cases h

end

end Reader

/-- What is read from a text has one member for a key. -/
theorem read_keyedOnce {s : String} {j : Json} (h : read s = .ok j) : j.KeyedOnce := by
  rw [read, Reader.document] at h
  split at h
  · cases h
  next v hvalue =>
    cases h
    exact Reader.value_keyedOnce hvalue
  · cases h

end StyledTiles.Json
