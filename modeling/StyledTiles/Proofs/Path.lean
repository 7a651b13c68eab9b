import StyledTiles.Path

/-!
# Normal path texts

A normal text is a root and proper parts between slashes. The same root and the same parts are read off
it again, so a text that is brought into its normal form twice is as after the first time, and no
characters but slashes and dots can come in.

Whether two texts name one file is not said: links are not followed.
-/
namespace StyledTiles.Path

/-- Parts as they stand in a normal text. -/
def AreProper (ps : List (List Char)) : Prop := ∀ p ∈ ps, isProper p = true ∧ '/' ∉ p

/-- A part holds characters of the text, and no slash. -/
theorem of_mem_parts {cs p : List Char} (h : p ∈ parts cs) : ∀ c ∈ p, c ≠ '/' ∧ c ∈ cs := by
  induction cs generalizing p with
  | nil =>
    obtain rfl : p = [] := by simpa [parts] using h
    simp
  | cons d cs ih =>
    have later : ∀ q ∈ parts cs, ∀ c ∈ q, c ≠ '/' ∧ c ∈ d :: cs := by
      intro q hq c hc
      exact ⟨(ih hq c hc).1, List.mem_cons_of_mem d (ih hq c hc).2⟩
    rw [parts, List.splitOn_cons_eq_if_modifyHead] at h
    by_cases hd : d = '/'
    · simp only [hd, beq_self_eq_true, if_true, List.mem_cons] at h
      rcases h with rfl | h
      · simp
      · exact later p h
    · obtain ⟨q, qs, hparts⟩ := List.exists_cons_of_ne_nil (List.splitOn_ne_nil '/' cs)
      simp only [beq_iff_eq, hd, if_false, hparts, List.modifyHead_cons, List.mem_cons] at h
      rcases h with rfl | h
      · have hq := later q (by rw [parts, hparts]; exact List.mem_cons_self)
        rw [List.forall_mem_cons]
        exact ⟨⟨hd, List.mem_cons_self⟩, hq⟩
      · exact later p (by rw [parts, hparts]; exact List.mem_cons_of_mem q h)

theorem areProper_filter (cs : List Char) : AreProper ((parts cs).filter isProper) := by
  intro p hp
  obtain ⟨hmem, hproper⟩ := List.mem_filter.mp hp
  exact ⟨hproper, fun hslash => (of_mem_parts hmem '/' hslash).1 rfl⟩

/-- What stands after the root of a normal text. -/
def body (ps : List (List Char)) : List Char := ['/'].intercalate ps

variable {ps : List (List Char)}

theorem proper_parts_body (h : AreProper ps) : (parts (body ps)).filter isProper = ps := by
  cases ps with
  | nil => rfl
  | cons p rest =>
    have hsplit : parts (body (p :: rest)) = p :: rest :=
      List.splitOn_intercalate '/' (fun q hq => (h q hq).2) (List.cons_ne_nil p rest)
    rw [hsplit, List.filter_eq_self]
    exact fun q hq => (h q hq).1

theorem body_head_ne_slash (h : AreProper ps) : (body ps).head? ≠ some '/' := by
  cases ps with
  | nil => simp [body]
  | cons p rest =>
    obtain ⟨hproper, hslash⟩ := h p List.mem_cons_self
    cases p with
    | nil => simp [isProper] at hproper
    | cons c cs =>
      have hhead : (body ((c :: cs) :: rest)).head? = some c := by
        cases rest with
        | nil => simp [body]
        | cons q qs => simp [body]
      rw [hhead]
      rintro ⟨rfl⟩
      exact hslash List.mem_cons_self

/-! ## Roots -/

theorem root_cases (cs : List Char) : root cs = [] ∨ root cs = ['/'] ∨ root cs = ['/', '/'] := by
  unfold root
  split
  · exact .inr (.inl rfl)
  · exact .inr (.inr rfl)
  · exact .inr (.inl rfl)
  · exact .inl rfl

/-- A root is read off the text that starts with it. -/
theorem root_append {r b : List Char} (hr : r = [] ∨ r = ['/'] ∨ r = ['/', '/'])
    (hb : b.head? ≠ some '/') : root (r ++ b) = r := by
  cases b with
  | nil => rcases hr with rfl | rfl | rfl <;> rfl
  | cons c cs =>
    have hc : c ≠ '/' := by
      rintro rfl
      exact hb rfl
    rcases hr with rfl | rfl | rfl <;> simp [root, hc]

theorem parts_slash (cs : List Char) : parts ('/' :: cs) = [] :: parts cs := by
  rw [parts, List.splitOn_cons_eq_if_modifyHead]
  simp [parts]

/-- The empty parts of a root are not proper. -/
theorem proper_parts_root {r : List Char} (hr : r = [] ∨ r = ['/'] ∨ r = ['/', '/'])
    (b : List Char) : (parts (r ++ b)).filter isProper = (parts b).filter isProper := by
  rcases hr with rfl | rfl | rfl
  · rfl
  · simp [parts_slash, isProper]
  · simp [parts_slash, isProper]

/-! ## Normal texts -/

theorem normalChars_eq (cs : List Char) :
    normalChars cs = if root cs ++ body ((parts cs).filter isProper) = [] then ['.']
      else root cs ++ body ((parts cs).filter isProper) := by
  unfold normalChars
  split
  · rename_i h
    rw [body, h, if_pos rfl]
  · rename_i h
    rw [body, if_neg h]

theorem normalChars_normalChars (cs : List Char) : normalChars (normalChars cs) = normalChars cs := by
  have hproper := areProper_filter cs
  have hroot := root_append (root_cases cs) (body_head_ne_slash hproper)
  have hparts := proper_parts_root (root_cases cs) (body ((parts cs).filter isProper))
  rw [proper_parts_body hproper] at hparts
  rw [normalChars_eq cs]
  split
  · rfl
  · rename_i hne
    rw [normalChars_eq, hroot, hparts, if_neg hne]

/-- A normal text is normal. -/
theorem normal_normal (s : String) : normal (normal s) = normal s := by
  rw [normal, normal, String.toList_ofList, normalChars_normalChars]

theorem mem_body {c : Char} (h : c ∈ body ps) : c = '/' ∨ ∃ p ∈ ps, c ∈ p := by
  induction ps with
  | nil => cases h
  | cons p rest ih =>
    cases rest with
    | nil => exact .inr ⟨p, List.mem_cons_self, by simpa [body] using h⟩
    | cons q qs =>
      have hsplit : body (p :: q :: qs) = p ++ '/' :: body (q :: qs) := by simp [body]
      rw [hsplit, List.mem_append, List.mem_cons] at h
      rcases h with h | rfl | h
      · exact .inr ⟨p, List.mem_cons_self, h⟩
      · exact .inl rfl
      · rcases ih h with rfl | ⟨r, hr, hc⟩
        · exact .inl rfl
        · exact .inr ⟨r, List.mem_cons_of_mem p hr, hc⟩

theorem mem_normalChars {cs : List Char} {c : Char} (h : c ∈ normalChars cs) :
    c = '.' ∨ c = '/' ∨ c ∈ cs := by
  rw [normalChars_eq] at h
  split at h
  · exact .inl (List.mem_singleton.mp h)
  · rcases List.mem_append.mp h with h | h
    · rcases root_cases cs with hroot | hroot | hroot
      · simp [hroot] at h
      · exact .inr (.inl (by simpa [hroot] using h))
      · exact .inr (.inl (by simpa [hroot] using h))
    · rcases mem_body h with rfl | ⟨p, hp, hc⟩
      · exact .inr (.inl rfl)
      · exact .inr (.inr (of_mem_parts (List.mem_filter.mp hp).1 c hc).2)

/-- A text without a null character has a normal text that can name a file. -/
theorem isUsable_normal {s : String} (h : '\x00' ∉ s.toList) : isUsable (normal s) = true := by
  have hnormal : '\x00' ∉ (normal s).toList := by
    rw [normal, String.toList_ofList]
    intro hmem
    rcases mem_normalChars hmem with heq | heq | hmem
    · exact absurd heq (by decide)
    · exact absurd heq (by decide)
    · exact h hmem
  simpa [isUsable] using hnormal

end StyledTiles.Path
