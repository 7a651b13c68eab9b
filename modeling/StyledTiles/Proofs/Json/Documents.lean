import StyledTiles.Proofs.Json.Written
import StyledTiles.Proofs.Number.Counting

/-!
# JSON documents

A text is a document when it is made of the tokens of one value, and it holds the value that is meant by
these. A text is read exactly if it is a document, and what is read is what the document holds.

The digits of an integer are bounded here by the number of those that are converted. A document holds
strings of characters: where one escapes a surrogate without its partner, it is held with the replacement
character there, and which surrogate it was is not told apart.
-/
namespace StyledTiles.Json

open Outcome Token

/-- The text is a document that holds the value. -/
def Document (text : String) (v : Json) : Prop :=
  ∃ written : Json, Lexed text.toList written.tokens ∧ v = written.settled

/-! ## The reader finds what is written -/

theorem ne_of_isClosing {t t' : Token} (ht : t.isClosing = false) (ht' : t'.isClosing = true)
    (ts : List Token) : ∀ rest, t :: ts ≠ t' :: rest := by
  rintro rest ⟨⟩
  rw [ht] at ht'
  cases ht'

-- A list needs twice as many steps as it has tokens, and a value one less.
mutual

theorem value_tokens (j : Json) (fuel : Nat) (hfuel : 2 * j.tokens.length ≤ fuel + 1)
    (rest : List Token) : Reader.value fuel (j.tokens ++ rest) = .ok (j.settled, rest) := by
  obtain ⟨fuel, rfl⟩ : ∃ k, fuel = k + 1 := by
    obtain ⟨t, ts, htokens, _⟩ := tokens_head j
    rw [htokens, List.length_cons] at hfuel
    exact ⟨fuel - 1, by omega⟩
  match j with
  | .null | .bool _ | .num _ | .str _ => simp [tokens, settled, Reader.value]
  | .arr [] => simp [tokens, itemsTokens, settled, settledItems, Reader.value]
  | .arr (i :: is) =>
    have hne : i :: is ≠ [] := List.cons_ne_nil i is
    simp only [tokens, List.length_cons, List.length_append, List.length_nil] at hfuel
    have hitems := items_tokens (i :: is) hne fuel (by omega) rest
    obtain ⟨t, ts, htokens, ht⟩ := itemsTokens_head hne
    rw [tokens, List.cons_append, List.append_assoc, List.singleton_append, Reader.value_openBracket,
      hitems, settled]
    · rfl
    · rw [htokens]
      exact ne_of_isClosing ht rfl _
  | .obj [] => simp [tokens, membersTokens, settled, settledMembers, Reader.value]
  | .obj (m :: ms) =>
    have hne : m :: ms ≠ [] := List.cons_ne_nil m ms
    simp only [tokens, List.length_cons, List.length_append, List.length_nil] at hfuel
    have hmembers := members_tokens (m :: ms) hne fuel (by omega) rest
    obtain ⟨t, ts, htokens, ht⟩ := membersTokens_head hne
    rw [tokens, List.cons_append, List.append_assoc, List.singleton_append, Reader.value_openBrace,
      hmembers, settled]
    · rfl
    · rw [htokens]
      exact ne_of_isClosing ht rfl _

theorem items_tokens (js : List Json) (hne : js ≠ []) (fuel : Nat)
    (hfuel : 2 * (itemsTokens js).length ≤ fuel) (rest : List Token) :
    Reader.items fuel (itemsTokens js ++ .closeBracket :: rest) = .ok (settledItems js, rest) := by
  obtain ⟨fuel, rfl⟩ : ∃ k, fuel = k + 1 := by
    obtain ⟨t, ts, htokens, _⟩ := itemsTokens_head hne
    rw [htokens, List.length_cons] at hfuel
    exact ⟨fuel - 1, by omega⟩
  match js with
  | [j] =>
    rw [itemsTokens] at hfuel ⊢
    rw [Reader.items, value_tokens j fuel hfuel]
    rfl
  | j :: k :: js =>
    simp only [itemsTokens, List.length_append, List.length_cons] at hfuel
    have hvalue := value_tokens j fuel (by omega)
    have hitems := items_tokens (k :: js) (List.cons_ne_nil k js) fuel (by omega) rest
    rw [itemsTokens, List.append_assoc, List.cons_append, Reader.items, hvalue]
    simp only [hitems]
    rfl

theorem members_tokens (ms : List (String × Json)) (hne : ms ≠ []) (fuel : Nat)
    (hfuel : 2 * (membersTokens ms).length ≤ fuel) (rest : List Token) :
    Reader.members fuel (membersTokens ms ++ .closeBrace :: rest) = .ok (settledMembers ms, rest) := by
  obtain ⟨fuel, rfl⟩ : ∃ k, fuel = k + 1 := by
    obtain ⟨t, ts, htokens, _⟩ := membersTokens_head hne
    rw [htokens, List.length_cons] at hfuel
    exact ⟨fuel - 1, by omega⟩
  match ms with
  | [(key, j)] =>
    simp only [membersTokens, List.length_cons] at hfuel
    have hvalue := value_tokens j fuel (by omega)
    rw [membersTokens, List.cons_append, List.cons_append, Reader.members, hvalue]
    rfl
  | (key, j) :: m :: ms =>
    simp only [membersTokens, List.length_append, List.length_cons] at hfuel
    have hvalue := value_tokens j fuel (by omega)
    have hmembers := members_tokens (m :: ms) (List.cons_ne_nil m ms) fuel (by omega) rest
    rw [membersTokens, List.cons_append, List.cons_append, List.append_assoc, List.cons_append,
      Reader.members, hvalue]
    simp only [hmembers]
    rfl

end

/-! ## The reader finds nothing else -/

-- By the fuel, as the reader goes.
mutual

theorem value_written {fuel : Nat} {ts rest : List Token} {v : Json}
    (h : Reader.value fuel ts = .ok (v, rest)) :
    ∃ j : Json, ts = j.tokens ++ rest ∧ v = j.settled := by
  match fuel, ts with
  | 0, _ | _ + 1, [] => cases h
  | fuel + 1, t :: ts =>
    cases t with
    | openBracket =>
      by_cases hempty : ∃ after, ts = .closeBracket :: after
      · obtain ⟨after, rfl⟩ := hempty
        cases h
        exact ⟨.arr [], by simp [tokens, itemsTokens], by simp [settled, settledItems]⟩
      · rw [Reader.value_openBracket (not_exists.mp hempty)] at h
        obtain ⟨⟨vs, after⟩, hitems, heq⟩ := map_eq_ok.mp h
        cases heq
        obtain ⟨js, _, rfl, rfl⟩ := items_written hitems
        exact ⟨.arr js, by simp [tokens], by rw [settled]⟩
    | openBrace =>
      by_cases hempty : ∃ after, ts = .closeBrace :: after
      · obtain ⟨after, rfl⟩ := hempty
        cases h
        exact ⟨.obj [], by simp [tokens, membersTokens], by simp [settled, settledMembers]⟩
      · rw [Reader.value_openBrace (not_exists.mp hempty)] at h
        obtain ⟨⟨ms, after⟩, hmembers, heq⟩ := map_eq_ok.mp h
        cases heq
        obtain ⟨js, _, rfl, rfl⟩ := members_written hmembers
        exact ⟨.obj js, by simp [tokens], by rw [settled]⟩
    | null =>
      cases h
      exact ⟨.null, by simp [tokens], by simp [settled]⟩
    | bool b =>
      cases h
      exact ⟨.bool b, by simp [tokens], by simp [settled]⟩
    | num n =>
      cases h
      exact ⟨.num n, by simp [tokens], by simp [settled]⟩
    | str s =>
      cases h
      exact ⟨.str s, by simp [tokens], by simp [settled]⟩
    | _ => cases h

theorem items_written {fuel : Nat} {ts rest : List Token} {vs : List Json}
    (h : Reader.items fuel ts = .ok (vs, rest)) :
    ∃ js, js ≠ [] ∧ ts = itemsTokens js ++ .closeBracket :: rest ∧ vs = settledItems js := by
  match fuel with
  | 0 => cases h
  | fuel + 1 =>
    rw [Reader.items] at h
    split at h
    · cases h
    next v after hvalue =>
      obtain ⟨⟨vs, after'⟩, hitems, heq⟩ := map_eq_ok.mp h
      cases heq
      obtain ⟨j, rfl, rfl⟩ := value_written hvalue
      obtain ⟨js, hne, rfl, rfl⟩ := items_written hitems
      obtain ⟨k, js, rfl⟩ := List.exists_cons_of_ne_nil hne
      exact ⟨j :: k :: js, List.cons_ne_nil j _, by simp [itemsTokens], by simp [settledItems]⟩
    next v after hvalue =>
      cases h
      obtain ⟨j, rfl, rfl⟩ := value_written hvalue
      exact ⟨[j], List.cons_ne_nil j [], by rw [itemsTokens], by simp [settledItems]⟩
    · cases h

theorem members_written {fuel : Nat} {ts rest : List Token} {vs : Members}
    (h : Reader.members fuel ts = .ok (vs, rest)) :
    ∃ ms, ms ≠ [] ∧ ts = membersTokens ms ++ .closeBrace :: rest ∧ vs = settledMembers ms := by
  match fuel with
  | 0 => cases h
  | fuel + 1 =>
    unfold Reader.members at h
    split at h
    · cases h
    next key ts _ =>
      split at h
      · cases h
      next v after hvalue =>
        obtain ⟨⟨vs, after'⟩, hmembers, heq⟩ := map_eq_ok.mp h
        cases heq
        obtain ⟨j, rfl, rfl⟩ := value_written hvalue
        obtain ⟨ms, hne, rfl, rfl⟩ := members_written hmembers
        obtain ⟨m, ms, rfl⟩ := List.exists_cons_of_ne_nil hne
        exact ⟨(key, j) :: m :: ms, List.cons_ne_nil _ _, by simp [membersTokens],
          by simp [settledMembers]⟩
      next v after hvalue =>
        cases h
        obtain ⟨j, rfl, rfl⟩ := value_written hvalue
        exact ⟨[(key, j)], List.cons_ne_nil _ [], by simp [membersTokens], by simp [settledMembers]⟩
      · cases h
    · cases h

end

theorem document_eq_ok {ts : List Token} {v : Json} :
    Reader.document ts = .ok v ↔ ∃ j : Json, ts = j.tokens ∧ v = j.settled := by
  rw [Reader.document]
  constructor
  · intro h
    split at h
    · cases h
    next v hvalue =>
      cases h
      obtain ⟨j, hts, hv⟩ := value_written hvalue
      exact ⟨j, hts.trans (List.append_nil _), hv⟩
    · cases h
  · rintro ⟨j, rfl, rfl⟩
    have hvalue := value_tokens j (2 * j.tokens.length + 1) (by omega) []
    rw [List.append_nil] at hvalue
    rw [hvalue]

/-! ## Integers of too many digits -/

mutual

/-- The reader reports an integer of too many digits only where there is one. -/
theorem value_longInteger {fuel digits : Nat} {ts : List Token}
    (h : Reader.value fuel ts = .error (.longInteger digits)) : .longInteger digits ∈ ts := by
  match fuel, ts with
  | 0, _ | _ + 1, [] => cases h
  | fuel + 1, t :: ts =>
    cases t with
    | longInteger digits' =>
      cases h
      exact List.mem_cons_self
    | openBracket =>
      by_cases hempty : ∃ after, ts = .closeBracket :: after
      · obtain ⟨after, rfl⟩ := hempty
        cases h
      · rw [Reader.value_openBracket (not_exists.mp hempty)] at h
        exact List.mem_cons_of_mem _ (items_longInteger (map_eq_error.mp h))
    | openBrace =>
      by_cases hempty : ∃ after, ts = .closeBrace :: after
      · obtain ⟨after, rfl⟩ := hempty
        cases h
      · rw [Reader.value_openBrace (not_exists.mp hempty)] at h
        exact List.mem_cons_of_mem _ (members_longInteger (map_eq_error.mp h))
    | _ => cases h

theorem items_longInteger {fuel digits : Nat} {ts : List Token}
    (h : Reader.items fuel ts = .error (.longInteger digits)) : .longInteger digits ∈ ts := by
  match fuel with
  | 0 => cases h
  | fuel + 1 =>
    rw [Reader.items] at h
    split at h
    next hvalue =>
      cases h
      exact value_longInteger hvalue
    next v after hvalue =>
      obtain ⟨j, rfl, _⟩ := value_written hvalue
      exact List.mem_append_right _ (List.mem_cons_of_mem _ (items_longInteger (map_eq_error.mp h)))
    · cases h
    · cases h

theorem members_longInteger {fuel digits : Nat} {ts : List Token}
    (h : Reader.members fuel ts = .error (.longInteger digits)) : .longInteger digits ∈ ts := by
  match fuel with
  | 0 => cases h
  | fuel + 1 =>
    unfold Reader.members at h
    split at h
    · cases h
    next key ts _ =>
      refine List.mem_cons_of_mem _ (List.mem_cons_of_mem _ ?_)
      split at h
      next hvalue =>
        cases h
        exact value_longInteger hvalue
      next v after hvalue =>
        obtain ⟨j, rfl, _⟩ := value_written hvalue
        exact List.mem_append_right _ (List.mem_cons_of_mem _ (members_longInteger (map_eq_error.mp h)))
      · cases h
      · cases h
    · cases h

end

/-! ## Reading -/

variable {text : String} {v : Json}

/-- A text is read exactly if it is a document, and then what it holds is read. -/
theorem read_eq_ok (hruns : ShortRuns Text.maxDigits text.toList) :
    read text = .ok v ↔ Document text v := by
  rw [read, document_eq_ok]
  constructor
  · rintro ⟨j, hscan, hv⟩
    have hfaults := tokens_isFault j
    rw [← hscan] at hfaults
    exact ⟨j, hscan ▸ scanWithin_sound hfaults, hv⟩
  · rintro ⟨j, hlexed, hv⟩
    have hend : AfterValue [] := ⟨List.isChain_nil, by simp⟩
    have hchain := tokens_isChain j hend
    rw [List.append_nil] at hchain
    exact ⟨j, scanWithin_complete hlexed hchain hruns (Nat.le_refl _), hv⟩

theorem read_ne_longInteger (hruns : ShortRuns Text.maxDigits text.toList) (digits : Nat) :
    read text ≠ .error (.longInteger digits) := by
  intro h
  rw [read, Reader.document] at h
  split at h
  next hvalue =>
    cases h
    exact scanWithin_longInteger (value_longInteger hvalue) hruns
  · cases h
  · cases h

/-- A text holds one value at most. -/
theorem Document.unique (hruns : ShortRuns Text.maxDigits text.toList) {w : Json}
    (hv : Document text v) (hw : Document text w) : v = w :=
  Except.ok.inj (((read_eq_ok hruns).mpr hv).symm.trans ((read_eq_ok hruns).mpr hw))

/-! ## Integers in range -/

/-- The most digits in a row with which every integer is in range. -/
def digitsInRange : Nat := 300

theorem fits_of_natAbs_lt {n : Int} (h : n.natAbs < 10 ^ digitsInRange) : (Number.int n).Fits := by
  have hlog : n.natAbs.log2 < 1023 := by
    by_cases hn : n.natAbs = 0
    · simp [hn]
    · exact (Nat.log2_lt hn).mpr (Nat.lt_trans h (by decide +kernel))
  refine ⟨.finite (n < 0) ⟨Binary64.nearestRank n.natAbs 1, Binary64.nearestRank_lt_of_log2_lt hlog⟩, ?_⟩
  rw [Number.toBinary64, Binary64.ofInt?, Binary64.nearest, dif_pos (Binary64.nearestRank_lt_of_log2_lt hlog)]

/-- What a document holds fits where its runs of digits are short. -/
theorem Document.fits (h : Document text v) (hruns : ShortRuns digitsInRange text.toList) : v.Fits := by
  obtain ⟨j, hlexed, rfl⟩ := h
  exact settled_fits j (fits_of_tokens j fun n hn => fits_of_natAbs_lt (hlexed.natAbs_lt hruns hn))

end StyledTiles.Json
