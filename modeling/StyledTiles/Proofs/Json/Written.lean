import StyledTiles.Proofs.Json.Keys
import StyledTiles.Proofs.Json.Lexemes
import StyledTiles.Proofs.Range

/-!
# Written values

The tokens by which a value is written, and the value that is meant by them. A value may be written with
several members under one key; what is meant has one of them, the last. The tokens are ones that texts
spell, no number among them goes on with the token after it, and their integers are those of the value.
-/
namespace StyledTiles.Json

open Token

/-! ## Grammar -/

mutual

/-- The tokens by which a value is written, with all members in their order. -/
def tokens : Json → List Token
  | .null => [.null]
  | .bool b => [.bool b]
  | .num n => [.num n]
  | .str s => [.str s]
  | .arr items => .openBracket :: (itemsTokens items ++ [.closeBracket])
  | .obj members => .openBrace :: (membersTokens members ++ [.closeBrace])

def itemsTokens : List Json → List Token
  | [] => []
  | [j] => tokens j
  | j :: k :: rest => tokens j ++ .comma :: itemsTokens (k :: rest)

def membersTokens : List (String × Json) → List Token
  | [] => []
  | [(key, j)] => .str key :: .colon :: tokens j
  | (key, j) :: m :: rest => .str key :: .colon :: (tokens j ++ .comma :: membersTokens (m :: rest))

end

mutual

/-- A value with one member for a key, the last that is written, at any depth. -/
def settled : Json → Json
  | .arr items => .arr (settledItems items)
  | .obj members => .obj ((settledMembers members).foldl (fun done (k, v) => setMember k v done) [])
  | j => j

def settledItems : List Json → List Json
  | [] => []
  | j :: rest => settled j :: settledItems rest

def settledMembers : List (String × Json) → Members
  | [] => []
  | (key, j) :: rest => (key, settled j) :: settledMembers rest

end

/-! ## The last member counts -/

theorem lookup_member (key k : String) (v : Json) (ms : Members) :
    List.lookup key ((k, v) :: ms) = if key = k then some v else ms.lookup key := by
  by_cases hkey : key = k
  · simp [hkey]
  · have hother : (key == k) = false := by simp [hkey]
    simp [List.lookup_cons, hother, hkey]

theorem lookup_setMember (key k : String) (v : Json) (ms : Members) :
    (setMember k v ms).lookup key = if key = k then some v else ms.lookup key := by
  induction ms with
  | nil => rw [setMember, lookup_member]
  | cons m ms ih =>
    obtain ⟨name, w⟩ := m
    rw [setMember]
    by_cases hname : name = k
    · subst hname
      rw [if_pos rfl, lookup_member, lookup_member]
      split <;> rfl
    · rw [if_neg hname, lookup_member, lookup_member, ih]
      by_cases hkey : key = name
      · simp [hkey, hname]
      · simp [hkey]

/-- Of the members under a key the last is found. -/
theorem lookup_foldl_setMember (ms done : Members) (key : String) :
    (ms.foldl (fun done (k, v) => setMember k v done) done).lookup key =
      (ms.reverse.lookup key).or (done.lookup key) := by
  induction ms generalizing done with
  | nil => rfl
  | cons m ms ih =>
    obtain ⟨name, v⟩ := m
    rw [List.foldl_cons, ih, lookup_setMember, List.reverse_cons, List.lookup_append, lookup_member]
    by_cases hkey : key = name
    · simp [hkey]
    · simp [hkey]

/-- Where a key is written more than once, its last member is settled on. -/
theorem member_settled (ms : Members) (key : String) :
    ∃ done, (obj ms).settled = .obj done ∧
      member done key = ((ms.reverse.lookup key).map settled).getD .null := by
  refine ⟨_, by rw [settled], ?_⟩
  have hmap : settledMembers ms = ms.map fun m => (m.1, m.2.settled) := by
    induction ms with
    | nil => simp [settledMembers]
    | cons m ms ih =>
      obtain ⟨name, j⟩ := m
      rw [settledMembers, ih, List.map_cons]
  have hlookup : ∀ ns : Members,
      (ns.map fun m => (m.1, m.2.settled)).lookup key = (ns.lookup key).map settled := by
    intro ns
    induction ns with
    | nil => rfl
    | cons m ns ih =>
      obtain ⟨name, j⟩ := m
      rw [List.map_cons, lookup_member, lookup_member, ih]
      split <;> rfl
  rw [member, lookup_foldl_setMember, hmap, ← List.map_reverse, hlookup]
  simp

/-! ## Tokens of values -/

variable {j v : Json} {js vs : List Json} {ts rest : List Token}

theorem tokens_head (j : Json) : ∃ t ts, j.tokens = t :: ts ∧ t.isClosing = false := by
  cases j <;> exact ⟨_, _, by rw [tokens], rfl⟩

theorem itemsTokens_head (h : js ≠ []) :
    ∃ t ts, itemsTokens js = t :: ts ∧ t.isClosing = false := by
  match js with
  | [j] =>
    rw [itemsTokens]
    exact tokens_head j
  | j :: k :: js =>
    obtain ⟨t, ts, htokens, ht⟩ := tokens_head j
    exact ⟨t, _, by rw [itemsTokens, htokens]; rfl, ht⟩

theorem membersTokens_head {ms : Members} (h : ms ≠ []) :
    ∃ t ts, membersTokens ms = t :: ts ∧ t.isClosing = false := by
  match ms with
  | [(key, j)] => exact ⟨_, _, by rw [membersTokens], rfl⟩
  | (key, j) :: m :: ms => exact ⟨_, _, by rw [membersTokens], rfl⟩

-- By the value: each list is taken apart into its first entry and the others.
mutual

/-- A value is written with tokens that texts spell. -/
theorem tokens_isFault (j : Json) : ∀ t ∈ j.tokens, t.isFault = false := by
  match j with
  | .null | .bool _ | .num _ | .str _ => simp [tokens, isFault]
  | .arr items => simpa [tokens, or_imp, forall_and, isFault] using itemsTokens_isFault items
  | .obj members => simpa [tokens, or_imp, forall_and, isFault] using membersTokens_isFault members

theorem itemsTokens_isFault (js : List Json) : ∀ t ∈ itemsTokens js, t.isFault = false := by
  match js with
  | [] => simp [itemsTokens]
  | [j] => simpa [itemsTokens] using tokens_isFault j
  | j :: k :: js =>
    simpa [itemsTokens, or_imp, forall_and, isFault] using
      And.intro (tokens_isFault j) (itemsTokens_isFault (k :: js))

theorem membersTokens_isFault (ms : List (String × Json)) :
    ∀ t ∈ membersTokens ms, t.isFault = false := by
  match ms with
  | [] => simp [membersTokens]
  | [(key, j)] => simpa [membersTokens, isFault] using tokens_isFault j
  | (key, j) :: m :: ms =>
    simpa [membersTokens, or_imp, forall_and, isFault] using
      And.intro (tokens_isFault j) (membersTokens_isFault (m :: ms))

end

/-- The tokens that follow a value, if there are any. -/
def AfterValue (ts : List Token) : Prop :=
  ts.IsChain Follows ∧ ∀ t, ts.head? = some t → t.isClosing = true

theorem AfterValue.cons {t : Token} (ht : t.isClosing = true) (h : ts.IsChain Follows) :
    AfterValue (t :: ts) := by
  refine ⟨List.isChain_cons.mpr ⟨?_, h⟩, ?_⟩
  · rintro _ _ ⟨n, rfl⟩
    cases ht
  · rintro _ ⟨⟩
    exact ht

/-- Tokens before which no number ends. -/
theorem isChain_cons_of_not_num {t : Token} (ht : ∀ n, t ≠ .num n) (h : ts.IsChain Follows) :
    (t :: ts).IsChain Follows :=
  List.isChain_cons.mpr ⟨fun _ _ ⟨n, hn⟩ => absurd hn (ht n), h⟩

mutual

/-- No number in a value goes on with what follows it. -/
theorem tokens_isChain (j : Json) {rest : List Token} (h : AfterValue rest) :
    (j.tokens ++ rest).IsChain Follows := by
  match j with
  | .num n => exact List.isChain_cons.mpr ⟨fun t ht _ => h.2 t ht, h.1⟩
  | .null | .bool _ | .str _ => exact isChain_cons_of_not_num nofun h.1
  | .arr items =>
    have hclosed : AfterValue (.closeBracket :: rest) := .cons rfl h.1
    rw [tokens, List.cons_append, List.append_assoc]
    exact isChain_cons_of_not_num nofun (itemsTokens_isChain items hclosed)
  | .obj members =>
    have hclosed : AfterValue (.closeBrace :: rest) := .cons rfl h.1
    rw [tokens, List.cons_append, List.append_assoc]
    exact isChain_cons_of_not_num nofun (membersTokens_isChain members hclosed)

theorem itemsTokens_isChain (js : List Json) {rest : List Token} (h : AfterValue rest) :
    (itemsTokens js ++ rest).IsChain Follows := by
  match js with
  | [] => exact h.1
  | [j] =>
    rw [itemsTokens]
    exact tokens_isChain j h
  | j :: k :: js =>
    rw [itemsTokens, List.append_assoc]
    exact tokens_isChain j (.cons rfl (itemsTokens_isChain (k :: js) h))

theorem membersTokens_isChain (ms : List (String × Json)) {rest : List Token} (h : AfterValue rest) :
    (membersTokens ms ++ rest).IsChain Follows := by
  match ms with
  | [] => exact h.1
  | [(key, j)] =>
    rw [membersTokens]
    exact isChain_cons_of_not_num nofun (isChain_cons_of_not_num nofun (tokens_isChain j h))
  | (key, j) :: m :: ms =>
    rw [membersTokens, List.cons_append, List.cons_append, List.append_assoc]
    exact isChain_cons_of_not_num nofun (isChain_cons_of_not_num nofun
      (tokens_isChain j (.cons rfl (membersTokens_isChain (m :: ms) h))))

end

/-! ## Integers in range -/

mutual

/-- A value fits when the integers do that it is written with. -/
theorem fits_of_tokens (j : Json) (h : ∀ n, .num (.int n) ∈ j.tokens → (Number.int n).Fits) :
    j.Fits := by
  match j with
  | .null | .bool _ | .str _ => simp
  | .num (.int n) => exact fits_num.mpr (h n (by simp [tokens]))
  | .num (.real x) => exact fits_num.mpr ⟨x, rfl⟩
  | .arr items => exact fits_arr.mpr (itemsFit_of_tokens items fun n hn => h n (by simp [tokens, hn]))
  | .obj members =>
    rw [Fits]
    exact membersFit_of_tokens members fun n hn => h n (by simp [tokens, hn])

theorem itemsFit_of_tokens (js : List Json)
    (h : ∀ n, .num (.int n) ∈ itemsTokens js → (Number.int n).Fits) : ItemsFit js := by
  match js with
  | [] => simp
  | [j] =>
    rw [itemsFit_cons]
    exact ⟨fits_of_tokens j fun n hn => h n (by simp [itemsTokens, hn]), itemsFit_nil⟩
  | j :: k :: js =>
    rw [itemsFit_cons]
    exact ⟨fits_of_tokens j fun n hn => h n (by simp [itemsTokens, hn]),
      itemsFit_of_tokens (k :: js) fun n hn => h n (by simp [itemsTokens, hn])⟩

theorem membersFit_of_tokens (ms : List (String × Json))
    (h : ∀ n, .num (.int n) ∈ membersTokens ms → (Number.int n).Fits) : MembersFit ms := by
  match ms with
  | [] => simp [MembersFit]
  | [(key, j)] =>
    rw [MembersFit, MembersFit]
    exact ⟨fits_of_tokens j fun n hn => h n (by simp [membersTokens, hn]), trivial⟩
  | (key, j) :: m :: ms =>
    rw [MembersFit]
    exact ⟨fits_of_tokens j fun n hn => h n (by simp [membersTokens, hn]),
      membersFit_of_tokens (m :: ms) fun n hn => h n (by simp [membersTokens, hn])⟩

end

theorem setMember_fits {key : String} {v : Json} {ms : Members} (hv : v.Fits) (h : MembersFit ms) :
    MembersFit (setMember key v ms) := by
  induction ms with
  | nil => simp [setMember, MembersFit, hv]
  | cons m ms ih =>
    obtain ⟨name, w⟩ := m
    rw [MembersFit] at h
    rw [setMember]
    split
    · rw [MembersFit]
      exact ⟨hv, h.2⟩
    · rw [MembersFit]
      exact ⟨h.1, ih h.2⟩

theorem foldl_setMember_fits {ms done : Members} (hms : MembersFit ms) (hdone : MembersFit done) :
    MembersFit (ms.foldl (fun done (k, v) => setMember k v done) done) := by
  induction ms generalizing done with
  | nil => exact hdone
  | cons m ms ih =>
    rw [MembersFit] at hms
    exact ih hms.2 (setMember_fits hms.1 hdone)

mutual

theorem settled_fits (j : Json) (h : j.Fits) : j.settled.Fits := by
  match j with
  | .null | .bool _ | .str _ => simp [settled]
  | .num n => simpa [settled] using h
  | .arr items =>
    rw [settled, fits_arr]
    exact settledItems_fit items (fits_arr.mp h)
  | .obj members =>
    rw [Fits] at h
    rw [settled, Fits]
    exact foldl_setMember_fits (settledMembers_fit members h) (by simp [MembersFit])

theorem settledItems_fit (js : List Json) (h : ItemsFit js) : ItemsFit (settledItems js) := by
  match js with
  | [] => simp [settledItems]
  | j :: js =>
    rw [itemsFit_cons] at h
    rw [settledItems, itemsFit_cons]
    exact ⟨settled_fits j h.1, settledItems_fit js h.2⟩

theorem settledMembers_fit (ms : List (String × Json)) (h : MembersFit ms) :
    MembersFit (settledMembers ms) := by
  match ms with
  | [] => simp [settledMembers, MembersFit]
  | (key, j) :: ms =>
    rw [MembersFit] at h
    rw [settledMembers, MembersFit]
    exact ⟨settled_fits j h.1, settledMembers_fit ms h.2⟩

end

end StyledTiles.Json
