import Mathlib.Data.List.Chain
import Mathlib.Data.List.Infix
import StyledTiles.Proofs.Json.Numerals

/-!
# Lexemes of JSON

The grammar of tokens: how each is written, and that a text is a sequence of tokens with blanks between
them. The scan of a text without faults is such a sequence, and where each number is followed by a token
that no number goes on with, there is no other one to find.

Faults are tokens that no text spells.
-/
namespace StyledTiles.Json.Token

/-! ## Grammar -/

/-- What stands between the quotes of a string, with its code points and code units. -/
inductive Content : List Char → List Nat → Prop
  | nil : Content [] []
  | plain {c : Char} {cs : List Char} {units : List Nat} (hquote : c ≠ '"') (hbackslash : c ≠ '\\')
      (hcontrol : 32 ≤ c.toNat) (h : Content cs units) : Content (c :: cs) (c.toNat :: units)
  | escape {c e : Char} {cs : List Char} {units : List Nat} (hescape : escape? c = some e)
      (h : Content cs units) : Content ('\\' :: c :: cs) (e.toNat :: units)
  | unit {a b c d : Char} {n : Nat} {cs : List Char} {units : List Nat}
      (hunit : unit? a b c d = some n) (h : Content cs units) :
      Content ('\\' :: 'u' :: a :: b :: c :: d :: cs) (n :: units)

def minus (negative : Bool) : List Char := if negative then ['-'] else []

/-- How a token is written. -/
inductive Spelled : Token → List Char → Prop
  | openBracket : Spelled .openBracket ['[']
  | closeBracket : Spelled .closeBracket [']']
  | openBrace : Spelled .openBrace ['{']
  | closeBrace : Spelled .closeBrace ['}']
  | comma : Spelled .comma [',']
  | colon : Spelled .colon [':']
  | nullWord : Spelled .null ['n', 'u', 'l', 'l']
  | trueWord : Spelled (.bool true) ['t', 'r', 'u', 'e']
  | falseWord : Spelled (.bool false) ['f', 'a', 'l', 's', 'e']
  | num {negative : Bool} {n : Number} {text : List Char} (h : Numeral negative n text) :
      Spelled (.num n) (minus negative ++ text)
  | str {content : List Char} {units : List Nat} (h : Content content units) :
      Spelled (.str (String.ofList (joinUnits units))) ('"' :: content ++ ['"'])

/-- A text is made of tokens, with blanks before, between and after them. -/
inductive Lexed : List Char → List Token → Prop
  | nil : Lexed [] []
  | blank {c : Char} {cs : List Char} {ts : List Token} (hc : isSpace c = true) (h : Lexed cs ts) :
      Lexed (c :: cs) ts
  | token {t : Token} {text cs : List Char} {ts : List Token} (ht : Spelled t text) (h : Lexed cs ts) :
      Lexed (text ++ cs) (t :: ts)

/-- The tokens that no text spells. -/
def isFault : Token → Bool
  | .bad | .constant _ | .longInteger _ => true
  | _ => false

/-- The tokens that may follow a value. -/
def isClosing : Token → Bool
  | .comma | .closeBracket | .closeBrace => true
  | _ => false

variable {cs rest text content : List Char} {ts : List Token} {units : List Nat}

/-! ## Strings -/

theorem stringUnits_sound (h : stringUnits cs = some (units, rest)) :
    ∃ content, Content content units ∧ cs = content ++ '"' :: rest := by
  fun_induction stringUnits cs generalizing units with
  | case1 => cases h
  | case2 cs =>
    cases h
    exact ⟨[], .nil, rfl⟩
  | case3 a b c d cs ih =>
    obtain ⟨n, hunit, h⟩ := Option.bind_eq_some_iff.mp h
    obtain ⟨⟨units, after⟩, hread, h⟩ := Option.bind_eq_some_iff.mp h
    cases h
    obtain ⟨content, hcontent, rfl⟩ := ih hread
    exact ⟨_, .unit hunit hcontent, rfl⟩
  | case4 c cs _ ih =>
    obtain ⟨e, hescape, h⟩ := Option.bind_eq_some_iff.mp h
    obtain ⟨⟨units, after⟩, hread, h⟩ := Option.bind_eq_some_iff.mp h
    cases h
    obtain ⟨content, hcontent, rfl⟩ := ih hread
    exact ⟨_, .escape hescape hcontent, rfl⟩
  | case5 => cases h
  | case6 c cs hquote _ hbackslash hcontrol ih =>
    obtain ⟨⟨units, after⟩, hread, h⟩ := Option.map_eq_some_iff.mp h
    cases h
    obtain ⟨content, hcontent, rfl⟩ := ih hread
    obtain ⟨d, after, hmore⟩ : ∃ d after, content ++ '"' :: rest = d :: after :=
      List.exists_cons_of_ne_nil (by simp)
    have hplain : c ≠ '\\' := fun hc => hbackslash d after hc hmore
    exact ⟨c :: content, .plain hquote hplain (Nat.not_lt.mp hcontrol) hcontent, rfl⟩

theorem stringUnits_complete (h : Content content units) (rest : List Char) :
    stringUnits (content ++ '"' :: rest) = some (units, rest) := by
  induction h with
  | nil => rfl
  | plain hquote hbackslash hcontrol h ih =>
    rw [List.cons_append, stringUnits]
    · rw [if_neg (Nat.not_lt.mpr hcontrol), ih]
      rfl
    · exact hquote
    · exact fun _ _ _ _ _ hc => absurd hc hbackslash
    · exact fun _ _ hc => absurd hc hbackslash
  | escape hescape h ih =>
    rw [List.cons_append, List.cons_append, stringUnits]
    · rw [hescape, ih]
      rfl
    · rintro _ _ _ _ _ rfl
      cases hescape
  | unit hunit h ih =>
    simp only [List.cons_append, stringUnits, hunit, ih]
    rfl

/-! ## One token -/

theorem word?_sound {t : Token} (h : word? cs = some (t, rest)) :
    ∃ w, (w, t) ∈ words ∧ cs = w ++ rest := by
  obtain ⟨⟨w, t'⟩, hfind, heq⟩ := Option.map_eq_some_iff.mp h
  cases heq
  have hprefix : w.isPrefixOf cs = true := by
    simpa using List.find?_some hfind
  exact ⟨w, List.mem_of_find?_eq_some hfind,
    (List.prefix_iff_eq_append.mp (List.isPrefixOf_iff_prefix.mp hprefix)).symm⟩

theorem spelled_of_mem_words {w : List Char} {t : Token} (h : (w, t) ∈ words)
    (ht : t.isFault = false) : Spelled t w := by
  simp only [words, List.mem_cons, Prod.mk.injEq, List.not_mem_nil, or_false] at h
  rcases h with ⟨rfl, rfl⟩ | ⟨rfl, rfl⟩ | ⟨rfl, rfl⟩ | ⟨_, rfl⟩ | ⟨_, rfl⟩ | ⟨_, rfl⟩
  · exact .nullWord
  · exact .trueWord
  · exact .falseWord
  all_goals cases ht

/-- A text that starts with no punctuation and no quote starts with a word or a number. -/
theorem lexeme?_cases {t : Token} (h : lexeme? cs = some (t, rest)) :
    (∃ text, Spelled t text ∧ cs = text ++ rest) ∨ (∃ w, (w, t) ∈ words ∧ cs = w ++ rest) ∨
      ∃ negative after, cs = minus negative ++ after ∧ number? negative after = some (t, rest) := by
  unfold lexeme? at h
  split at h
  · cases h
  · cases h
    exact .inl ⟨_, .openBracket, rfl⟩
  · cases h
    exact .inl ⟨_, .closeBracket, rfl⟩
  · cases h
    exact .inl ⟨_, .openBrace, rfl⟩
  · cases h
    exact .inl ⟨_, .closeBrace, rfl⟩
  · cases h
    exact .inl ⟨_, .comma, rfl⟩
  · cases h
    exact .inl ⟨_, .colon, rfl⟩
  · obtain ⟨⟨s, after⟩, hbody, heq⟩ := Option.map_eq_some_iff.mp h
    obtain ⟨⟨units, after'⟩, hunits, hbody⟩ := Option.map_eq_some_iff.mp hbody
    cases hbody
    cases heq
    obtain ⟨content, hcontent, rfl⟩ := stringUnits_sound hunits
    exact .inl ⟨_, .str hcontent, by simp⟩
  · rename_i c cs _ _ _ _ _ _ _
    split at h
    · rename_i found hword
      cases h
      exact .inr (.inl (word?_sound hword))
    · split at h
      · rename_i hminus
        exact .inr (.inr ⟨true, cs, by rw [hminus]; rfl, h⟩)
      · exact .inr (.inr ⟨false, c :: cs, rfl, h⟩)

/-- Where the reader finds a token that is no fault, the grammar does. -/
theorem lexeme?_sound {t : Token} (h : lexeme? cs = some (t, rest)) (ht : t.isFault = false) :
    ∃ text, Spelled t text ∧ cs = text ++ rest := by
  rcases lexeme?_cases h with hspelled | ⟨w, hw, rfl⟩ | ⟨negative, after, rfl, hnumber⟩
  · exact hspelled
  · exact ⟨w, spelled_of_mem_words hw ht, rfl⟩
  · rcases number?_sound hnumber with ⟨n, text, rfl, hnumeral, rfl⟩ | ⟨whole, rfl, _⟩
    · exact ⟨_, .num hnumeral, (List.append_assoc ..).symm⟩
    · cases ht

theorem lexeme?_suffix {t : Token} (h : lexeme? cs = some (t, rest)) : rest <:+ cs := by
  rcases lexeme?_cases h with ⟨text, _, rfl⟩ | ⟨w, _, rfl⟩ | ⟨negative, after, rfl, hnumber⟩
  · exact List.suffix_append text rest
  · exact List.suffix_append w rest
  · refine List.IsSuffix.trans ?_ (List.suffix_append (minus negative) after)
    rcases number?_sound hnumber with ⟨_, text, _, _, rfl⟩ | ⟨whole, _, _, _, rfl⟩
    · exact List.suffix_append text rest
    · exact List.suffix_append whole rest

/-- An integer of too many digits is a run of so many. -/
theorem lexeme?_longInteger {digits : Nat} (h : lexeme? cs = some (.longInteger digits, rest)) :
    ¬ ShortRuns Text.maxDigits cs := by
  intro hruns
  rcases lexeme?_cases h with ⟨text, hspelled, _⟩ | ⟨w, hw, _⟩ | ⟨negative, after, rfl, hnumber⟩
  · cases hspelled
  · simp [words] at hw
  · rcases number?_sound hnumber with ⟨n, _, hnum, _⟩ | ⟨whole, _, hwhole, hlong, rfl⟩
    · cases hnum
    · have hpart : whole <:+: minus negative ++ (whole ++ rest) := ⟨minus negative, rest, by simp⟩
      exact absurd (hruns whole hpart hwhole.allDigits) (Nat.not_le.mpr hlong)

/-- Words start with a letter, but for one that has a sign before it. -/
theorem word?_eq_none (negative : Bool) {d : Char} (hd : isDigit d = true) (cs : List Char) :
    word? (minus negative ++ d :: cs) = none := by
  have hne : ∀ c, isDigit c = false → (c == d) = false := by
    intro c hc
    rw [beq_eq_false_iff_ne]
    rintro rfl
    rw [hc] at hd
    cases hd
  cases negative with
  | true => simp [word?, words, minus, List.isPrefixOf, hne 'I' rfl]
  | false =>
    simp [word?, words, minus, List.isPrefixOf, hne 'n' rfl, hne 't' rfl, hne 'f' rfl, hne 'N' rfl,
      hne 'I' rfl, hne '-' rfl]

theorem Numeral.head {negative : Bool} {n : Number} (h : Numeral negative n text) :
    ∃ d cs, text = d :: cs ∧ isDigit d = true := by
  obtain ⟨whole, more, hwhole, rfl⟩ : ∃ whole more, Whole whole ∧ text = whole ++ more := by
    cases h with
    | integer hwhole => exact ⟨text, [], hwhole, by simp⟩
    | fraction hwhole _ _ => exact ⟨_, _, hwhole, rfl⟩
    | exponent hwhole _ _ => exact ⟨_, _, hwhole, List.append_assoc ..⟩
  have hdigits := hwhole.allDigits
  cases hwhole with
  | zero => exact ⟨'0', more, rfl, rfl⟩
  | digits _ _ => exact ⟨_, _, rfl, hdigits _ List.mem_cons_self⟩

/-- A sign or a digit starts a number. -/
theorem lexeme?_number (negative : Bool) {d : Char} (hd : isDigit d = true) (cs : List Char) :
    lexeme? (minus negative ++ d :: cs) = number? negative (d :: cs) := by
  have hword := word?_eq_none negative hd cs
  cases negative with
  | true =>
    simp only [minus, if_true, List.singleton_append] at hword ⊢
    rw [lexeme?]
    · simp only [hword, if_true]
    all_goals decide
  | false =>
    have hne : ∀ c, isDigit c = false → d ≠ c := by
      rintro c hc rfl
      rw [hc] at hd
      cases hd
    simp only [minus, Bool.false_eq_true, if_false, List.nil_append] at hword ⊢
    rw [lexeme?]
    · simp only [hword, hne '-' rfl, if_false]
    all_goals exact hne _ rfl

/-- The reader finds the tokens of the grammar, numbers where they end. -/
theorem lexeme?_complete {t : Token} (h : Spelled t text) (hruns : ShortRuns Text.maxDigits text)
    (hrest : ∀ n, t = .num n → Ends rest) : lexeme? (text ++ rest) = some (t, rest) := by
  cases h with
  | @num negative n _ hnumeral =>
    obtain ⟨d, cs, rfl, hd⟩ := hnumeral.head
    have hshort := hruns.part (List.suffix_append (minus negative) (d :: cs)).isInfix
    rw [List.append_assoc, List.cons_append, lexeme?_number negative hd]
    exact number?_complete hnumeral hshort (hrest n rfl)
  | str hcontent =>
    have hunits := stringUnits_complete hcontent rest
    rw [List.append_assoc, List.cons_append, List.singleton_append, lexeme?, stringBody, hunits]
    rfl
  | _ => rfl

/-! ## Texts -/

theorem scanWithin_sound {fuel : Nat} (h : ∀ t ∈ scanWithin fuel cs, t.isFault = false) :
    Lexed cs (scanWithin fuel cs) := by
  induction fuel generalizing cs with
  | zero =>
    cases cs with
    | nil => exact .nil
    | cons c cs => cases h .bad List.mem_cons_self
  | succ fuel ih =>
    cases cs with
    | nil => exact .nil
    | cons c cs =>
      rw [scanWithin] at h ⊢
      split at h
      · rename_i hspace
        rw [if_pos hspace]
        exact .blank hspace (ih h)
      · rename_i hspace
        rw [if_neg hspace]
        cases hlexeme : lexeme? (c :: cs) with
        | none =>
          rw [hlexeme] at h
          cases h .bad List.mem_cons_self
        | some found =>
          obtain ⟨t, after⟩ := found
          rw [hlexeme] at h
          simp only [List.forall_mem_cons] at h
          obtain ⟨text, hspelled, htext⟩ := lexeme?_sound hlexeme h.1
          rw [htext]
          exact .token hspelled (ih h.2)

/-- A text in which an integer has too many digits has a run of so many. -/
theorem scanWithin_longInteger {fuel digits : Nat} (h : .longInteger digits ∈ scanWithin fuel cs) :
    ¬ ShortRuns Text.maxDigits cs := by
  induction fuel generalizing cs with
  | zero => cases cs <;> simp [scanWithin] at h
  | succ fuel ih =>
    cases cs with
    | nil => simp [scanWithin] at h
    | cons c cs =>
      intro hruns
      rw [scanWithin] at h
      split at h
      · exact ih h (hruns.part (List.suffix_cons c cs).isInfix)
      · cases hlexeme : lexeme? (c :: cs) with
        | none =>
          rw [hlexeme] at h
          simp at h
        | some found =>
          obtain ⟨t, after⟩ := found
          rw [hlexeme] at h
          rcases List.mem_cons.mp h with rfl | h
          · exact lexeme?_longInteger hlexeme hruns
          · exact ih h (hruns.part (lexeme?_suffix hlexeme).isInfix)

/-- A number is followed by a token that it does not go on with. -/
def Follows (t t' : Token) : Prop := (∃ n, t = .num n) → t'.isClosing = true

theorem isSpace_iff {c : Char} : isSpace c = true ↔ c = ' ' ∨ c = '\t' ∨ c = '\n' ∨ c = '\r' := by
  simp [isSpace, or_assoc]

/-- Before a closing token, and at the end, no number goes on. -/
theorem Lexed.ends (h : Lexed cs ts) (hts : ∀ t, ts.head? = some t → t.isClosing = true) : Ends cs := by
  cases h with
  | nil => exact nofun
  | blank hc _ =>
    rintro _ ⟨⟩
    rcases isSpace_iff.mp hc with rfl | rfl | rfl | rfl
    all_goals decide
  | token hspelled _ =>
    have hclosing := hts _ rfl
    cases hspelled with
    | closeBracket | closeBrace | comma =>
      rintro _ ⟨⟩
      decide
    | _ => cases hclosing

theorem Spelled.head {t : Token} (h : Spelled t text) :
    ∃ c cs, text = c :: cs ∧ isSpace c = false := by
  cases h with
  | @num negative _ _ hnumeral =>
    obtain ⟨d, cs, rfl, hd⟩ := hnumeral.head
    cases negative with
    | true => exact ⟨'-', _, rfl, rfl⟩
    | false =>
      refine ⟨d, cs, rfl, ?_⟩
      rw [← Bool.not_eq_true, isSpace_iff]
      rintro (rfl | rfl | rfl | rfl)
      all_goals cases hd
  | _ => exact ⟨_, _, rfl, rfl⟩

theorem scanWithin_complete (h : Lexed cs ts) (hfollows : ts.IsChain Follows)
    (hruns : ShortRuns Text.maxDigits cs) {fuel : Nat} (hfuel : cs.length ≤ fuel) :
    scanWithin fuel cs = ts := by
  induction h generalizing fuel with
  | nil => cases fuel <;> rfl
  | @blank c cs _ hc h ih =>
    obtain ⟨fuel, rfl⟩ : ∃ k, fuel = k + 1 := ⟨fuel - 1, by simp at hfuel; omega⟩
    rw [scanWithin, if_pos hc]
    exact ih hfollows (hruns.part (List.suffix_cons c cs).isInfix) (by simpa using hfuel)
  | @token t text cs _ hspelled h ih =>
    have hends : ∀ n, t = .num n → Ends cs := by
      rintro n rfl
      exact h.ends fun t' ht' => (List.isChain_cons.mp hfollows).1 t' ht' ⟨n, rfl⟩
    have hlexeme := lexeme?_complete hspelled (hruns.part (List.prefix_append text cs).isInfix) hends
    obtain ⟨c, more, rfl, hc⟩ := hspelled.head
    obtain ⟨fuel, rfl⟩ : ∃ k, fuel = k + 1 := ⟨fuel - 1, by simp at hfuel; omega⟩
    rw [List.cons_append] at hlexeme hfuel ⊢
    rw [scanWithin, if_neg (by simp [hc]), hlexeme]
    have hlength : cs.length ≤ fuel := by
      simp at hfuel
      omega
    have hrest := ih (List.isChain_cons.mp hfollows).2
      (hruns.part (List.suffix_append (c :: more) cs).isInfix) hlength
    simp only [hrest]

/-- The integers of a text with short runs of digits are bounded. -/
theorem Lexed.natAbs_lt (h : Lexed cs ts) {limit : Nat} (hruns : ShortRuns limit cs) {n : Int}
    (hn : .num (.int n) ∈ ts) : n.natAbs < 10 ^ limit := by
  induction h with
  | nil => cases hn
  | blank _ _ ih => exact ih (hruns.part (List.suffix_cons _ _).isInfix) hn
  | @token _ _ cs _ hspelled _ ih =>
    rcases List.mem_cons.mp hn with rfl | hn
    · cases hspelled with
      | @num negative _ whole hnumeral =>
        cases hnumeral with
        | integer hwhole =>
          have hpart : whole <:+: minus negative ++ whole ++ cs := ⟨minus negative, cs, rfl⟩
          rw [natAbs_signed]
          exact Nat.lt_of_lt_of_le (digitsValue_lt hwhole.allDigits)
            (Nat.pow_le_pow_right (by decide) (hruns whole hpart hwhole.allDigits))
    · exact ih (hruns.part (List.suffix_append _ _).isInfix) hn

end StyledTiles.Json.Token
