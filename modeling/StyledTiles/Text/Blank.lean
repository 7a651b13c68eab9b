/-!
# Blank characters

The characters that are stripped from the ends of a text: the white space of Unicode and the four
separators among the controls, twenty-nine in all.
-/
namespace StyledTiles.Text

def isBlank (c : Char) : Bool :=
  let n := c.toNat
  (9 ≤ n && n ≤ 13) || (28 ≤ n && n ≤ 32) || n == 0x85 || n == 0xA0 || n == 0x1680
    || (0x2000 ≤ n && n ≤ 0x200A) || n == 0x2028 || n == 0x2029 || n == 0x202F || n == 0x205F
    || n == 0x3000

/-- The separators among the controls: of files, groups, records and units. -/
def isSeparator (c : Char) : Bool := 28 ≤ c.toNat && c.toNat ≤ 31

/-- The characters between the first and the last one that a predicate does not take away. -/
def trimmed (p : Char → Bool) (cs : List Char) : List Char :=
  ((cs.dropWhile p).reverse.dropWhile p).reverse

/-- The characters without the blanks at either end. -/
def stripChars (cs : List Char) : List Char := trimmed isBlank cs

theorem isBlank_of_isWhitespace {c : Char} (h : c.isWhitespace = true) : isBlank c = true := by
  simp only [Char.isWhitespace, Bool.or_eq_true, decide_eq_true_eq] at h
  rcases h with ((rfl | rfl) | rfl) | rfl <;> decide

end StyledTiles.Text
