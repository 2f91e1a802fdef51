/-!
# Blanks

White space in the sense of the Unicode property `White_Space`, and the three things that the
manifest reader does with it: trimming a text, asking whether it is empty apart from blanks, and
squeezing the runs of blanks inside it.
-/

namespace KernelHost.Text

/-- Whether a character has the Unicode property `White_Space`. -/
def isBlank (c : Char) : Bool :=
  let n := c.toNat
  (0x09 ≤ n && n ≤ 0x0D) || n == 0x20 || n == 0x85 || n == 0xA0 || n == 0x1680 ||
    (0x2000 ≤ n && n ≤ 0x200A) || n == 0x2028 || n == 0x2029 || n == 0x202F || n == 0x205F ||
    n == 0x3000

/-- Every white space character of the core library is a blank. -/
theorem isBlank_of_isWhitespace {c : Char} (h : c.isWhitespace = true) : isBlank c = true := by
  simp only [Char.isWhitespace, Bool.or_eq_true, decide_eq_true_eq] at h
  rcases h with ((rfl | rfl) | rfl) | rfl <;> decide

/-- The characters between the blanks at both ends. -/
def trimChars (cs : List Char) : List Char :=
  ((cs.dropWhile isBlank).reverse.dropWhile isBlank).reverse

/-- The text between the blanks at both ends. -/
def trim (s : String) : String :=
  .ofList (trimChars s.toList)

/-- Whether a list of characters holds blanks only. -/
def allBlank (cs : List Char) : Bool :=
  cs.all isBlank

/-- The maximal runs of characters other than blanks. -/
def words (s : String) : List String :=
  (s.toList.splitOnP isBlank).filterMap fun cs => if cs.isEmpty then none else some (.ofList cs)

/-- The words of a text with one space between neighbours. -/
def squeeze (s : String) : String :=
  " ".intercalate (words s)

end KernelHost.Text
