import KernelHost.Text.Blank

/-!
# Blanks and comments in patterns

Where a flag says so, blanks and comments may stand between the parts of a pattern.  A comment
begins with a number sign and ends with its line.
-/

namespace KernelHost.Pattern

/-- The rest of a pattern behind blanks and comments, or inside of a comment. -/
def skipBlanks (inComment : Bool) : List Char → List Char
  | [] => []
  | c :: cs =>
    if inComment then skipBlanks (c != '\n') cs
    else if c == '#' then skipBlanks true cs
    else if Text.isBlank c then skipBlanks false cs
    else c :: cs

/-- The rest of a pattern behind blanks and comments, if they are passed over. -/
def skip (spaced : Bool) (cs : List Char) : List Char :=
  if spaced then skipBlanks false cs else cs

/--
The characters up to the first one that does not fit, without the blanks and comments between them
if they are passed over, and the rest.
-/
def gather (spaced inComment : Bool) (fits : Char → Bool) : List Char → List Char × List Char
  | [] => ([], [])
  | c :: cs =>
    if inComment then gather spaced (c != '\n') fits cs
    else if spaced && c == '#' then gather spaced true fits cs
    else if spaced && Text.isBlank c then gather spaced false fits cs
    else if fits c then
      let (more, rest) := gather spaced false fits cs
      (c :: more, rest)
    else ([], c :: cs)

/--
The next character behind blanks, where the mark of one comment is passed over but not what the
comment holds.
-/
def peek? (spaced : Bool) (cs : List Char) : Option Char :=
  if spaced then
    match cs.dropWhile Text.isBlank with
    | '#' :: cs => (cs.dropWhile Text.isBlank).head?
    | cs => cs.head?
  else cs.head?

/-- What is gathered fits. -/
theorem fits_of_mem_gather {spaced : Bool} {fits : Char → Bool} {c : Char} (cs : List Char)
    (inComment : Bool) (h : c ∈ (gather spaced inComment fits cs).1) : fits c = true := by
  induction cs generalizing inComment with
  | nil => simp [gather] at h
  | cons d cs ih =>
    unfold gather at h
    split at h
    · exact ih _ h
    · split at h
      · exact ih _ h
      · split at h
        · exact ih _ h
        · split at h
          · rcases List.mem_cons.mp h with rfl | h
            · assumption
            · exact ih _ h
          · simp at h

end KernelHost.Pattern
