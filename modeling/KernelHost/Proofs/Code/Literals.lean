import KernelHost.Code.Quoted
import KernelHost.Proofs.Text.Digits
import Mathlib.Algebra.Ring.Parity
import Mathlib.Data.List.DropRight

/-!
# String literals denote the texts that they quote

A literal ends at the first quotation mark that is not escaped, and whether one is escaped depends
on the whole run of backslashes in front of it.  The escapes that a text is quoted with come in
pairs, so no run of backslashes reaches over from one character of the text to the next.
-/

namespace KernelHost

namespace Code

/-! ## Literals -/

/-- What follows the given characters of a literal is escaped: it stands behind an odd number of
backslashes. -/
def Escapes (front : List Char) : Prop :=
  Odd (front.rtakeWhile (· == '\\')).length

/-- The character that an escape sequence stands for. -/
def unescapeChar? : Char → Option Char
  | '"' => some '"'
  | '\\' => some '\\'
  | 'n' => some '\n'
  | _ => none

/-- The text that stands between the quotation marks of a literal, with all escapes undone. -/
def unescape? : List Char → Option (List Char)
  | [] => some []
  | '\\' :: c :: cs => do return (← unescapeChar? c) :: (← unescape? cs)
  | ['\\'] => none
  | c :: cs => return c :: (← unescape? cs)

/-- Of the quotation marks that stand behind the one in front of a body, just the one that ends it
is not escaped. -/
def Closes (body : List Char) : Prop :=
  ∀ front behind, body ++ ['"'] = front ++ '"' :: behind → (Escapes front ↔ behind ≠ [])

/-- A text on one line is a literal as a whole, which denotes another text. -/
def Denotes (literal text : List Char) : Prop :=
  '\n' ∉ literal ∧
    ∃ body, literal = '"' :: body ++ ['"'] ∧ Closes body ∧ unescape? body = some text

/-! ## Quoted texts -/

theorem not_escapes_nil : ¬ Escapes [] := by
  simp [Escapes]

theorem escapes_concat (front : List Char) (c : Char) :
    Escapes (front ++ [c]) ↔ c = '\\' ∧ ¬ Escapes front := by
  rw [Escapes, Escapes, List.rtakeWhile_concat]
  by_cases same : c = '\\'
  · simp [same, Nat.odd_add_one]
  · simp [same]

theorem escapes_singleton {c : Char} : Escapes [c] ↔ c = '\\' := by
  simpa [not_escapes_nil] using escapes_concat [] c

/-- A backslash and what it escapes do not escape what follows. -/
theorem not_escapes_pair (c : Char) : ¬ Escapes ['\\', c] := fun escapes =>
  ((escapes_concat ['\\'] c).mp escapes).2 (escapes_singleton.mpr rfl)

/-- Where nothing is escaped right behind some characters, these do not matter further on. -/
theorem escapes_append {front more : List Char} (closed : ¬ Escapes front) :
    Escapes (front ++ more) ↔ Escapes more := by
  induction more using List.reverseRecOn with
  | nil => simp [closed, not_escapes_nil]
  | append_singleton more c ih => rw [← List.append_assoc, escapes_concat, escapes_concat, ih]

theorem not_escapes_escapeChar (c : Char) : ¬ Escapes (escapeChar c) := by
  unfold escapeChar
  split
  · exact not_escapes_pair _
  · exact not_escapes_pair _
  · exact not_escapes_pair _
  · rename_i backslash _
    exact mt escapes_singleton.mp backslash

/-- A quotation mark inside an escape sequence is behind the backslash. -/
theorem escapes_of_escapeChar {c : Char} {front more : List Char}
    (split : escapeChar c = front ++ '"' :: more) : Escapes front := by
  unfold escapeChar at split
  split at split <;> rcases front with _ | ⟨d, _ | _⟩ <;> simp_all [escapes_singleton]
  exact split.1.symm

/-- Just the quotation mark that ends an escaped text is not escaped. -/
theorem closes_escape (cs : List Char) : Closes (escape cs) := by
  induction cs with
  | nil =>
      intro front behind split
      cases front with
      | nil => simpa [not_escapes_nil] using split
      | cons d front => simp at split
  | cons c cs ih =>
      intro front behind split
      rw [escape_cons, List.append_assoc, List.append_eq_append_iff] at split
      obtain ⟨more, rfl, rest⟩ | ⟨more, whole, rest⟩ := split
      · rw [escapes_append (not_escapes_escapeChar c)]
        exact ih more behind rest
      · cases more with
        | nil =>
            -- The quotation mark is the first character behind the escape sequence.
            obtain rfl : escapeChar c = front := by simpa using whole
            rw [← ih [] behind rest.symm]
            simp [not_escapes_nil, not_escapes_escapeChar]
        | cons d more =>
            obtain ⟨rfl, rfl⟩ := List.cons.inj rest
            simp [escapes_of_escapeChar whole]

theorem unescape?_cons {c : Char} (plain : c ≠ '\\') (cs : List Char) :
    unescape? (c :: cs) = (unescape? cs).map (c :: ·) := by
  rw [unescape?]
  · cases unescape? cs <;> rfl
  all_goals simp [plain]

theorem unescape?_escape (cs : List Char) : unescape? (escape cs) = some cs := by
  induction cs with
  | nil => rfl
  | cons c cs ih =>
      rw [escape_cons]
      unfold escapeChar
      split
      · simp [unescape?, unescapeChar?, ih]
      · simp [unescape?, unescapeChar?, ih]
      · simp [unescape?, unescapeChar?, ih]
      · rename_i backslash _
        rw [List.singleton_append, unescape?_cons backslash, ih, Option.map_some]

theorem newline_not_mem_escape (cs : List Char) : '\n' ∉ escape cs := by
  have single (c : Char) : '\n' ∉ escapeChar c := by
    unfold escapeChar
    split <;> simp_all [eq_comm]
  simp [escape, single]

/-- A quoted text is one literal that denotes it. -/
theorem denotes_quoted (text : String) : Denotes (quoted text).toList text.toList := by
  refine ⟨?_, escape text.toList, by simp [quoted], closes_escape _, unescape?_escape _⟩
  simp [quoted, newline_not_mem_escape]

/-- Where a body ends, whatever follows it. -/
theorem Closes.unique {body body' behind behind' : List Char} (closes : Closes body)
    (closes' : Closes body') (same : body ++ '"' :: behind = body' ++ '"' :: behind') :
    body = body' := by
  have not_longer {body body' more behind behind' : List Char} (closes : Closes body)
      (closes' : Closes body') (longer : body' = body ++ more)
      (rest : '"' :: behind = more ++ '"' :: behind') : more = [] := by
    cases more with
    | nil => rfl
    | cons c more =>
        obtain ⟨rfl, -⟩ := List.cons.inj rest
        have escaped : Escapes body :=
          (closes' body (more ++ ['"']) (by simp [longer])).mpr (by simp)
        exact absurd ((closes body [] rfl).mp escaped) (by simp)
  obtain ⟨more, longer, rest⟩ | ⟨more, longer, rest⟩ := List.append_eq_append_iff.mp same
  · simpa [not_longer closes closes' longer rest] using longer.symm
  · simpa [not_longer closes' closes longer rest] using longer

/-- A literal at the front of a text, and what it denotes, are determined by the text. -/
theorem Denotes.unique {literal literal' text text' behind behind' : List Char}
    (denotes : Denotes literal text) (denotes' : Denotes literal' text')
    (same : literal ++ behind = literal' ++ behind') : text = text' := by
  obtain ⟨-, body, rfl, closes, meaning⟩ := denotes
  obtain ⟨-, body', rfl, closes', meaning'⟩ := denotes'
  obtain rfl := closes.unique closes' (by simpa using same)
  exact Option.some.inj (meaning.symm.trans meaning')

theorem quoted_injective : Function.Injective quoted := by
  intro text text' same
  have denotes := denotes_quoted text
  rw [same] at denotes
  exact String.toList_inj.mp (denotes.unique (denotes_quoted text') (rfl : _ ++ [] = _))

/-! ## Literals on a line -/

/-- The first literal on a line denotes a text. -/
def FirstLiteral (line text : String) : Prop :=
  ∃ front literal behind, line.toList = front ++ literal ++ behind ∧ '"' ∉ front ∧
    Denotes literal text.toList

theorem FirstLiteral.unique {line text text' : String} (first : FirstLiteral line text)
    (first' : FirstLiteral line text') : text = text' := by
  obtain ⟨front, literal, behind, split, before, denotes⟩ := first
  obtain ⟨front', literal', behind', split', before', denotes'⟩ := first'
  have opening {front literal behind text : List Char} (before : '"' ∉ front)
      (denotes : Denotes literal text) :
      (front ++ literal ++ behind).takeWhile (· ≠ '"') = front := by
    obtain ⟨-, body, rfl, -⟩ := denotes
    rw [List.append_assoc]
    refine (Text.takeWhile_append_stop (fun c mem => ?_) (by simp)).1
    simpa using ne_of_mem_of_not_mem mem before
  have fronts : front = front' := by
    have same := congrArg (List.takeWhile (· ≠ '"')) (split.symm.trans split')
    rwa [opening before denotes, opening before' denotes'] at same
  rw [split, fronts, List.append_assoc, List.append_assoc] at split'
  exact String.toList_inj.mp (denotes.unique denotes' (List.append_cancel_left split'))

/-- On a line that a quoted text is the first literal of, this text is what that one denotes. -/
theorem firstLiteral_quoted {front : String} (before : '"' ∉ front.toList)
    (quotes behind text : String) :
    FirstLiteral (front ++ quoted quotes ++ behind) text ↔ text = quotes := by
  have first : FirstLiteral (front ++ quoted quotes ++ behind) quotes :=
    ⟨front.toList, (quoted quotes).toList, behind.toList, by simp, before, denotes_quoted quotes⟩
  exact ⟨fun other => other.unique first, fun same => same ▸ first⟩

end Code
end KernelHost
