import KernelHost.Text.Position
import KernelHost.Xml.Char
import KernelHost.Xml.Fault

/-!
# Reading a document from left to right

A cursor is the part of the text that is still to be read, with its byte offset.  A reader takes
something off its front or fails with a fault.  No reader puts anything back: `Reader.Keeps` states
it, and the loops of the document reader end because their bodies take at least one character.
-/

namespace KernelHost.Xml

/-- A place in the text. -/
structure Cursor where
  /-- The bytes in front of the place. -/
  offset : Nat
  /-- The characters behind it. -/
  rest : List Char
  deriving DecidableEq, Repr

/-- The beginning of a text. -/
def Cursor.ofText (source : String) : Cursor :=
  ⟨0, source.toList⟩

/-- The place so many characters further on. -/
def Cursor.drop (n : Nat) (c : Cursor) : Cursor :=
  ⟨c.offset + Text.byteLength (c.rest.take n), c.rest.drop n⟩

@[simp]
theorem Cursor.rest_drop (n : Nat) (c : Cursor) : (c.drop n).rest = c.rest.drop n := rfl

/-- The place behind the spaces. -/
def Cursor.dropSpaces (c : Cursor) : Cursor :=
  c.drop (c.rest.takeWhile isSpace).length

theorem Cursor.length_rest_dropSpaces (c : Cursor) :
    c.dropSpaces.rest.length ≤ c.rest.length := by
  simp [dropSpaces]

/-- Whether the text goes on with the given one. -/
def Cursor.startsWith (text : String) (c : Cursor) : Bool :=
  text.toList.isPrefixOf c.rest

/-- Takes something off the front of the text. -/
abbrev Reader (α : Type) := StateT Cursor (Except Fault) α

namespace Reader

/-- Fails at the cursor. -/
def fail {α : Type} (flaw : Flaw) : Reader α :=
  fun c => .error ⟨flaw, c.offset⟩

/-- Fails at a given offset. -/
def failAt {α : Type} (offset : Nat) (flaw : Flaw) : Reader α :=
  fun _ => .error ⟨flaw, offset⟩

/-- The offset of the cursor. -/
def offset : Reader Nat :=
  fun c => .ok (c.offset, c)

/-- The first character, which stays. -/
def peek? : Reader (Option Char) :=
  fun c => .ok (c.rest.head?, c)

/-- Whether the text goes on with the given one, which stays. -/
def ahead (text : String) : Reader Bool :=
  fun c => .ok (c.startsWith text, c)

/-- Passes over so many characters. -/
def skip (n : Nat) : Reader Unit :=
  fun c => .ok ((), c.drop n)

/-- Takes the longest run of characters with a property. -/
def run (p : Char → Bool) : Reader (List Char) :=
  fun c =>
    let taken := c.rest.takeWhile p
    .ok (taken, c.drop taken.length)

/-- Passes over spaces. -/
def spaces : Reader Unit :=
  fun c => .ok ((), c.dropSpaces)

/-- Takes one character, which has to be the given one. -/
def char (wanted : Char) : Reader Unit :=
  fun c =>
    match c.rest with
    | [] => .error ⟨.endOfText, 0⟩
    | found :: _ =>
      if found == wanted then .ok ((), c.drop 1)
      else .error ⟨.expected s!"'{wanted}'" (leadByte found), c.offset⟩

/-- Takes the given text. -/
def text (wanted : String) : Reader Unit :=
  fun c =>
    if c.startsWith wanted then .ok ((), c.drop wanted.length)
    else .error ⟨.expectedText wanted, c.offset⟩

/--
Counts the characters in front of the first place where `stop` holds of what follows, if all of
them may stand in a document; otherwise gives the number of those in front of the first that may
not, and that one.
-/
def countUntil (stop : List Char → Bool) (n : Nat) : List Char → Except (Nat × Char) Nat
  | [] => .ok n
  | c :: cs =>
    if !isXmlChar c then .error (n, c)
    else if stop (c :: cs) then .ok n
    else countUntil stop (n + 1) cs

/-- Takes the characters in front of the first place where `stop` holds of what follows. -/
def upTo (stop : List Char → Bool) : Reader (List Char) :=
  fun c =>
    match countUntil stop 0 c.rest with
    | .ok n => .ok (c.rest.take n, c.drop n)
    | .error (n, found) => .error ⟨.nonXmlChar found, (c.drop n).offset⟩

/-- Takes the characters in front of the given text, or all if it does not come. -/
def upToText (mark : String) : Reader (List Char) :=
  upTo mark.toList.isPrefixOf

/-! ## Nothing is put back -/

/-- The reader leaves no more text than it finds. -/
def Keeps {α : Type} (r : Reader α) : Prop :=
  ∀ c a d, r c = .ok (a, d) → d.rest.length ≤ c.rest.length

/-- The reader leaves less text than it finds. -/
def Takes {α : Type} (r : Reader α) : Prop :=
  ∀ c a d, r c = .ok (a, d) → d.rest.length < c.rest.length

theorem Takes.keeps {α : Type} {r : Reader α} (h : r.Takes) : r.Keeps :=
  fun c a d e => Nat.le_of_lt (h c a d e)

theorem Keeps.le {α : Type} {r : Reader α} (h : r.Keeps) {c d : Cursor} {a : α}
    (e : r c = .ok (a, d)) : d.rest.length ≤ c.rest.length :=
  h c a d e

theorem Takes.lt {α : Type} {r : Reader α} (h : r.Takes) {c d : Cursor} {a : α}
    (e : r c = .ok (a, d)) : d.rest.length < c.rest.length :=
  h c a d e

theorem keeps_pure {α : Type} (a : α) : Keeps (pure a : Reader α) := by
  intro c b d e
  cases e
  exact Nat.le_refl _

theorem bind_eq_ok {α β : Type} {r : Reader α} {f : α → Reader β} {c d : Cursor} {b : β}
    (h : (r >>= f) c = .ok (b, d)) : ∃ a m, r c = .ok (a, m) ∧ f a m = .ok (b, d) := by
  change (r c >>= fun p => f p.1 p.2) = .ok (b, d) at h
  cases hr : r c with
  | error e => rw [hr] at h; cases h
  | ok p => exact ⟨p.1, p.2, rfl, by rw [hr] at h; exact h⟩

theorem Keeps.bind {α β : Type} {r : Reader α} {f : α → Reader β} (hr : r.Keeps)
    (hf : ∀ a, (f a).Keeps) : (r >>= f).Keeps := by
  intro c b d e
  obtain ⟨a, m, h₁, h₂⟩ := bind_eq_ok e
  exact Nat.le_trans (hf a m b d h₂) (hr c a m h₁)

theorem Takes.bind {α β : Type} {r : Reader α} {f : α → Reader β} (hr : r.Takes)
    (hf : ∀ a, (f a).Keeps) : (r >>= f).Takes := by
  intro c b d e
  obtain ⟨a, m, h₁, h₂⟩ := bind_eq_ok e
  exact Nat.lt_of_le_of_lt (hf a m b d h₂) (hr c a m h₁)

theorem Keeps.bind_takes {α β : Type} {r : Reader α} {f : α → Reader β} (hr : r.Keeps)
    (hf : ∀ a, (f a).Takes) : (r >>= f).Takes := by
  intro c b d e
  obtain ⟨a, m, h₁, h₂⟩ := bind_eq_ok e
  exact Nat.lt_of_lt_of_le (hf a m b d h₂) (hr c a m h₁)

theorem takes_fail {α : Type} (flaw : Flaw) : Takes (fail flaw : Reader α) := by
  intro c a d e
  cases e

theorem takes_failAt {α : Type} (offset : Nat) (flaw : Flaw) :
    Takes (failAt offset flaw : Reader α) := by
  intro c a d e
  cases e

theorem keeps_offset : Keeps offset := by
  intro c a d e
  cases e
  exact Nat.le_refl _

theorem keeps_peek? : Keeps peek? := by
  intro c a d e
  cases e
  exact Nat.le_refl _

theorem keeps_ahead (text : String) : Keeps (ahead text) := by
  intro c a d e
  cases e
  exact Nat.le_refl _

theorem keeps_skip (n : Nat) : Keeps (skip n) := by
  intro c a d e
  cases e
  simp

theorem keeps_run (p : Char → Bool) : Keeps (run p) := by
  intro c a d e
  cases e
  simp

theorem keeps_spaces : Keeps spaces := by
  intro c a d e
  cases e
  exact c.length_rest_dropSpaces

theorem takes_char (wanted : Char) : Takes (char wanted) := by
  intro c a d e
  unfold char at e
  split at e
  · cases e
  · rename_i h
    split at e
    · cases e
      simp [h]
    · cases e

theorem keeps_text (wanted : String) : Keeps (text wanted) := by
  intro c a d e
  unfold text at e
  split at e
  · cases e
    simp
  · cases e

theorem takes_text {wanted : String} (h : wanted.toList ≠ []) : Takes (text wanted) := by
  intro c a d e
  unfold text at e
  split at e
  · rename_i ahead
    cases e
    obtain ⟨x, xs, hw⟩ := List.exists_cons_of_ne_nil h
    have size : wanted.length = xs.length + 1 := by
      rw [← String.length_toList, hw, List.length_cons]
    cases hr : c.rest with
    | nil => simp [Cursor.startsWith, hr, hw] at ahead
    | cons y ys =>
      rw [Cursor.rest_drop, hr, size, List.drop_succ_cons, List.length_drop, List.length_cons]
      omega
  · cases e

theorem keeps_upTo (stop : List Char → Bool) : Keeps (upTo stop) := by
  intro c a d e
  unfold upTo at e
  split at e
  · cases e
    simp
  · cases e

end Reader
end KernelHost.Xml
