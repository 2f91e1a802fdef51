import KernelHost.Xml.Reference

/-!
# Comments, instructions and data

The readers of what stands between tags: comments, processing instructions, character data
sections and plain character data.
-/

namespace KernelHost.Xml

/-- Whether the first list of characters occurs somewhere in the second. -/
def occurs (part : List Char) : List Char → Bool
  | [] => part.isEmpty
  | c :: cs => part.isPrefixOf (c :: cs) || occurs part cs

namespace Reader

/-- Fails or succeeds as a check does, and takes nothing. -/
def lift {α : Type} (check : Except Fault α) : Reader α :=
  fun c => check.map (·, c)

theorem keeps_lift {α : Type} (check : Except Fault α) : Keeps (lift check) := by
  intro c a d e
  cases check with
  | error f => cases e
  | ok b =>
    cases e
    exact Nat.le_refl _

/-- Takes a comment, which may hold no two dashes in a row and no dash at its end. -/
def comment : Reader Unit := do
  let start ← offset
  text "<!--"
  let body ← upToText "-->"
  text "-->"
  if occurs ['-', '-'] body || body.getLast? == some '-' then failAt start .commentDashes

/-- Takes a processing instruction. -/
def instruction : Reader Unit := do
  if ← ahead "<?xml " then fail .lateDeclaration
  text "<?"
  let _ ← plainName
  spaces
  let _ ← upToText "?>"
  text "?>"

/-- Takes a comment or a processing instruction. -/
def aside : Reader Unit := do
  if ← ahead "<!--" then comment else instruction

/-- Takes a character data section and gives its data. -/
def dataSection : Reader (List Char) := do
  text "<![CDATA["
  let data ← upToText "]]>"
  text "]]>"
  return characterData false (data.map .plain)

/-- Takes one character at least, up to the next markup, and gives the data it stands for. -/
def plainText : Reader (List Char) := do
  let start ← offset
  let written ← upTo fun cs => cs.head? == some '<'
  if occurs "]]>".toList written then fail .strayDataEnd
  let data ← lift (pieces start written)
  return characterData false data

theorem keeps_if {α : Type} {b : Bool} {r s : Reader α} (hr : r.Keeps) (hs : s.Keeps) :
    Keeps (if b then r else s) := by
  cases b
  · exact hs
  · exact hr

theorem takes_comment : Takes comment :=
  keeps_offset.bind_takes fun _ => (takes_text (by decide)).bind fun _ =>
    (keeps_upTo _).bind fun _ => (keeps_text _).bind fun _ =>
      keeps_if (takes_failAt _ _).keeps (keeps_pure _)

theorem takes_instruction : Takes instruction := by
  refine (keeps_ahead _).bind_takes fun late => ?_
  cases late
  · exact (takes_text (by decide)).bind fun _ => keeps_plainName.bind fun _ =>
      keeps_spaces.bind fun _ => (keeps_upTo _).bind fun _ => keeps_text _
  · exact (takes_fail _).bind fun _ => (keeps_text _).bind fun _ => keeps_plainName.bind fun _ =>
      keeps_spaces.bind fun _ => (keeps_upTo _).bind fun _ => keeps_text _

theorem takes_aside : Takes aside := by
  refine (keeps_ahead _).bind_takes fun marked => ?_
  cases marked
  · exact takes_instruction
  · exact takes_comment

theorem takes_dataSection : Takes dataSection :=
  (takes_text (by decide)).bind fun _ => (keeps_upTo _).bind fun _ =>
    (keeps_text _).bind fun _ => keeps_pure _

/-! ## Plain text takes something -/

theorem le_countUntil {stop : List Char → Bool} {n m : Nat} {cs : List Char}
    (h : countUntil stop n cs = .ok m) : n ≤ m := by
  induction cs generalizing n with
  | nil =>
    cases h
    exact Nat.le_refl _
  | cons x xs ih =>
    unfold countUntil at h
    split at h
    · cases h
    · split at h
      · cases h
        exact Nat.le_refl _
      · exact Nat.le_of_succ_le (ih h)

theorem length_lt_of_upTo {stop : List Char → Bool} {c d : Cursor} {cs : List Char}
    (nonempty : c.rest ≠ []) (goes : stop c.rest = false) (h : upTo stop c = .ok (cs, d)) :
    d.rest.length < c.rest.length := by
  obtain ⟨x, xs, hr⟩ := List.exists_cons_of_ne_nil nonempty
  unfold upTo at h
  split at h
  · rename_i n hn
    cases h
    rw [hr] at hn goes
    have : 1 ≤ n := by
      unfold countUntil at hn
      split at hn
      · cases hn
      · rw [goes] at hn
        exact le_countUntil hn
    simp [hr]
    omega
  · cases h

theorem length_lt_of_plainText {c d : Cursor} {cs : List Char} (nonempty : c.rest ≠ [])
    (plain : c.rest.head? ≠ some '<') (h : plainText c = .ok (cs, d)) :
    d.rest.length < c.rest.length := by
  obtain ⟨start, m, h₁, h⟩ := bind_eq_ok h
  cases h₁
  obtain ⟨written, m, h₂, h⟩ := bind_eq_ok h
  have taken := length_lt_of_upTo nonempty (by simpa using plain) h₂
  refine Nat.lt_of_le_of_lt (Keeps.le ?_ h) taken
  have resolved : Keeps (lift (pieces c.offset written) >>= fun data =>
      pure (characterData false data)) :=
    (keeps_lift _).bind fun _ => keeps_pure _
  cases occurs "]]>".toList written
  · exact resolved
  · exact (takes_fail _).keeps.bind fun _ => resolved

end Reader
end KernelHost.Xml
