import KernelHost.Xml.Document

/-!
# Readers move along the text

A reader takes characters off the front of what is left and counts their bytes.  So the offset of a
cursor is always the length of the text in front of it, and lies between two characters.
-/

namespace KernelHost.Xml

/-- One place lies behind another: some characters stand between them. -/
def Cursor.Reaches (c d : Cursor) : Prop :=
  ∃ between, c.rest = between ++ d.rest ∧ d.offset = c.offset + Text.byteLength between

namespace Cursor

variable {c d e : Cursor}

theorem Reaches.refl (c : Cursor) : c.Reaches c :=
  ⟨[], by simp, by simp⟩

theorem Reaches.trans (front : c.Reaches d) (back : d.Reaches e) : c.Reaches e := by
  obtain ⟨first, rest_c, offset_d⟩ := front
  obtain ⟨second, rest_d, offset_e⟩ := back
  refine ⟨first ++ second, ?_, ?_⟩
  · rw [rest_c, rest_d, List.append_assoc]
  · rw [offset_e, offset_d, Text.byteLength_append, Nat.add_assoc]

theorem reaches_drop (n : Nat) (c : Cursor) : c.Reaches (c.drop n) :=
  ⟨c.rest.take n, (List.take_append_drop n c.rest).symm, rfl⟩

end Cursor

namespace Reader

variable {α β : Type}

/-- The reader goes on to a place behind the one where it starts. -/
def Advances (r : Reader α) : Prop :=
  ∀ c a d, r c = .ok (a, d) → c.Reaches d

theorem Advances.reaches {r : Reader α} (h : r.Advances) {c d : Cursor} {a : α}
    (e : r c = .ok (a, d)) : c.Reaches d :=
  h c a d e

theorem advances_pure (a : α) : Advances (pure a : Reader α) := by
  intro c b d e
  cases e
  exact .refl c

theorem Advances.bind {r : Reader α} {f : α → Reader β} (hr : r.Advances)
    (hf : ∀ a, (f a).Advances) : (r >>= f).Advances := by
  intro c b d e
  obtain ⟨a, m, first, second⟩ := bind_eq_ok e
  exact (hr.reaches first).trans ((hf a).reaches second)

theorem advances_if {b : Bool} {r s : Reader α} (hr : r.Advances) (hs : s.Advances) :
    Advances (if b then r else s) := by
  cases b
  · exact hs
  · exact hr

/-! ## Single steps -/

theorem advances_fail (flaw : Flaw) : Advances (fail flaw : Reader α) := by
  intro c a d e
  cases e

theorem advances_failAt (offset : Nat) (flaw : Flaw) :
    Advances (failAt offset flaw : Reader α) := by
  intro c a d e
  cases e

theorem advances_offset : Advances offset := by
  intro c a d e
  cases e
  exact .refl c

theorem advances_peek? : Advances peek? := by
  intro c a d e
  cases e
  exact .refl c

theorem advances_ahead (text : String) : Advances (ahead text) := by
  intro c a d e
  cases e
  exact .refl c

theorem advances_lift (check : Except Fault α) : Advances (lift check) := by
  intro c a d e
  cases check with
  | error fault => cases e
  | ok b =>
      cases e
      exact .refl c

theorem advances_run (p : Char → Bool) : Advances (run p) := by
  intro c a d e
  cases e
  exact c.reaches_drop _

theorem advances_spaces : Advances spaces := by
  intro c a d e
  cases e
  exact c.reaches_drop _

theorem advances_char (wanted : Char) : Advances (char wanted) := by
  intro c a d e
  unfold char at e
  split at e
  · cases e
  · split at e
    · cases e
      exact c.reaches_drop 1
    · cases e

theorem advances_text (wanted : String) : Advances (text wanted) := by
  intro c a d e
  unfold text at e
  split at e
  · cases e
    exact c.reaches_drop _
  · cases e

theorem advances_upTo (stop : List Char → Bool) : Advances (upTo stop) := by
  intro c a d e
  unfold upTo at e
  split at e
  · cases e
    exact c.reaches_drop _
  · cases e

theorem advances_quote : Advances quote := by
  intro c a d e
  unfold quote at e
  split at e
  · cases e
  · split at e
    · cases e
      exact c.reaches_drop 1
    · cases e

/-! ## Names, comments and data -/

theorem advances_qname : Advances qname := by
  refine advances_offset.bind fun start => (advances_run _).bind fun cs => ?_
  split
  · exact advances_pure _
  · exact advances_failAt _ _

theorem advances_plainName : Advances plainName :=
  advances_offset.bind fun _ => (advances_run _).bind fun _ =>
    advances_if (advances_pure _) (advances_failAt _ _)

theorem advances_comment : Advances comment :=
  advances_offset.bind fun _ => (advances_text _).bind fun _ => (advances_upTo _).bind fun _ =>
    (advances_text _).bind fun _ => advances_if (advances_failAt _ _) (advances_pure _)

theorem advances_instruction : Advances instruction := by
  have body : Advances (do
      text "<?"
      let _ ← plainName
      spaces
      let _ ← upToText "?>"
      text "?>") :=
    (advances_text _).bind fun _ => advances_plainName.bind fun _ => advances_spaces.bind fun _ =>
      (advances_upTo _).bind fun _ => advances_text _
  exact (advances_ahead _).bind fun _ => advances_if ((advances_fail _).bind fun _ => body) body

theorem advances_aside : Advances aside :=
  (advances_ahead _).bind fun _ => advances_if advances_comment advances_instruction

theorem advances_dataSection : Advances dataSection :=
  (advances_text _).bind fun _ => (advances_upTo _).bind fun _ => (advances_text _).bind fun _ =>
    advances_pure _

theorem advances_plainText : Advances plainText := by
  refine advances_offset.bind fun start => (advances_upTo _).bind fun written => ?_
  have body : Advances (do
      let data ← lift (pieces start written)
      return characterData false data) :=
    (advances_lift _).bind fun _ => advances_pure _
  exact advances_if ((advances_fail _).bind fun _ => body) body

/-! ## Tags -/

theorem advances_writtenAttribute : Advances writtenAttribute :=
  advances_offset.bind fun _ => advances_qname.bind fun _ => advances_spaces.bind fun _ =>
    (advances_char _).bind fun _ => advances_spaces.bind fun _ => advances_quote.bind fun _ =>
      advances_offset.bind fun _ => (advances_upTo _).bind fun _ =>
        (advances_char _).bind fun _ => advances_pure _

theorem advances_tagAttribute : Advances tagAttribute :=
  advances_writtenAttribute.bind fun _ => (advances_lift _).bind fun _ => advances_pure _

theorem advances_tagStep (names : TagNames) : Advances (tagStep names) := by
  refine advances_peek?.bind fun before => advances_spaces.bind fun _ =>
    advances_peek?.bind fun next => ?_
  split
  · exact advances_failAt _ _
  · exact (advances_char _).bind fun _ => (advances_char _).bind fun _ => advances_pure _
  · exact (advances_char _).bind fun _ => advances_pure _
  · have body : Advances (do
        let a ← tagAttribute
        return TagStep.more (← lift (names.insert a))) :=
      advances_tagAttribute.bind fun _ => (advances_lift _).bind fun _ => advances_pure _
    exact advances_if ((advances_fail _).bind fun _ => body) body

theorem advances_tagNames (names : TagNames) : Advances (tagNames names) := by
  intro c a d e
  fun_induction tagNames names c with
  | case1 =>
      cases e
      exact .refl _
  | case2 => cases e
  | case3 names c _ closing m step =>
      cases e
      exact (advances_tagStep names).reaches step
  | case4 names c _ more m step ih => exact ((advances_tagStep names).reaches step).trans (ih e)

theorem advances_startTag : Advances startTag := by
  refine advances_offset.bind fun start => (advances_char _).bind fun _ =>
    advances_offset.bind fun nameStart => advances_qname.bind fun name => ?_
  cases name.head == "xmlns"
  · exact (advances_tagNames _).bind fun _ => advances_pure _
  · exact (advances_failAt _ _).bind fun _ => (advances_tagNames _).bind fun _ => advances_pure _

theorem advances_endTag : Advances endTag :=
  advances_offset.bind fun _ => (advances_text _).bind fun _ => advances_qname.bind fun _ =>
    advances_spaces.bind fun _ => (advances_char _).bind fun _ => advances_pure _

theorem advances_declarationSpaces : Advances declarationSpaces := by
  refine advances_peek?.bind fun next => ?_
  split
  · exact advances_pure _
  · refine advances_if advances_spaces ((advances_ahead _).bind fun _ => ?_)
    exact advances_if (advances_fail _) (advances_pure _)

theorem advances_declaration : Advances declaration := by
  -- From the end of the declaration to its front, each item that may be left out has two ways on.
  have ending : Advances (do
      spaces
      text "?>") :=
    advances_spaces.bind fun _ => advances_text _
  have standalone : Advances (do
      if ← ahead "standalone" then
        let _ ← writtenAttribute
      spaces
      text "?>") :=
    (advances_ahead _).bind fun _ =>
      advances_if (advances_writtenAttribute.bind fun _ => ending) ending
  have encoding : Advances (do
      if ← ahead "encoding" then
        let _ ← writtenAttribute
        declarationSpaces
      if ← ahead "standalone" then
        let _ ← writtenAttribute
      spaces
      text "?>") :=
    (advances_ahead _).bind fun _ =>
      advances_if
        (advances_writtenAttribute.bind fun _ => advances_declarationSpaces.bind fun _ =>
          standalone)
        standalone
  have version := advances_writtenAttribute.bind fun _ =>
    advances_declarationSpaces.bind fun _ => encoding
  exact (advances_text _).bind fun _ => advances_declarationSpaces.bind fun _ =>
    (advances_ahead _).bind fun _ => advances_if ((advances_fail _).bind fun _ => version) version

theorem advances_markup : Advances markup := by
  intro c a d e
  unfold markup at e
  split at e
  · split at e
    · exact (advances_comment.bind fun _ => advances_pure _).reaches e
    · split at e
      · exact (advances_dataSection.bind fun _ => advances_pure _).reaches e
      · cases e
  · exact (advances_instruction.bind fun _ => advances_pure _).reaches e
  · exact (advances_endTag.bind fun _ => advances_pure _).reaches e
  · cases e
  · exact (advances_startTag.bind fun _ => advances_pure _).reaches e
  · exact (advances_plainText.bind fun _ => advances_pure _).reaches e

end Reader
end KernelHost.Xml
