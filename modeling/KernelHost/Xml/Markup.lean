import KernelHost.Xml.Tag

/-!
# The pieces of content

Content is a sequence of character data, comments, instructions and tags.  One reader takes the next
piece, whatever it is, and takes something every time.
-/

namespace KernelHost.Xml.Reader

/-- A piece of the content of an element. -/
inductive Markup
  /-- Character data. -/
  | data (cs : List Char)
  /-- A comment or an instruction. -/
  | aside
  | start (tag : Tag)
  /-- An end tag with its offset. -/
  | stop (offset : Nat) (name : QName)

/-- Takes the next piece of content; there has to be some text left. -/
def markup : Reader Markup :=
  fun c =>
    match c.rest with
    | '<' :: '!' :: _ =>
      if c.startsWith "<!--" then (do comment; return .aside : Reader Markup) c
      else if c.startsWith "<![CDATA[" then (do return .data (← dataSection) : Reader Markup) c
      else fail .unknownToken c
    | '<' :: '?' :: _ => (do instruction; return .aside : Reader Markup) c
    | '<' :: '/' :: _ =>
      (do let (offset, name) ← endTag; return .stop offset name : Reader Markup) c
    | ['<'] => fail .unknownToken c
    | '<' :: _ => (do return .start (← startTag) : Reader Markup) c
    | _ => (do return .data (← plainText) : Reader Markup) c

theorem length_lt_of_markup {c d : Cursor} {m : Markup} (nonempty : c.rest ≠ [])
    (h : markup c = .ok (m, d)) : d.rest.length < c.rest.length := by
  unfold markup at h
  split at h
  · split at h
    · exact (takes_comment.bind fun _ => keeps_pure _).lt h
    · split at h
      · exact (takes_dataSection.bind fun _ => keeps_pure _).lt h
      · cases h
  · exact (takes_instruction.bind fun _ => keeps_pure _).lt h
  · exact (takes_endTag.bind fun _ => keeps_pure _).lt h
  · cases h
  · exact (takes_startTag.bind fun _ => keeps_pure _).lt h
  · rename_i plain
    obtain ⟨cs, m, h₁, h₂⟩ := bind_eq_ok h
    cases h₂
    refine length_lt_of_plainText nonempty ?_ h₁
    intro head
    cases hr : c.rest with
    | nil => exact nonempty hr
    | cons x xs =>
      rw [hr] at head
      cases head
      exact plain xs hr

end KernelHost.Xml.Reader
