import KernelHost.Proofs.Xml.Advance
import Mathlib.Logic.Relation

/-!
# The extent of elements

Every element of a document, at any depth, takes up at least one character of the text, and its
offsets are the bytes in front of these characters and behind them.  The reader of content keeps
this for the elements that are complete; for those that are open it keeps where they begin.
-/

namespace KernelHost.Xml

namespace Element

/-- The elements inside an element, at any depth, and the element itself. -/
def Contains : Element → Element → Prop :=
  Relation.ReflTransGen fun e child => child ∈ e.elements

/-- The condition holds of an element and of all that it contains. -/
def Everywhere (P : Element → Prop) (e : Element) : Prop :=
  ∀ inner, e.Contains inner → P inner

/-- The element is a part of a text, and not an empty one. -/
def Occupies (cs : List Char) (e : Element) : Prop :=
  ∃ front inside behind, cs = front ++ inside ++ behind ∧ inside ≠ [] ∧
    e.start = Text.byteLength front ∧ e.stop = Text.byteLength (front ++ inside)

variable {P : Element → Prop} {e : Element}

theorem Everywhere.self (all : e.Everywhere P) : P e :=
  all e .refl

theorem Everywhere.child (all : e.Everywhere P) {child : Element} (mem : child ∈ e.elements) :
    child.Everywhere P :=
  fun inner contains => all inner (.head mem contains)

theorem everywhere_of_children (self : P e) (children : ∀ child ∈ e.elements, child.Everywhere P) :
    e.Everywhere P := by
  intro inner contains
  rcases Relation.ReflTransGen.cases_head contains with rfl | ⟨child, mem, rest⟩
  · exact self
  · exact children child mem inner rest

theorem everywhere_iff :
    e.Everywhere P ↔ P e ∧ ∀ child ∈ e.elements, child.Everywhere P :=
  ⟨fun all => ⟨all.self, fun _ => all.child⟩, fun ⟨self, children⟩ =>
    everywhere_of_children self children⟩

theorem mem_elements {child : Element} : child ∈ e.elements ↔ .element child ∈ e.children := by
  rw [elements, List.mem_filterMap]
  constructor
  · rintro ⟨node, mem, isElement⟩
    cases node with
    | element other =>
        cases isElement
        exact mem
    | text data => cases isElement
    | aside => cases isElement
  · exact fun mem => ⟨_, mem, rfl⟩

end Element

mutual

/-- A test succeeds on an element and on all that it contains. -/
def Element.all (test : Element → Bool) : Element → Bool
  | .mk name attributes children start stop =>
    test (.mk name attributes children start stop) && allNodes test children

def allNodes (test : Element → Bool) : List Node → Bool
  | [] => true
  | .element e :: nodes => e.all test && allNodes test nodes
  | .text _ :: nodes => allNodes test nodes
  | .aside :: nodes => allNodes test nodes

end

mutual

theorem Element.all_iff (test : Element → Bool) (e : Element) :
    e.all test ↔ e.Everywhere (test · = true) := by
  match e with
  | .mk name attributes children start stop =>
      rw [Element.all, Bool.and_eq_true, allNodes_iff test children, Element.everywhere_iff]
      simp only [Element.mem_elements, Element.children]

theorem allNodes_iff (test : Element → Bool) (nodes : List Node) :
    allNodes test nodes ↔ ∀ e, .element e ∈ nodes → e.Everywhere (test · = true) := by
  match nodes with
  | [] => simp [allNodes]
  | .element e :: nodes => simp [allNodes, Element.all_iff test e, allNodes_iff test nodes]
  | .text _ :: nodes => simp [allNodes, allNodes_iff test nodes]
  | .aside :: nodes => simp [allNodes, allNodes_iff test nodes]

end

instance (P : Element → Prop) [DecidablePred P] : DecidablePred (Element.Everywhere P) := fun e =>
  decidable_of_iff (e.all fun inner => P inner) ((Element.all_iff _ e).trans (by simp))

/-- A place between two characters of a text. -/
def Cursor.In (cs : List Char) (c : Cursor) : Prop :=
  ∃ front, cs = front ++ c.rest ∧ c.offset = Text.byteLength front

namespace Cursor

variable {cs : List Char} {c d : Cursor}

theorem in_ofText (source : String) : (Cursor.ofText source).In source.toList :=
  ⟨[], rfl, rfl⟩

theorem In.of_reaches (inside : c.In cs) (reaches : c.Reaches d) : d.In cs := by
  obtain ⟨front, text, offset⟩ := inside
  obtain ⟨between, rest, moved⟩ := reaches
  refine ⟨front ++ between, ?_, ?_⟩
  · rw [text, rest, List.append_assoc]
  · rw [moved, offset, Text.byteLength_append]

end Cursor

/-! ## Open elements -/

/-- A frame begins at a place of the text in front of a cursor, and what is complete inside it are
parts of the text. -/
structure Frame.Open (cs : List Char) (c : Cursor) (frame : Frame) : Prop where
  begun : ∃ opening : Cursor, opening.In cs ∧ opening.offset = frame.start ∧
    opening.Reaches c ∧ c.rest.length < opening.rest.length
  children : ∀ child, .element child ∈ frame.children → child.Everywhere (·.Occupies cs)

namespace Frame.Open

variable {cs : List Char} {c d : Cursor} {frame : Frame}

theorem inside (opened : frame.Open cs c) : c.In cs := by
  obtain ⟨opening, inside, -, reaches, -⟩ := opened.begun
  exact inside.of_reaches reaches

theorem forward (opened : frame.Open cs c) (reaches : c.Reaches d) : frame.Open cs d := by
  obtain ⟨opening, inside, start, behind, shorter⟩ := opened.begun
  have taken : d.rest.length ≤ c.rest.length := by
    obtain ⟨between, rest, -⟩ := reaches
    rw [rest, List.length_append]
    omega
  exact ⟨⟨opening, inside, start, behind.trans reaches, by omega⟩, opened.children⟩

/-- A frame begins where its tag does. -/
theorem of_tag {scope : Scope} {tag : Tag} (made : Frame.ofTag scope tag = .ok frame)
    (inside : c.In cs) (start : tag.start = c.offset) (reaches : c.Reaches d)
    (shorter : d.rest.length < c.rest.length) : frame.Open cs d := by
  simp only [Frame.ofTag, bind, Except.bind, pure, Except.pure] at made
  split at made
  · cases made
  · split at made
    · cases made
    · cases made
      exact ⟨⟨c, inside, start.symm, reaches, shorter⟩, by simp⟩

theorem add_element (opened : frame.Open cs c) {child : Element}
    (complete : child.Everywhere (·.Occupies cs)) : (frame.add (.element child)).Open cs c := by
  refine ⟨opened.begun, fun other mem => ?_⟩
  rcases List.mem_cons.mp mem with same | mem
  · cases same
    exact complete
  · exact opened.children other mem

theorem add_aside (opened : frame.Open cs c) : (frame.add .aside).Open cs c := by
  refine ⟨opened.begun, fun other mem => ?_⟩
  rcases List.mem_cons.mp mem with same | mem
  · cases same
  · exact opened.children other mem

theorem addText (opened : frame.Open cs c) (data : List Char) :
    (frame.addText data).Open cs c := by
  rw [Frame.addText]
  split
  · rename_i before children split
    refine ⟨opened.begun, fun other mem => ?_⟩
    rcases List.mem_cons.mp mem with same | mem
    · cases same
    · apply opened.children
      rw [split]
      exact List.mem_cons_of_mem _ mem
  · refine ⟨opened.begun, fun other mem => ?_⟩
    rcases List.mem_cons.mp mem with same | mem
    · cases same
    · exact opened.children other mem

/-- A frame becomes a part of the text when it is closed. -/
theorem close (opened : frame.Open cs c) :
    (frame.close c.offset).Everywhere (·.Occupies cs) := by
  obtain ⟨opening, ⟨front, text, offset⟩, start, ⟨between, rest, moved⟩, shorter⟩ := opened.begun
  apply Element.everywhere_of_children
  · refine ⟨front, between, c.rest, ?_, ?_, ?_, ?_⟩
    · rw [text, rest, List.append_assoc]
    · rintro rfl
      rw [rest] at shorter
      simp at shorter
    · exact start.symm.trans offset
    · rw [Text.byteLength_append, ← offset]
      exact moved
  · intro child mem
    exact opened.children child (List.mem_reverse.mp (Element.mem_elements.mp mem))

end Frame.Open

namespace Reader

theorem start_of_startTag {c d : Cursor} {tag : Tag} (read : startTag c = .ok (tag, d)) :
    tag.start = c.offset := by
  obtain ⟨start, _, begun, read⟩ := bind_eq_ok read
  cases begun
  obtain ⟨_, _, -, read⟩ := bind_eq_ok read
  obtain ⟨_, _, -, read⟩ := bind_eq_ok read
  obtain ⟨name, m, -, read⟩ := bind_eq_ok read
  cases declares : name.head == "xmlns" with
  | false =>
      rw [declares] at read
      obtain ⟨_, _, -, made⟩ := bind_eq_ok read
      cases made
      rfl
  | true =>
      rw [declares] at read
      obtain ⟨_, _, failed, -⟩ := bind_eq_ok read
      cases failed

theorem startTag_of_markup {c d : Cursor} {tag : Tag} (read : markup c = .ok (.start tag, d)) :
    startTag c = .ok (tag, d) := by
  unfold markup at read
  split at read
  · split at read
    · obtain ⟨_, _, -, made⟩ := bind_eq_ok read
      cases made
    · split at read
      · obtain ⟨_, _, -, made⟩ := bind_eq_ok read
        cases made
      · cases read
  · obtain ⟨_, _, -, made⟩ := bind_eq_ok read
    cases made
  · obtain ⟨_, _, -, made⟩ := bind_eq_ok read
    cases made
  · cases read
  · obtain ⟨_, _, begun, made⟩ := bind_eq_ok read
    cases made
    exact begun
  · obtain ⟨_, _, -, made⟩ := bind_eq_ok read
    cases made

/-- Where the frames that are open begin in front of the cursor, the element that is read is a part
of the text, and so is all that it contains. -/
theorem everywhere_of_content {cs : List Char} {frame : Frame} {outer : List Frame} {c d : Cursor}
    {e : Element} (read : content frame outer c = .ok (e, d))
    (opened : ∀ f ∈ frame :: outer, f.Open cs c) : e.Everywhere (·.Occupies cs) := by
  -- Each case takes one piece of content; the frames that stay open are open behind it as well.
  have forward {frame : Frame} {outer : List Frame} {c d : Cursor} {piece : Markup}
      (taken : markup c = .ok (piece, d)) (opened : ∀ f ∈ frame :: outer, f.Open cs c) :
      frame.Open cs d ∧ ∀ f ∈ outer, f.Open cs d := by
    have later := fun f mem => (opened f mem).forward (advances_markup.reaches taken)
    exact ⟨later frame List.mem_cons_self, fun f mem => later f (List.mem_cons_of_mem _ mem)⟩
  fun_induction content frame outer c with
  | case1 => cases read
  | case2 => cases read
  | case3 frame outer c nonempty data m taken ih =>
      obtain ⟨inner, rest⟩ := forward taken opened
      exact ih read (List.forall_mem_cons.mpr ⟨inner.addText data, rest⟩)
  | case4 frame outer c nonempty m taken ih =>
      obtain ⟨inner, rest⟩ := forward taken opened
      exact ih read (List.forall_mem_cons.mpr ⟨inner.add_aside, rest⟩)
  | case5 frame c nonempty start m taken =>
      cases read
      exact (forward taken opened).1.close
  | case6 frame c nonempty start m parent outer taken ih =>
      obtain ⟨inner, rest⟩ := forward taken opened
      obtain ⟨around, rest⟩ := List.forall_mem_cons.mp rest
      exact ih read (List.forall_mem_cons.mpr ⟨around.add_element inner.close, rest⟩)
  | case7 => cases read
  | case8 frame outer c nonempty tag m taken cut ih =>
      obtain ⟨inner, rest⟩ := forward taken opened
      exact ih read (List.forall_mem_cons.mpr ⟨inner, rest⟩)
  | case9 => cases read
  | case10 frame outer c nonempty tag m taken emptied child made ih =>
      obtain ⟨inner, rest⟩ := forward taken opened
      have begun : child.Open cs m :=
        .of_tag made (opened frame List.mem_cons_self).inside
          (start_of_startTag (startTag_of_markup taken)) (advances_markup.reaches taken)
          (length_lt_of_markup nonempty taken)
      exact ih read (List.forall_mem_cons.mpr ⟨inner.add_element begun.close, rest⟩)
  | case11 => cases read
  | case12 frame outer c nonempty tag m taken opening child made ih =>
      obtain ⟨inner, rest⟩ := forward taken opened
      have begun : child.Open cs m :=
        .of_tag made (opened frame List.mem_cons_self).inside
          (start_of_startTag (startTag_of_markup taken)) (advances_markup.reaches taken)
          (length_lt_of_markup nonempty taken)
      exact ih read (List.forall_mem_cons.mpr ⟨begun, List.forall_mem_cons.mpr ⟨inner, rest⟩⟩)

theorem everywhere_of_root {cs : List Char} {c d : Cursor} {e : Element}
    (read : root c = .ok (e, d)) (inside : c.In cs) : e.Everywhere (·.Occupies cs) := by
  obtain ⟨tag, m, taken, read⟩ := bind_eq_ok read
  have opened {frame : Frame} {k : Cursor}
      (made : lift (Frame.ofTag [] tag) m = .ok (frame, k)) : k = m ∧ frame.Open cs m := by
    cases outcome : Frame.ofTag [] tag with
    | error fault =>
        rw [outcome] at made
        cases made
    | ok child =>
        rw [outcome] at made
        cases made
        exact ⟨rfl, .of_tag outcome inside (start_of_startTag taken)
          (advances_startTag.reaches taken) (takes_startTag.lt taken)⟩
  cases closing : tag.closing with
  | cut =>
      simp only [closing] at read
      cases read
  | emptied =>
      simp only [closing] at read
      obtain ⟨frame, k, made, rest⟩ := bind_eq_ok read
      obtain ⟨rfl, begun⟩ := opened made
      obtain ⟨_, _, ended, closed⟩ := bind_eq_ok rest
      cases ended
      cases closed
      exact begun.close
  | opened =>
      simp only [closing] at read
      obtain ⟨frame, k, made, rest⟩ := bind_eq_ok read
      obtain ⟨rfl, begun⟩ := opened made
      exact everywhere_of_content rest (by simpa using begun)

theorem advances_asides : Advances asides := by
  intro c a d e
  fun_induction asides c with
  | case1 => cases e
  | case2 c c' ahead u m taken ih =>
      exact ((c.reaches_drop _).trans (advances_aside.reaches taken)).trans (ih e)
  | case3 c c' ahead =>
      have same : c.dropSpaces = d := congrArg Prod.snd (Except.ok.inj e)
      rw [← same]
      exact c.reaches_drop _

theorem advances_prolog : Advances prolog := by
  have ending : Advances (do
      asides
      if ← ahead "<!DOCTYPE" then failAt 0 .documentType) :=
    advances_asides.bind fun _ => (advances_ahead _).bind fun _ =>
      advances_if (advances_failAt _ _) (advances_pure _)
  have declared : Advances (do
      if ← ahead "<?xml " then declaration
      asides
      if ← ahead "<!DOCTYPE" then failAt 0 .documentType) :=
    (advances_ahead _).bind fun _ => advances_if (advances_declaration.bind fun _ => ending) ending
  exact (advances_ahead _).bind fun _ =>
    advances_if ((advances_text _).bind fun _ => declared) declared

/-- The element of a document is the one that is read behind its prolog. -/
theorem root_of_document {c d : Cursor} {e : Element} (read : document c = .ok (e, d)) :
    ∃ m k, c.Reaches m ∧ root m = .ok (e, k) := by
  obtain ⟨_, m, opening, read⟩ := bind_eq_ok read
  obtain ⟨_, _, looked, read⟩ := bind_eq_ok read
  cases looked
  cases tagged : m.startsWith "<" with
  | true =>
      simp only [tagged] at read
      obtain ⟨element, k, taken, read⟩ := bind_eq_ok read
      obtain ⟨_, _, -, read⟩ := bind_eq_ok read
      obtain ⟨next, _, -, read⟩ := bind_eq_ok read
      cases left : next.isSome with
      | true =>
          simp only [left] at read
          cases read
      | false =>
          simp only [left] at read
          cases read
          exact ⟨m, k, advances_prolog.reaches opening, taken⟩
  | false =>
      simp only [tagged] at read
      obtain ⟨next, _, -, read⟩ := bind_eq_ok read
      cases left : next.isSome with
      | true =>
          simp only [left] at read
          cases read
      | false =>
          simp only [left] at read
          cases read

end Reader

/-- Every element of a document takes up a part of its text, and not an empty one. -/
theorem everywhere_of_readDocument {source : String} {root : Element}
    (read : readDocument source = .ok root) : root.Everywhere (·.Occupies source.toList) := by
  rw [readDocument] at read
  cases whole : Reader.document (.ofText source) with
  | error fault =>
      rw [whole] at read
      cases read
  | ok result =>
      rw [whole] at read
      cases read
      obtain ⟨m, k, reaches, taken⟩ := Reader.root_of_document whole
      exact Reader.everywhere_of_root taken ((Cursor.in_ofText source).of_reaches reaches)

end KernelHost.Xml
