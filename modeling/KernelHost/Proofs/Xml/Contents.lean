import KernelHost.Manifest.Field
import Mathlib.Data.List.Induction

/-!
# Contents in pieces

The character data of an element comes in pieces: comments, processing instructions and elements
stand between them.  The text of an element is its first piece, and only if the content begins with
it; its contents are all pieces together.
-/

namespace KernelHost

/-! ## Blanks behind a text -/

namespace Text

theorem trimChars_concat (cs : List Char) (c : Char) :
    trimChars (cs ++ [c]) = if isBlank c then trimChars cs else cs.dropWhile isBlank ++ [c] := by
  rw [trimChars, trimChars, List.dropWhile_append]
  cases blank : isBlank c <;> cases left : cs.dropWhile isBlank <;> simp [blank]

theorem length_trimChars_le (cs : List Char) :
    (trimChars cs).length ≤ (cs.dropWhile isBlank).length := by
  rw [trimChars, List.length_reverse]
  simpa using (List.dropWhile_suffix (l := (cs.dropWhile isBlank).reverse) isBlank).length_le

/-- What stands behind a text is cut off with the blanks at its end only if it is blank itself. -/
theorem trimChars_append_eq_iff (cs ds : List Char) :
    trimChars (cs ++ ds) = trimChars cs ↔ allBlank ds := by
  induction ds using List.reverseRecOn with
  | nil => simp [allBlank]
  | append_singleton ds c ih =>
      rw [← List.append_assoc, trimChars_concat]
      cases blank : isBlank c with
      | true => simpa [allBlank, blank] using ih
      | false =>
          have last : allBlank (ds ++ [c]) = false := by simp [allBlank, blank]
          rw [last, if_neg (by simp)]
          simp only [Bool.false_eq_true, iff_false]
          -- The character is kept, and with it all that is visible in front of it.
          intro same
          have longer := congrArg List.length same
          have kept := length_trimChars_le cs
          rw [List.length_append, List.length_singleton, List.dropWhile_append] at longer
          split at longer
          · rename_i gone
            rw [List.isEmpty_iff.mp gone, List.length_nil] at kept
            omega
          · rw [List.length_append] at longer
            omega

theorem trim_append_eq_iff (s t : String) :
    trim (s ++ t) = trim s ↔ allBlank t.toList := by
  rw [trim, trim, String.ofList_inj, String.toList_append, trimChars_append_eq_iff]

end Text

namespace Xml

/-- The character data among some nodes, joined. -/
def dataOf : List Node → String
  | [] => ""
  | .text data :: nodes => data ++ dataOf nodes
  | .element _ :: nodes => dataOf nodes
  | .aside :: nodes => dataOf nodes

namespace Element

/-- All character data of an element, without the blanks around it, if it is not blank. -/
def contents? (e : Element) : Option String :=
  (some (Text.trim (dataOf e.children))).filter (· ≠ "")

/-- Nothing but blanks stands behind the text that the content begins with. -/
def InOnePiece (e : Element) : Prop :=
  Text.allBlank (dataOf e.children.tail).toList

instance (e : Element) : Decidable e.InOnePiece :=
  inferInstanceAs (Decidable (_ = _))

theorem dataOf_children (e : Element) :
    dataOf e.children = e.leadingText?.getD "" ++ dataOf e.children.tail := by
  obtain ⟨_, _, nodes, _, _⟩ := e
  rcases nodes with _ | ⟨_ | _ | _, _⟩ <;> simp [Element.children, leadingText?, dataOf]

theorem text?_eq (e : Element) :
    e.text? = (some (Text.trim (e.leadingText?.getD ""))).filter (· ≠ "") := by
  rw [text?]
  cases e.leadingText? <;> rfl

/-- The text of an element is the whole of its contents exactly if they are in one piece. -/
theorem text?_eq_contents?_iff (e : Element) : e.text? = e.contents? ↔ e.InOnePiece := by
  have visible (s t : String) :
      (some s).filter (· ≠ "") = (some t).filter (· ≠ "") ↔ t = s := by
    by_cases none : s = "" <;> by_cases none' : t = "" <;>
      simp [Option.filter_some, none, none', eq_comm]
  rw [text?_eq, contents?, visible, dataOf_children, Text.trim_append_eq_iff, InOnePiece]

end Element

/-! ## Without asides -/

/-- A text in front of some nodes, joined with the text that they may begin with. -/
def joinText (data : String) : List Node → List Node
  | .text more :: nodes => .text (data ++ more) :: nodes
  | nodes => .text data :: nodes

mutual

/-- An element without the comments and the instructions in it, and without its place; the pieces
of text that they kept apart are joined. -/
def Element.bare : Element → Element
  | .mk name attributes children _ _ => .mk name attributes (bareNodes children) 0 0

def bareNodes : List Node → List Node
  | [] => []
  | .element e :: nodes => .element e.bare :: bareNodes nodes
  | .text data :: nodes => joinText data (bareNodes nodes)
  | .aside :: nodes => bareNodes nodes

end

theorem dataOf_joinText (data : String) (nodes : List Node) :
    dataOf (joinText data nodes) = data ++ dataOf nodes := by
  rcases nodes with _ | ⟨_ | _ | _, _⟩ <;> simp [joinText, dataOf, String.append_assoc]

theorem dataOf_bareNodes (nodes : List Node) : dataOf (bareNodes nodes) = dataOf nodes := by
  induction nodes with
  | nil => rfl
  | cons node nodes ih =>
      cases node with
      | element e => simpa [bareNodes, dataOf] using ih
      | text data => rw [bareNodes, dataOf_joinText, ih, dataOf]
      | aside => simpa [bareNodes, dataOf] using ih

namespace Element

theorem elements_bare (e : Element) : e.bare.elements = e.elements.map bare := by
  obtain ⟨name, attributes, nodes, start, stop⟩ := e
  have joined (data : String) (nodes : List Node) :
      elements (.mk name attributes (joinText data nodes) 0 0) =
        elements (.mk name attributes nodes 0 0) := by
    rcases nodes with _ | ⟨_ | _ | _, _⟩ <;> rfl
  rw [bare]
  induction nodes with
  | nil => rfl
  | cons node nodes ih =>
      cases node with
      | element e => exact congrArg (e.bare :: ·) ih
      | text data => exact (joined data (bareNodes nodes)).trans ih
      | aside => exact ih

variable {e e' : Element}

theorem name_bare (e : Element) : e.bare.name = e.name := by
  cases e
  rfl

theorem attributes_bare (e : Element) : e.bare.attributes = e.attributes := by
  cases e
  rfl

theorem contents?_bare (e : Element) : e.bare.contents? = e.contents? := by
  rw [contents?, contents?]
  cases e
  rw [bare, Element.children, Element.children, dataOf_bareNodes]

end Element

end Xml
end KernelHost
