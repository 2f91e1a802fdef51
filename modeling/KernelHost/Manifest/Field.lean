import KernelHost.Checked
import KernelHost.Text.Blank
import KernelHost.Xml.Tree

/-!
# Fields of elements

How the elements of a manifest are asked for what they hold: attributes that have to be there,
numbers, and text.
-/

namespace KernelHost.Xml.Element

/-- The place of an element. -/
def span (e : Element) : Span :=
  .ofRange e.start e.stop

/-- The value of an attribute that has to be there. -/
def required (e : Element) (name : String) : Checked String :=
  .ofOption (.missingAttribute e.name name) e.span (e.attribute? name)

/-- Reads a value of an attribute, without the blanks around it, as a number. -/
def number {α : Type} (e : Element) (name : String) (read? : String → Option α)
    (value : String) : Checked α :=
  .ofOption (.invalidNumber e.name name value) e.span (read? (Text.trim value))

/-- Reads an attribute as a number, if it is there. -/
def number? {α : Type} (e : Element) (name : String) (read? : String → Option α) :
    Checked (Option α) :=
  match e.attribute? name with
  | none => .ok none
  | some value => (e.number name read? value).map some

/-- The text that the content begins with, without the blanks around it, if it is not blank. -/
def text? (e : Element) : Option String :=
  (e.leadingText?.map Text.trim).filter (· ≠ "")

end KernelHost.Xml.Element
