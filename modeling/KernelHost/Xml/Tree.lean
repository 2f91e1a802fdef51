/-!
# Trees

What a document holds: elements with attributes and children.  Each element knows the bytes that it
takes up in the text.
-/

namespace KernelHost.Xml

/-- An attribute of an element. -/
structure Attribute where
  /-- The namespace of its prefix, if it has one. -/
  space : Option String
  /-- Its name without the prefix. -/
  base : String
  /-- Its value with references resolved. -/
  value : String
  deriving DecidableEq, Repr

mutual

/-- An element of a document. -/
inductive Element
  /-- An element by its name without prefix, its attributes, its children and its bytes. -/
  | mk (name : String) (attributes : List Attribute) (children : List Node) (start stop : Nat)

/-- A child of an element. -/
inductive Node
  | element (e : Element)
  /-- Character data, plain and from data sections side by side. -/
  | text (data : String)
  /-- A comment or a processing instruction. -/
  | aside

end

namespace Element

/-- The name without prefix. -/
def name : Element → String
  | .mk name _ _ _ _ => name

/-- The attributes in the order of the text. -/
def attributes : Element → List Attribute
  | .mk _ attributes _ _ _ => attributes

/-- The children in the order of the text. -/
def children : Element → List Node
  | .mk _ _ children _ _ => children

/-- The offset of the start tag. -/
def start : Element → Nat
  | .mk _ _ _ start _ => start

/-- The offset behind the end tag. -/
def stop : Element → Nat
  | .mk _ _ _ _ stop => stop

/-- The value of the attribute with the given name and no prefix. -/
def attribute? (e : Element) (name : String) : Option String :=
  (e.attributes.find? fun a => a.space.isNone && a.base == name).map (·.value)

/-- The children that are elements. -/
def elements (e : Element) : List Element :=
  e.children.filterMap fun
    | .element child => some child
    | _ => none

/-- The character data that the content begins with. -/
def leadingText? (e : Element) : Option String :=
  match e.children with
  | .text data :: _ => some data
  | _ => none

end Element
end KernelHost.Xml
