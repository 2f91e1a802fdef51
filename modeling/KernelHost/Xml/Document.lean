import KernelHost.Xml.Markup

/-!
# Documents

A document is one element, with comments and instructions around it.  The reader keeps the elements
that are open as a list of frames, so that it needs no recursion in the depth of the tree.
-/

namespace KernelHost.Xml

/-- An element whose end tag is still to come. -/
structure Frame where
  /-- Its name as written. -/
  name : QName
  attributes : List Attribute
  /-- The prefixes known inside it. -/
  scope : Scope
  /-- The offset of its start tag. -/
  start : Nat
  /-- The children read so far, the last one first. -/
  children : List Node

namespace Frame

/-- Adds a child behind the others. -/
def add (frame : Frame) (child : Node) : Frame :=
  { frame with children := child :: frame.children }

/-- Adds character data, which joins the data right in front of it. -/
def addText (frame : Frame) (cs : List Char) : Frame :=
  match frame.children with
  | .text data :: children => { frame with children := .text (data ++ .ofList cs) :: children }
  | _ => frame.add (.text (.ofList cs))

/-- The element, once it ends at the given offset. -/
def close (frame : Frame) (stop : Nat) : Element :=
  .mk frame.name.base frame.attributes frame.children.reverse frame.start stop

/-- The frame of a start tag in a scope. -/
def ofTag (scope : Scope) (tag : Tag) : Except Fault Frame := do
  let inner := tag.names.declared ++ scope
  let attributes ← resolveAttributes inner [] tag.names.attributes
  if tag.name.head != "" && (inner.lookup tag.name.head).isNone then
    .error ⟨.unknownPrefix tag.name.head, tag.start + 1⟩
  return { name := tag.name, attributes, scope := inner, start := tag.start, children := [] }

end Frame

namespace Reader

/-- Reads the content of the innermost frame and of those around it, up to the last end tag. -/
def content (frame : Frame) (outer : List Frame) (c : Cursor) :
    Except Fault (Element × Cursor) :=
  if _hc : c.rest = [] then .error ⟨.unclosedRoot, 0⟩
  else
    match _h : markup c with
    | .error fault => .error fault
    | .ok (.data cs, d) => content (frame.addText cs) outer d
    | .ok (.aside, d) => content (frame.add .aside) outer d
    | .ok (.stop start name, d) =>
      if name = frame.name then
        match outer with
        | [] => .ok (frame.close d.offset, d)
        | parent :: outer => content (parent.add (.element (frame.close d.offset))) outer d
      else .error ⟨.wrongEndTag frame.name.text name.text, start⟩
    | .ok (.start tag, d) =>
      match tag.closing with
      | .cut => content frame outer d
      | .emptied =>
        match Frame.ofTag frame.scope tag with
        | .error fault => .error fault
        | .ok child => content (frame.add (.element (child.close d.offset))) outer d
      | .opened =>
        match Frame.ofTag frame.scope tag with
        | .error fault => .error fault
        | .ok child => content child (frame :: outer) d
termination_by c.rest.length
decreasing_by all_goals exact length_lt_of_markup _hc _h

/-- Takes the outermost element. -/
def root : Reader Element := do
  let tag ← startTag
  match tag.closing with
  | .cut => failAt 0 .noRoot
  | .emptied =>
    let frame ← lift (Frame.ofTag [] tag)
    return frame.close (← offset)
  | .opened => content (← lift (Frame.ofTag [] tag)) []

/-- Takes the comments and instructions outside the outermost element, and spaces around them. -/
def asides (c : Cursor) : Except Fault (Unit × Cursor) :=
  let c' := c.dropSpaces
  if c'.startsWith "<!--" || c'.startsWith "<?" then
    match _h : aside c' with
    | .error fault => .error fault
    | .ok (_, d) => asides d
  else .ok ((), c')
termination_by c.rest.length
decreasing_by exact Nat.lt_of_lt_of_le (takes_aside _ _ _ _h) c.length_rest_dropSpaces

/-- Takes what stands in front of the outermost element. -/
def prolog : Reader Unit := do
  if ← ahead "\uFEFF" then text "\uFEFF"
  if ← ahead "<?xml " then declaration
  asides
  if ← ahead "<!DOCTYPE" then failAt 0 .documentType

/-- Takes a whole document. -/
def document : Reader Element := do
  prolog
  if ← ahead "<" then
    let element ← root
    asides
    if (← peek?).isSome then fail .unknownToken
    return element
  else if (← peek?).isSome then fail .unknownToken
  else failAt 0 .noRoot

end Reader

/-- Reads the root element of a document. -/
def readDocument (source : String) : Except Fault Element :=
  (Reader.document (.ofText source)).map (·.1)

end KernelHost.Xml
