import KernelHost.Xml.Aside
import KernelHost.Xml.Scope

/-!
# Tags

Start tags with their attributes, end tags, and the XML declaration, which is written like a tag.
-/

namespace KernelHost.Xml

/-- How a start tag ends. -/
inductive TagEnd
  /-- With `>`: content follows. -/
  | opened
  /-- With `/>`: there is no content. -/
  | emptied
  /-- Not at all: the text ends inside it. -/
  | cut
  deriving DecidableEq, Repr

/-- A start tag. -/
structure Tag where
  /-- The offset of its first byte. -/
  start : Nat
  /-- The name of the element. -/
  name : QName
  /-- Its declarations and attributes. -/
  names : TagNames
  /-- How it ends. -/
  closing : TagEnd
  deriving Repr

namespace Reader

/-- Takes a quotation mark. -/
def quote : Reader Char :=
  fun c =>
    match c.rest with
    | [] => .error ⟨.endOfText, 0⟩
    | found :: _ =>
      if found == '\'' || found == '"' then .ok (found, c.drop 1)
      else .error ⟨.expected "a quote" (leadByte found), c.offset⟩

theorem keeps_quote : Keeps quote := by
  intro c a d e
  unfold quote at e
  split at e
  · cases e
  · split at e
    · cases e
      simp
    · cases e

/-- An attribute before its references are resolved. -/
structure WrittenAttribute where
  /-- The offset of its name. -/
  start : Nat
  name : QName
  /-- The offset of its value. -/
  valueStart : Nat
  /-- The text between its quotation marks. -/
  written : List Char

/-- Takes an attribute as it is written. -/
def writtenAttribute : Reader WrittenAttribute := do
  let start ← offset
  let name ← qname
  spaces
  char '='
  spaces
  let mark ← quote
  let valueStart ← offset
  let written ← upTo fun cs => cs.head? == some mark || cs.head? == some '<'
  char mark
  return { start, name, valueStart, written }

/-- Takes an attribute of a tag. -/
def tagAttribute : Reader TagAttribute := do
  let a ← writtenAttribute
  let value ← lift (pieces a.valueStart a.written)
  return { start := a.start, name := a.name, value := .ofList (attributeValue value) }

/-- What comes next in a start tag. -/
inductive TagStep
  /-- Another attribute, entered into the names. -/
  | more (names : TagNames)
  | done (closing : TagEnd)

/-- Takes the next attribute of a start tag or its end. -/
def tagStep (names : TagNames) : Reader TagStep := do
  let spaced := (← peek?).any isSpace
  spaces
  match ← peek? with
  | none => failAt 0 .endOfText
  | some '/' =>
    char '/'
    char '>'
    return .done .emptied
  | some '>' =>
    char '>'
    return .done .opened
  | some found =>
    if !spaced then fail (.expected "a whitespace" (leadByte found))
    let a ← tagAttribute
    return .more (← lift (names.insert a))

/-- Takes an end tag and gives its offset and name. -/
def endTag : Reader (Nat × QName) := do
  let start ← offset
  text "</"
  let name ← qname
  spaces
  char '>'
  return (start, name)

theorem takes_writtenAttribute : Takes writtenAttribute :=
  keeps_offset.bind_takes fun _ => takes_qname.bind fun _ => keeps_spaces.bind fun _ =>
    (takes_char _).keeps.bind fun _ => keeps_spaces.bind fun _ => keeps_quote.bind fun _ =>
      keeps_offset.bind fun _ => (keeps_upTo _).bind fun _ =>
        (takes_char _).keeps.bind fun _ => keeps_pure _

theorem takes_tagAttribute : Takes tagAttribute :=
  takes_writtenAttribute.bind fun _ => (keeps_lift _).bind fun _ => keeps_pure _

theorem takes_tagStep (names : TagNames) : Takes (tagStep names) := by
  refine keeps_peek?.bind_takes fun before => keeps_spaces.bind_takes fun _ =>
    keeps_peek?.bind_takes fun next => ?_
  split
  · exact takes_failAt _ _
  · exact (takes_char _).bind fun _ => (takes_char _).keeps.bind fun _ => keeps_pure _
  · exact (takes_char _).bind fun _ => keeps_pure _
  · rename_i found _ _
    have taken : Takes (tagAttribute >>= fun a => lift (names.insert a) >>= fun more =>
        pure (TagStep.more more)) :=
      takes_tagAttribute.bind fun _ => (keeps_lift _).bind fun _ => keeps_pure _
    cases before.any isSpace
    · exact (takes_fail _).bind fun _ => taken.keeps
    · exact taken

/-- Takes the attributes of a start tag and its end, behind the names already read. -/
def tagNames (names : TagNames) (c : Cursor) : Except Fault ((TagNames × TagEnd) × Cursor) :=
  if c.rest.isEmpty then .ok ((names, .cut), c)
  else
    match _h : tagStep names c with
    | .error fault => .error fault
    | .ok (.done closing, d) => .ok ((names, closing), d)
    | .ok (.more names, d) => tagNames names d
termination_by c.rest.length
decreasing_by exact takes_tagStep _ _ _ _ _h

theorem keeps_tagNames (names : TagNames) : Keeps (tagNames names) := by
  intro c a d e
  fun_induction tagNames names c with
  | case1 => cases e; exact Nat.le_refl _
  | case2 => cases e
  | case3 names c _ closing m h => cases e; exact Nat.le_of_lt (takes_tagStep _ _ _ _ h)
  | case4 names c _ more m h ih =>
    exact Nat.le_of_lt (Nat.lt_of_le_of_lt (ih e) (takes_tagStep _ _ _ _ h))

/-- Takes a start tag. -/
def startTag : Reader Tag := do
  let start ← offset
  char '<'
  let nameStart ← offset
  let name ← qname
  if name.head == "xmlns" then failAt nameStart .declarationTag
  let (names, closing) ← tagNames {}
  return { start, name, names, closing }

theorem takes_startTag : Takes startTag := by
  refine keeps_offset.bind_takes fun start => (takes_char _).bind fun _ =>
    keeps_offset.bind fun nameStart => takes_qname.keeps.bind fun name => ?_
  cases name.head == "xmlns"
  · exact (keeps_tagNames _).bind fun _ => keeps_pure _
  · exact (takes_failAt _ _).keeps.bind fun _ => (keeps_tagNames _).bind fun _ => keeps_pure _

theorem takes_endTag : Takes endTag :=
  keeps_offset.bind_takes fun _ => (takes_text (by decide)).bind fun _ =>
    takes_qname.keeps.bind fun _ => keeps_spaces.bind fun _ =>
      (takes_char _).keeps.bind fun _ => keeps_pure _

/-! ## The XML declaration -/

/-- Passes over the spaces that have to part the items of the XML declaration. -/
def declarationSpaces : Reader Unit := do
  match ← peek? with
  | none => return
  | some found =>
    if isSpace found then spaces
    else if !(← ahead "?>") then fail (.expected "a whitespace" (leadByte found))

/-- Takes the XML declaration; the values in it are not looked at. -/
def declaration : Reader Unit := do
  text "<?xml"
  declarationSpaces
  if !(← ahead "version") then fail (.expectedText "version")
  let _ ← writtenAttribute
  declarationSpaces
  if ← ahead "encoding" then
    let _ ← writtenAttribute
    declarationSpaces
  if ← ahead "standalone" then
    let _ ← writtenAttribute
  spaces
  text "?>"

end Reader
end KernelHost.Xml
