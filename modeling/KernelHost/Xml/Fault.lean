import KernelHost.Text.Position

/-!
# Faults of a document

Why a text is no well-formed document, and where.  The wording is in `Fault.message`.
-/

namespace KernelHost.Xml

/-- The way in which a text fails to be a document. -/
inductive Flaw
  /-- A character that no document may hold. -/
  | nonXmlChar (found : Char)
  /-- A document type declaration. -/
  | documentType
  /-- Something that cannot stand here. -/
  | unknownToken
  /-- No element at all. -/
  | noRoot
  /-- The text ends inside the root element. -/
  | unclosedRoot
  /-- The text ends where something was needed. -/
  | endOfText
  /-- Another byte than the one that was needed. -/
  | expected (what : String) (found : Char)
  /-- Another text than the one that was needed. -/
  | expectedText (text : String)
  /-- Two dashes inside a comment. -/
  | commentDashes
  /-- An XML declaration behind the beginning. -/
  | lateDeclaration
  /-- A name that is none. -/
  | invalidName
  /-- An element whose prefix is reserved for declarations. -/
  | declarationTag
  /-- A declaration of the namespace of declarations. -/
  | declarationSpace
  /-- The prefix `xml` declared for another namespace. -/
  | foreignXmlSpace
  /-- The namespace of `xml` declared for another prefix. -/
  | xmlSpaceElsewhere
  /-- A prefix declared twice in a tag. -/
  | repeatedPrefix (head : String)
  /-- A prefix without a declaration. -/
  | unknownPrefix (head : String)
  /-- An attribute that stands twice in a tag. -/
  | repeatedAttribute (base : String)
  /-- A reference that is none. -/
  | malformedReference
  /-- A reference to an entity that is not predefined. -/
  | unknownEntity (name : String)
  /-- The end of a character data section outside one. -/
  | strayDataEnd
  /-- An end tag for another element than the open one. -/
  | wrongEndTag (opened closed : String)
  deriving DecidableEq, Repr

/-- A flaw and the byte offset at which it is reported. -/
structure Fault where
  /-- What is wrong. -/
  flaw : Flaw
  /-- Where it is; zero for a flaw that is reported without a place. -/
  offset : Nat
  deriving DecidableEq, Repr

/-- A control character as a message shows it. -/
def escaped (c : Char) : String :=
  if c.toNat = 0 then "\\0"
  else "\\u\x7b" ++ String.ofList (Nat.toDigits 16 c.toNat) ++ "\x7d"

/-- The wording of a flaw at a position. -/
def Flaw.message (flaw : Flaw) (position : Text.Position) : String :=
  let place := position.text
  match flaw with
  | .nonXmlChar found => s!"a non-XML character '{escaped found}' found at {place}"
  | .documentType => "XML with DTD detected"
  | .unknownToken => s!"unknown token at {place}"
  | .noRoot => "the document does not have a root node"
  | .unclosedRoot => "the root node was opened but never closed"
  | .endOfText => "unexpected end of stream"
  | .expected what found => s!"expected {what} not '{found}' at {place}"
  | .expectedText text => s!"expected '{text}' at {place}"
  | .commentDashes => s!"comment at {place} contains '--'"
  | .lateDeclaration => s!"unexpected XML declaration at {place}"
  | .invalidName => s!"invalid name token at {place}"
  | .declarationTag => s!"the 'xmlns' prefix is used at {place}, but it must not be"
  | .declarationSpace => s!"the 'xmlns' URI is used at {place}, but it must not be declared"
  | .foreignXmlSpace => s!"'xml' namespace prefix mapped to wrong URI at {place}"
  | .xmlSpaceElsewhere => s!"the 'xml' namespace URI is used for not 'xml' prefix at {place}"
  | .repeatedPrefix head => s!"namespace '{head}' at {place} is already defined"
  | .unknownPrefix head => s!"an unknown namespace prefix '{head}' at {place}"
  | .repeatedAttribute base => s!"attribute '{base}' at {place} is already defined"
  | .malformedReference => s!"malformed entity reference at {place}"
  | .unknownEntity name => s!"unknown entity reference '{name}' at {place}"
  | .strayDataEnd => s!"']]>' at {place} is not allowed inside a character data"
  | .wrongEndTag opened closed => s!"expected '{opened}' tag, not '{closed}' at {place}"

/-- The position of a fault in the text that it was found in. -/
def Fault.position (fault : Fault) (source : String) : Text.Position :=
  .ofOffset source fault.offset

/-- The wording of a fault of the given text. -/
def Fault.message (fault : Fault) (source : String) : String :=
  fault.flaw.message (fault.position source)

end KernelHost.Xml
