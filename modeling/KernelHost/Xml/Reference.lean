import KernelHost.Text.Numeral
import KernelHost.Xml.Fault
import KernelHost.Xml.Name

/-!
# References and line ends

Attribute values and character data hold references, which stand for single characters.  What a
reference stands for is taken as it is; a character written plainly may take part in the treatment
of line ends, so the two are kept apart until that is done.
-/

namespace KernelHost.Xml

/-- A character of a value or of character data. -/
inductive Piece
  /-- A character that is written plainly. -/
  | plain (c : Char)
  /-- A character that a reference stands for. -/
  | referred (c : Char)
  deriving DecidableEq, Repr

/-- The entities that need no declaration. -/
def predefinedEntities : List (String × Char) :=
  [("quot", '"'), ("amp", '&'), ("apos", '\''), ("lt", '<'), ("gt", '>')]

/--
The character with a number.  A number of 32 bits that belongs to no character stands for the
replacement character; one that a document may not hold is refused.
-/
def numbered? (n : Nat) : Option Char :=
  if n < twoTo 32 then
    let c := if h : n.isValidChar then .ofNatAux n h else '\uFFFD'
    if isXmlChar c then some c else none
  else none

/-- Checks that a reference of `size` characters ends in a semicolon, and counts that one too. -/
def ended (size : Nat) (cs : List Char) (c : Char) : Except Flaw (Char × Nat) :=
  if (cs.drop size).head? == some ';' then .ok (c, size + 1) else .error .malformedReference

/-- A reference by number, from behind its mark. -/
def numeric (mark base : Nat) (isDigit : Char → Bool) (cs : List Char) :
    Except Flaw (Char × Nat) :=
  let digits := (cs.drop mark).takeWhile isDigit
  match if digits.isEmpty then none else numbered? (Text.ofBase base digits) with
  | some c => ended (mark + digits.length) cs c
  | none => .error .malformedReference

/-- A reference by name. -/
def named (cs : List Char) : Except Flaw (Char × Nat) :=
  let name := cs.takeWhile isNameChar
  if !beginsName name then .error .malformedReference
  else
    match predefinedEntities.lookup (.ofList name) with
    | some c => ended name.length cs c
    | none =>
      match ended name.length cs '&' with
      | .ok _ => .error (.unknownEntity (.ofList name))
      | .error flaw => .error flaw

/-- Reads the text behind an ampersand: the character it stands for and the length it takes. -/
def reference (cs : List Char) : Except Flaw (Char × Nat) :=
  match cs with
  | '#' :: 'x' :: _ => numeric 2 16 Text.isHexDigit cs
  | '#' :: _ => numeric 1 10 Char.isDigit cs
  | _ => named cs

/-- Resolves the references of a text that begins at the given offset. -/
def pieces (offset : Nat) (cs : List Char) : Except Fault (List Piece) :=
  go [] offset cs
where
  /-- Continues behind the pieces already read, which are held in reverse. -/
  go (done : List Piece) (offset : Nat) : List Char → Except Fault (List Piece)
    | [] => .ok done.reverse
    | c :: cs =>
      if c == '&' then
        match reference cs with
        | .ok (meant, size) =>
          go (.referred meant :: done) (offset + 1 + Text.byteLength (cs.take size))
            (cs.drop size)
        | .error flaw => .error ⟨flaw, offset⟩
      else go (.plain c :: done) (offset + c.utf8Size) cs
  termination_by cs => cs.length
  decreasing_by
    · rw [List.length_drop, List.length_cons]
      omega
    · exact Nat.lt_succ_self _

/-- The value of an attribute: each line end and each tabulator written plainly is a space. -/
def attributeValue : List Piece → List Char
  | [] => []
  | .referred c :: ps => c :: attributeValue ps
  | .plain '\r' :: .plain '\n' :: ps => ' ' :: attributeValue ps
  | .plain c :: ps => (if c == '\r' || c == '\n' || c == '\t' then ' ' else c) :: attributeValue ps

/--
Character data: a carriage return written plainly, with the line feed behind it if there is one, is
a line feed.  It stays as it is right in front of a reference, and right behind one at the end of
the text.
-/
def characterData (behindReference : Bool) : List Piece → List Char
  | [] => []
  | .referred c :: ps => c :: characterData true ps
  | .plain '\r' :: .plain '\n' :: ps => '\n' :: characterData false ps
  | .plain '\r' :: .referred c :: ps => '\r' :: c :: characterData true ps
  | [.plain '\r'] => [if behindReference then '\r' else '\n']
  | .plain '\r' :: .plain c :: ps => '\n' :: characterData false (.plain c :: ps)
  | .plain c :: ps => c :: characterData false ps

end KernelHost.Xml
