import KernelHost.Pattern.Flags

/-!
# What written patterns mean

The pattern that a written one stands for, in the light of its flags.  Digits, blanks, words and
case are known of ASCII characters only; where those of all scripts are meant, a pattern that asks
for them is refused.  Where they are not, a pattern may match no part of a character of another
script.
-/

namespace KernelHost.Pattern

/-- A set of characters that is being put together. -/
structure Draft where
  /-- The characters. -/
  set : CharSet := .empty
  /-- Whether it is known to hold with each letter its other case. -/
  hasBothCases : Bool := true
  deriving DecidableEq, Repr

namespace Draft

/-- A set that is there from the start. -/
def ofSet (set : CharSet) : Draft :=
  ⟨set, set == .empty⟩

/-- Adds the characters between two code points. -/
def add (d : Draft) (low high : Nat) : Draft :=
  ⟨d.set.insert low high, false⟩

/-- Adds the characters of another set. -/
def join (d other : Draft) : Draft :=
  if other.set == .empty || other.set == d.set then d
  else ⟨d.set.union other.set, d.hasBothCases && other.hasBothCases⟩

/-- Keeps the characters of another set. -/
def keep (d other : Draft) : Draft :=
  if d.set == .empty then d
  else if other.set == .empty then {}
  else ⟨d.set.intersection other.set, d.hasBothCases && other.hasBothCases⟩

/-- Removes the characters of another set. -/
def remove (d other : Draft) : Draft :=
  if d.set == .empty || other.set == .empty then d
  else ⟨d.set.difference other.set, d.hasBothCases && other.hasBothCases⟩

/-- The set that an operator makes of two. -/
def operate (d other : Draft) : SetOperator → Draft
  | .intersection => d.keep other
  | .difference => d.remove other
  | .symmetricDifference => (d.join other).remove (d.keep other)

/-- Adds the other case of each letter if case is ignored. -/
def foldCase (flags : Flags) (d : Draft) : Except PatternFault Draft :=
  if !flags.caseless || d.hasBothCases then .ok d
  else if !flags.allScripts then .ok ⟨d.set.withBothCases, true⟩
  else if d.set == .empty then .ok {}
  else .error .caseUnavailable

/-- The characters outside of a set, among those of all scripts or among bytes. -/
def negate (flags : Flags) (d : Draft) : Draft :=
  let all := if flags.allScripts then CharSet.lastCode else 0xFF
  ⟨d.set.complement all, d.hasBothCases || d.set == .empty⟩

/-- A set that is closed: first case is ignored, then it is negated. -/
def close (flags : Flags) (negated : Bool) (d : Draft) : Except PatternFault Draft := do
  let d ← d.foldCase flags
  let d := if negated then d.negate flags else d
  if flags.allScripts || d.set.isAscii then return d else .error .bytesRefused

end Draft

/-- The code point of a character in a set. -/
def Flags.code (flags : Flags) (c : Written) : Except PatternFault Nat :=
  if flags.allScripts || c.char.toNat < 0x80 then .ok c.char.toNat
  else if c.isByte then .error .bytesRefused
  else .error .scriptRefused

/-- The characters of a kind. -/
def Flags.ofKind (flags : Flags) (kind : Kind) (negated : Bool) : Except PatternFault CharSet :=
  if flags.allScripts then .error .kindUnavailable
  else if negated then .error .bytesRefused
  else
    let name :=
      match kind with
      | .digit => "digit"
      | .blank => "space"
      | .word => "word"
    .ok ((CharSet.asciiClass? name).getD .empty)

/-- The name of a property without what does not count: its case, and a verb in front. -/
def plainName (name : List Char) : List Char :=
  let lower := name.map Char.toLower
  let rest := if ['i', 's'].isPrefixOf lower then lower.drop 2 else lower
  rest.filter fun c => c.toNat < 0x80 && c != ' ' && c != '_' && c != '-'

/-- The names that are known as names of values, whose values are not. -/
def valueNames : List (List Char) :=
  [['c', 'f'], ['s', 'c'], ['l', 'c']]

/-- What is wrong with a property: none is known. -/
def Flags.propertyFault (flags : Flags) (name : List Char) : PatternFault :=
  if !flags.allScripts then .scriptRefused
  else if valueNames.contains (plainName name) then .propertyValueUnknown
  else .propertyUnknown

/-- Adds the characters that a written set stands for. -/
def SetForm.enter (flags : Flags) : SetForm → Draft → Except PatternFault Draft
  | .nothing, d => .ok d
  | .literal c, d => do
    let n ← flags.code c
    return d.add n n
  | .range first last, d => do
    let low ← flags.code first
    let high ← flags.code last
    return d.add low high
  | .ascii set negated, d => do return d.join (← (Draft.ofSet set).close flags negated)
  | .kind which negated, d => do return d.join (.ofSet (← flags.ofKind which negated))
  | .property name, _ => .error (flags.propertyFault name)
  | .bracket negated content, d => do
    let inner ← enter flags content {}
    return d.join (← inner.close flags negated)
  | .union first rest, d => do
    let d ← enter flags first d
    enter flags rest d
  | .operation operator left right, d => do
    let left ← enter flags left {}
    let right ← enter flags right {}
    let right ← right.foldCase flags
    let left ← left.foldCase flags
    return d.join (left.operate right operator)

/-- The pattern of a character. -/
def Flags.literal (flags : Flags) (c : Written) : Except PatternFault Pattern :=
  if flags.allScripts then
    if flags.caseless then .error .caseUnavailable else .ok (.literal [c.char])
  else if c.isByte && 0x7F < c.char.toNat then .error .bytesRefused
  else
    let set := CharSet.single c.char
    .ok (ofSet (if flags.caseless then set.withBothCases else set) false)

/-- The pattern of any character. -/
def Flags.dot (flags : Flags) : Except PatternFault Pattern :=
  let ends : List (Nat × Nat) :=
    if flags.dotAll then []
    else if flags.withReturns then [(0x0A, 0x0A), (0x0D, 0x0D)]
    else [(0x0A, 0x0A)]
  if flags.allScripts then .ok (.one ((CharSet.ofRanges ends).complement CharSet.lastCode) true)
  else .error .bytesRefused

/-- The pattern of a start. -/
def Flags.start (flags : Flags) : Pattern :=
  .boundary (if flags.multiLine then .lineStart flags.withReturns else .textStart)

/-- The pattern of an end. -/
def Flags.stop (flags : Flags) : Pattern :=
  .boundary (if flags.multiLine then .lineEnd flags.withReturns else .textEnd)

/--
The alternatives that a written pattern stands for, and the flags behind it.  Flags that are
switched in a group are switched for its rest, also behind bars.
-/
def Form.alternatives (flags : Flags) : Form → Except PatternFault (List Pattern × Flags)
  | .nothing => .ok ([.literal []], flags)
  | .literal c => do return ([← flags.literal c], flags)
  | .dot => do return ([← flags.dot], flags)
  | .start => .ok ([flags.start], flags)
  | .stop => .ok ([flags.stop], flags)
  | .textStart => .ok ([.boundary .textStart], flags)
  | .textEnd => .ok ([.boundary .textEnd], flags)
  | .word condition => .ok ([.boundary (.word condition flags.allScripts)], flags)
  | .kind which negated => do return ([ofSet (← flags.ofKind which negated) false], flags)
  | .property name => .error (flags.propertyFault name)
  | .bracket negated content => do
    let d ← content.enter flags {}
    return ([ofSet (← d.close flags negated).set flags.allScripts], flags)
  | .flags switches => .ok ([.literal []], flags.switch switches)
  | .remembered body => do
    let (ps, _) ← alternatives flags body
    return ([.group (ofAlternatives ps)], flags)
  | .switched switches body => do
    let (ps, _) ← alternatives (flags.switch switches) body
    return ([ofAlternatives ps], flags)
  | .sequence first rest => do
    let (ps, flags) ← alternatives flags first
    let (qs, flags) ← alternatives flags rest
    return ([(ofAlternatives ps).followedBy (ofAlternatives qs)], flags)
  | .either first rest => do
    let (ps, flags) ← alternatives flags first
    let (qs, flags) ← alternatives flags rest
    return (ps ++ qs, flags)
  | .times body least most isMarked => do
    let (ps, flags) ← alternatives flags body
    return ([repeated (ofAlternatives ps) least most (isMarked == flags.swapped)], flags)

/-- The pattern that a written one stands for. -/
def ofForm (form : Form) : Except PatternFault Pattern := do
  let (ps, _) ← form.alternatives {}
  return ofAlternatives ps

end KernelHost.Pattern
