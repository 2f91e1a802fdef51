import KernelHost.Pattern.Escape

/-!
# Bracketed sets

Sets of characters in brackets: characters, ranges, classes and further sets, joined, with operators
between them, and possibly negated.
-/

namespace KernelHost.Pattern

/-- A set that is not closed yet. -/
structure Bracket where
  /-- Whether the set is negated. -/
  negated : Bool := false
  /-- What stands in front of the last operator. -/
  left : Option (SetForm × SetOperator) := none
  /-- What is joined behind it, the last first. -/
  items : List SetForm := []
  deriving DecidableEq, Repr

namespace Bracket

/-- Joins a set. -/
def add (b : Bracket) (item : SetForm) : Bracket :=
  { b with items := item :: b.items }

/-- The set without its negation. -/
def content (b : Bracket) : SetForm :=
  let right := SetForm.ofItems b.items.reverse
  match b.left with
  | some (left, operator) => .operation operator left right
  | none => right

/-- Puts an operator behind what is there. -/
def operate (b : Bracket) (operator : SetOperator) : Bracket :=
  { b with left := some (b.content, operator), items := [] }

/-- A character that stands for itself. -/
def plain (c : Char) : SetForm :=
  .literal ⟨c, false⟩

/-- Reads dashes that stand for themselves. -/
def readDashes (spaced : Bool) (items : List SetForm) (cs : List Char) :
    List SetForm × List Char :=
  let (dashes, rest) := gather spaced false (· == '-') cs
  (dashes.map plain ++ items, rest)

/-- Reads the beginning of a set, where a dash or a closing bracket stands for itself. -/
def readStart (spaced : Bool) (cs : List Char) : Except PatternFault (Bracket × List Char) :=
  let cs := skip spaced cs
  let negated := cs.head? == some '^'
  let (items, rest) := readDashes spaced [] (if negated then cs.tail else cs)
  match items, rest with
  | _, [] => .error .setUnclosed
  | [], ']' :: more =>
    match skip spaced more with
    | [] => .error .setUnclosed
    | more => .ok ({ negated, items := [plain ']'] }, more)
  | _, _ => .ok ({ negated, items }, rest)

/-- Reads the name of a class with its colons, from behind the bracket in front. -/
def readClass? : List Char → Option (SetForm × List Char)
  | ':' :: cs =>
    let negated := cs.head? == some '^'
    let cs := if negated then cs.tail else cs
    let name := cs.takeWhile (· ≠ ':')
    match cs.drop name.length, CharSet.asciiClass? (.ofList name) with
    | ':' :: ']' :: rest, some set => some (.ascii set negated, rest)
    | _, _ => none
  | _ => none

/-- Reads a character, or an escape sequence. -/
def readPrimitive (spaced : Bool) : List Char → Except PatternFault (Escape × List Char)
  | [] => .error .setUnclosed
  | '\\' :: cs => Escape.read spaced cs
  | c :: cs => .ok (.literal ⟨c, false⟩, cs)

/-- The set that a character or an escape sequence stands for. -/
def single : Escape → Except PatternFault SetForm
  | .literal c => .ok (.literal c)
  | .kind which negated => .ok (.kind which negated)
  | .property name => .ok (.property name)
  | .boundary _ => .error .setEscapeInvalid

/-- The set of a range. -/
def range : Escape → Escape → Except PatternFault SetForm
  | .literal first, .literal last =>
    if first.char ≤ last.char then .ok (.range first last) else .error .rangeInverted
  | _, _ => .error .rangeEndInvalid

/-- Reads a range, or a character or class alone. -/
def readItem (spaced : Bool) (cs : List Char) : Except PatternFault (SetForm × List Char) := do
  let (first, rest) ← readPrimitive spaced cs
  match skip spaced rest with
  | [] => .error .setUnclosed
  | '-' :: more =>
    if peek? spaced more = some ']' ∨ peek? spaced more = some '-' then
      return (← single first, '-' :: more)
    let (last, rest) ← readPrimitive spaced (skip spaced more)
    return (← range first last, rest)
  | rest => return (← single first, rest)

/--
Reads the rest of a set inside of others, in at most so many steps.  Each step takes a character, so
the length of the rest and one more are enough.
-/
def readRest (spaced : Bool) :
    Nat → Bracket → List Bracket → List Char → Except PatternFault (Form × List Char)
  | 0, _, _, _ => .error .setUnclosed
  | n + 1, b, outer, cs =>
    match skip spaced cs with
    | [] => .error .setUnclosed
    | '[' :: cs =>
      match readClass? cs with
      | some (set, cs) => readRest spaced n (b.add set) outer cs
      | none => do
        let (inner, cs) ← readStart spaced cs
        readRest spaced n inner (b :: outer) cs
    | ']' :: cs =>
      match outer with
      | [] => .ok (.bracket b.negated b.content, cs)
      | next :: outer => readRest spaced n (next.add (.bracket b.negated b.content)) outer cs
    | '&' :: '&' :: cs => readRest spaced n (b.operate .intersection) outer cs
    | '-' :: '-' :: cs => readRest spaced n (b.operate .difference) outer cs
    | '~' :: '~' :: cs => readRest spaced n (b.operate .symmetricDifference) outer cs
    | cs => do
      let (item, cs) ← readItem spaced cs
      readRest spaced n (b.add item) outer cs

/-- Reads a set from behind its opening bracket. -/
def read (spaced : Bool) (cs : List Char) : Except PatternFault (Form × List Char) := do
  let (b, rest) ← readStart spaced cs
  readRest spaced (rest.length + 1) b [] rest

end Bracket
end KernelHost.Pattern
