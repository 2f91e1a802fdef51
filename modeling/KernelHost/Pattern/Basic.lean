import KernelHost.Pattern.CharSet

/-!
# Patterns

Regular expressions with conditions on places.  The functions that put patterns together keep them
flat: no part of a sequence is a sequence or empty, neighbouring characters are one word, and
alternatives of single characters are a set.
-/

namespace KernelHost

/-- A condition on the words around a place. -/
inductive WordEdge
  /-- The start or the end of a word. -/
  | edge
  /-- Neither the start nor the end of a word. -/
  | noEdge
  /-- The start of a word. -/
  | start
  /-- The end of a word. -/
  | stop
  /-- No character of a word in front. -/
  | noneBefore
  /-- No character of a word behind. -/
  | noneAfter
  deriving DecidableEq, Repr

/-- A condition on a place between two characters. -/
inductive Place
  | textStart
  | textEnd
  /-- The start of a line; a carriage return in front of the line feed may belong to its end. -/
  | lineStart (withReturns : Bool)
  /-- The end of a line, likewise. -/
  | lineEnd (withReturns : Bool)
  /-- An edge of a word, whose characters are ASCII characters or those of all scripts. -/
  | word (condition : WordEdge) (allScripts : Bool)
  deriving DecidableEq, Repr

/-- Whether a character belongs to words, as far as they are ASCII characters. -/
def WordEdge.isWordChar (c : Char) : Bool :=
  c.isAlphanum || c == '_'

/-- Whether a condition on words holds between two characters. -/
def WordEdge.holds (condition : WordEdge) (before after : Option Char) : Bool :=
  let wordBefore := before.any isWordChar
  let wordAfter := after.any isWordChar
  match condition with
  | .edge => wordBefore != wordAfter
  | .noEdge => wordBefore == wordAfter
  | .start => !wordBefore && wordAfter
  | .stop => wordBefore && !wordAfter
  | .noneBefore => !wordBefore
  | .noneAfter => !wordAfter

/-- Whether a condition holds between two characters; there are none at the ends of a text. -/
def Place.holds (place : Place) (before after : Option Char) : Bool :=
  match place with
  | .textStart => before.isNone
  | .textEnd => after.isNone
  | .lineStart false => before.all (· == '\n')
  | .lineEnd false => after.all (· == '\n')
  | .lineStart true => before.all fun c => c == '\n' || (c == '\r' && after != some '\n')
  | .lineEnd true => after.all fun c => c == '\r' || (c == '\n' && before != some '\r')
  | .word condition _ => condition.holds before after

/-- A regular expression. -/
inductive Pattern
  /-- Characters, one behind another. -/
  | literal (word : List Char)
  /-- One character of a set, which is one of all scripts or of ASCII characters only. -/
  | one (set : CharSet) (allScripts : Bool)
  /-- No character, at certain places. -/
  | boundary (place : Place)
  /-- A pattern whose place in the text is remembered. -/
  | group (body : Pattern)
  /-- One pattern behind another. -/
  | sequence (first second : Pattern)
  /-- One of two patterns. -/
  | either (left right : Pattern)
  /-- A pattern so many times at least, and at most if there is a limit, rather often if greedy. -/
  | times (body : Pattern) (least : Nat) (most : Option Nat) (greedy : Bool)
  deriving DecidableEq, Repr

namespace Pattern

/-- The pattern without characters. -/
def nothing : Pattern :=
  .literal []

/-- No text at all. -/
def never : Pattern :=
  .one .empty false

/-- One character of a set, which is a word if there is only one. -/
def ofSet (set : CharSet) (allScripts : Bool) : Pattern :=
  match set.only? with
  | some c => .literal [c]
  | none => if set == .empty then never else .one set allScripts

/-- Puts a pattern that is no sequence in front of another one. -/
def inFront : Pattern → Pattern → Pattern
  | .literal [], p => p
  | p, .literal [] => p
  | .literal word, .literal more => .literal (word ++ more)
  | .literal word, .sequence (.literal more) p => .sequence (.literal (word ++ more)) p
  | p, q => .sequence p q

/-- One pattern behind another. -/
def followedBy : Pattern → Pattern → Pattern
  | .sequence p q, r => followedBy p (followedBy q r)
  | p, r => p.inFront r

/-- The patterns of a sequence. -/
def parts : Pattern → List Pattern
  | .sequence p q => p :: parts q
  | p => [p]

/-- The patterns of alternatives. -/
def branches : Pattern → List Pattern
  | .either p q => p :: branches q
  | p => [p]

/-- The character of a word of one. -/
def char? : Pattern → Option Char
  | .literal [c] => some c
  | _ => none

/-- The set of one character of a set. -/
def set? : Pattern → Option CharSet
  | .one set _ => some set
  | _ => none

/-- The set that alternatives amount to if each is a character, or each is a set. -/
def commonSet? (ps : List Pattern) : Option CharSet :=
  match ps.mapM char?, ps.mapM set? with
  | some cs, _ => some (.ofRanges (cs.map fun c => (c.toNat, c.toNat)))
  | none, some sets => some (sets.foldl .union .empty)
  | none, none => none

/-- Whether a place in the text is remembered. -/
def remembers : Pattern → Bool
  | .literal _ | .one _ _ | .boundary _ => false
  | .group _ => true
  | .sequence p q | .either p q => remembers p || remembers q
  | .times body _ _ _ => remembers body

/-- The parts that two sequences begin with, as long as they remember nothing. -/
def commonParts : List Pattern → List Pattern → List Pattern
  | p :: ps, q :: qs => if p == q && !p.remembers then p :: commonParts ps qs else []
  | _, _ => []

/-- One of some patterns, as they are. -/
def chained : List Pattern → Pattern
  | [] => never
  | [p] => p
  | p :: q :: ps => .either p (chained (q :: ps))

/-- One of some patterns, without regard to what they begin with. -/
def anyOf (ps : List Pattern) : Pattern :=
  match ps with
  | [p] => p
  | _ =>
    match commonSet? ps with
    | some set => ofSet set true
    | none => chained ps

/-- Alternatives that are sequences; what all of them begin with stands in front of the rest. -/
def anySequenceOf (first : List Pattern) (others : List (List Pattern)) : Pattern :=
  let common := others.foldl commonParts first
  let rests := (first :: others).map fun parts =>
    (parts.drop common.length).foldr inFront nothing
  common.foldr inFront (anyOf (rests.flatMap branches))

/-- Whether a pattern is a sequence. -/
def isSequence : Pattern → Bool
  | .sequence _ _ => true
  | _ => false

/-- One of some patterns. -/
def ofAlternatives (ps : List Pattern) : Pattern :=
  match ps.flatMap branches with
  | p :: q :: ps =>
    if (p :: q :: ps).all isSequence then anySequenceOf p.parts ((q :: ps).map parts)
    else anyOf (p :: q :: ps)
  | ps => anyOf ps

/-- Whether a pattern matches no character at all. -/
def isEmptyOnly : Pattern → Bool
  | .literal word => word.isEmpty
  | .one _ _ => false
  | .boundary _ => true
  | .group body => isEmptyOnly body
  | .sequence p q | .either p q => isEmptyOnly p && isEmptyOnly q
  | .times body _ most _ => isEmptyOnly body && most.isSome

/--
A pattern so many times.  Where it matches no character, once is as good as several times.
-/
def repeated (body : Pattern) (least : Nat) (most : Option Nat) (greedy : Bool) : Pattern :=
  let least := if body.isEmptyOnly then min 1 least else least
  let most := if body.isEmptyOnly then some (min 1 (most.getD 1)) else most
  if most = some 0 then nothing
  else if least = 1 ∧ most = some 1 then body
  else .times body least most greedy

/-- Whether a pattern asks for words of all scripts. -/
def needsAllScripts : Pattern → Bool
  | .literal _ | .one _ _ => false
  | .boundary (.word _ allScripts) => allScripts
  | .boundary _ => false
  | .group body | .times body _ _ _ => needsAllScripts body
  | .sequence p q | .either p q => needsAllScripts p || needsAllScripts q

end Pattern
end KernelHost
