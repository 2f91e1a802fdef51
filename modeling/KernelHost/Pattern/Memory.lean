import KernelHost.Pattern.Basic
import KernelHost.Pattern.Machine

/-!
# The memory of patterns

The machines that search for a pattern, and how much memory they take.  One machine reads forward
and remembers groups, another one reads backward.
-/

namespace KernelHost.Pattern

/-- The bytes of UTF-8 of a word. -/
def encoded (word : List Char) : List UInt8 :=
  word.flatMap String.utf8EncodeChar

/-- Adds the states behind what words begin with, of at most so many bytes each. -/
def Machine.addTree : Nat → List (List UInt8) → Machine → Machine
  | 0, _, m => m
  | n + 1, words, m =>
    let groups := words.splitOnP (·.isEmpty)
    let ended := (words.dropWhile (·.isEmpty)).countP (·.isEmpty)
    let ends := if words.head?.any (·.isEmpty) then ended + 1 else ended
    let ways := ends + groups.countP (!·.isEmpty)
    let addGroup (m : Machine) (group : List (List UInt8)) : Machine :=
      let bytes := (group.filterMap List.head?).eraseDups
      let m :=
        match bytes with
        | [] => m
        | [_] => m.addStates 1
        | _ => m.addBranch bytes.length
      bytes.foldl
        (fun m b =>
          let words := (group.filter (·.head? == some b)).map List.tail
          if words.all (·.isEmpty) then m else addTree n words m)
        m
    (groups.foldl addGroup m).addChoice ways

/-- The words of alternatives, if they are nothing else. -/
def words? : Pattern → Option (List (List Char))
  | .literal (c :: word) => some [c :: word]
  | .either p q => do return (← words? p) ++ (← words? q)
  | _ => none

/-- Adds alternative words; equal beginnings are shared. -/
def Machine.addWords (backward : Bool) (words : List (List Char)) (m : Machine) : Machine :=
  let words := words.map encoded
  let words := if backward then words.map List.reverse else words
  (m.addStates 1).addTree ((words.foldl (fun n word => max n word.length) 0) + 1) words

/-- Joins an alternative with those in front of it; the second one brings the choice. -/
def Machine.join (m : Machine) (inFront : Nat) : Machine :=
  if inFront = 1 then (m.addStates 2).addWays 1 else m.addWays 1

/-- The least number of characters that a pattern matches, if it can match at all. -/
def leastLength? : Pattern → Option Nat
  | .literal word => some word.length
  | .one set _ => if set == .empty then none else some 1
  | .boundary _ => some 0
  | .group body => leastLength? body
  | .sequence p q => do return (← leastLength? p) + (← leastLength? q)
  | .either p q => do return min (← leastLength? p) (← leastLength? q)
  | .times body least _ _ => do return least * (← leastLength? body)

/-- Whether a pattern always matches some character. -/
def isConsuming (p : Pattern) : Bool :=
  p.leastLength?.any (0 < ·)

/-- Adds a pattern so many times, given how to add it once. -/
def Machine.addTimes (addBody : Machine → Machine) (isConsuming : Bool) (m : Machine) :
    Nat → Option Nat → Machine
  | 0, some 1 => (addBody (m.addChoice 2)).addStates 1
  | 0, none =>
    if isConsuming then addBody (m.addChoice 2)
    else (((addBody m).addChoice 2).addChoice 2).addStates 1
  | least, none => (growTimes addBody least m).addChoice 2
  | least, some most =>
    let first := if least = 0 then m.addStates 1 else growTimes addBody least m
    if least = most then first
    else growTimes (fun m => addBody (m.addChoice 2)) (most - least) (first.addStates 1)

/--
Adds a pattern to a machine.  If it is the rest of alternatives, so many of them are there in front
of it.
-/
def build (backward : Bool) : Pattern → Nat → Machine → Machine
  | .literal [], _, m => m.addStates 1
  | .literal word, _, m => m.addStates (encoded word).length
  | .one set _, _, m => m.addSet backward set
  | .boundary _, _, m => m.addStates 1
  | .group body, _, m =>
    if backward then build backward body 0 m
    else (build backward body 0 (m.addStates 1)).addStates 1
  | .sequence p q, _, m =>
    if backward then build backward p 0 (build backward q 0 m)
    else build backward q 0 (build backward p 0 m)
  | .either p q, inFront, m =>
    match if inFront = 0 then words? (.either p q) else none with
    | some words => m.addWords backward words
    | none =>
      let m := (build backward p 0 m).join inFront
      match q with
      | .either _ _ => build backward q (inFront + 1) m
      | _ => (build backward q 0 m).join (inFront + 1)
  | .times body least most _, _, m =>
    m.addTimes (fun m => build backward body 0 m) body.isConsuming least most

/-- Whether a pattern begins at a place of a kind. -/
def beginsAt (place : Place) : Pattern → Bool
  | .literal _ | .one _ _ => false
  | .boundary p => p == place
  | .group body => beginsAt place body
  | .sequence p q => beginsAt place p || (p.isEmptyOnly && beginsAt place q)
  | .either p q => beginsAt place p && beginsAt place q
  | .times body least _ _ => 0 < least && beginsAt place body

/-- Whether a pattern ends at a place of a kind. -/
def endsAt (place : Place) : Pattern → Bool
  | .literal _ | .one _ _ => false
  | .boundary p => p == place
  | .group body => endsAt place body
  | .sequence p q => endsAt place q || (q.isEmptyOnly && endsAt place p)
  | .either p q => endsAt place p && endsAt place q
  | .times body least _ _ => 0 < least && endsAt place body

/-- The machine for a pattern; what may stand in front of the pattern takes states too. -/
def machine (backward : Bool) (p : Pattern) : Machine :=
  let isFixed := if backward then p.endsAt .textEnd else p.beginsAt .textStart
  let front : Machine :=
    if isFixed then Machine.addStates {} 1
    else ((Machine.addChoice {} 2).addStates 1).addBranch 1
  let whole :=
    if backward then p.build backward 0 front
    else (p.build backward 0 (front.addStates 1)).addStates 1
  whole.addStates 1

/-- The bytes of the machine for a pattern. -/
def memory (backward : Bool) (p : Pattern) : Nat :=
  (p.machine backward).bytes

end KernelHost.Pattern
