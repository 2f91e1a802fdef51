import KernelHost.Pattern.Basic
import KernelHost.Pattern.Places

/-!
# Searching for patterns

A pattern leads from places in a text to places in it, and it occurs if it leads anywhere from any
place.  A repetition is followed from all places at once, so that nested ones take no longer than
others.
-/

namespace KernelHost

/-- The places right in front of characters that fit. -/
def Places.before (fits : Char → Bool) (text : List Char) : Places :=
  .ofMarks (text.map fits)

/-- Whether a condition holds at each place behind a character, from the first on. -/
def Place.marks (place : Place) (before : Option Char) : List Char → List Bool
  | [] => [place.holds before none]
  | c :: text => place.holds before (some c) :: place.marks (some c) text

namespace Pattern

/-- The places behind characters, given the places in front of each of them. -/
def advance (steps : List Places) (places : Places) : Places :=
  steps.foldl (fun places fitting => (places.intersection fitting).next) places

/-- For each character of a word the places in a text in front of it. -/
def steps (text word : List Char) : List Places :=
  word.map fun c => .before (· == c) text

/-- For each place of a text the places that a pattern leads to. -/
def links (text : List Char) : Pattern → Links
  | .literal word =>
    let steps := steps text word
    .ofStep (text.length + 1) (advance steps)
  | .one set _ =>
    let steps := [Places.before set.contains text]
    .ofStep (text.length + 1) (advance steps)
  | .boundary place =>
    let fitting := Places.ofMarks (place.marks none text)
    .ofStep (text.length + 1) fun places => places.intersection fitting
  | .group body => links text body
  | .sequence first second => (links text first).compose (links text second)
  | .either left right => (links text left).union (links text right)
  | .times body least most _ => (links text body).times least most

/-- The places that a pattern leads to from some places. -/
def follow (text : List Char) : Pattern → Places → Places
  | .literal word, places => advance (steps text word) places
  | .one set _, places => advance [.before set.contains text] places
  | .boundary place, places => places.intersection (.ofMarks (place.marks none text))
  | .group body, places => follow text body places
  | .sequence first second, places => follow text second (follow text first places)
  | .either left right, places => (follow text left places).union (follow text right places)
  | .times body least most _, places => ((links text body).times least most).image places

/-- Whether a pattern occurs anywhere in a text. -/
def occursIn (pattern : Pattern) (text : String) : Bool :=
  let cs := text.toList
  let everywhere := Places.ofMarks (true :: cs.map fun _ => true)
  pattern.follow cs everywhere != .none

/-- The pattern without characters occurs everywhere. -/
theorem occursIn_nothing (text : String) : nothing.occursIn text = true := by
  simp [occursIn, nothing, follow, steps, advance, Places.ofMarks, Places.none]

end Pattern
end KernelHost
