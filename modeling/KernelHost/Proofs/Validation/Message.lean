import KernelHost.CType.Scalar
import KernelHost.Code.Expr
import Mathlib.Tactic.Common

/-!
# Conversions

The conversions that `printf` finds in a format.  A format that is made of parts has those that it
was given as such, if no text in it has a percent sign.
-/

namespace KernelHost.Validation

open Code (Piece formatText)

/-- The letters that may stand between the percent sign and the last letter of a conversion. -/
def modifiers : List Char := ['h', 'l', 'L']

/-- The conversions in a text, behind what was read of one since its percent sign. -/
def scan : Option (List Char) → List Char → List (List Char)
  | _, [] => []
  | none, c :: cs => scan (if c = '%' then some [] else none) cs
  | some read, c :: cs =>
    if c ∈ modifiers then scan (some (read ++ [c])) cs
    else if c = '%' then scan none cs
    else (read ++ [c]) :: scan none cs

/-- The conversions of a format, without their percent signs. -/
def conversions (format : String) : List String :=
  (scan none format.toList).map String.ofList

/-- Whether a text is a conversion without its percent sign. -/
def isConversion (name : String) : Bool :=
  match name.toList.dropWhile (· ∈ modifiers) with
  | [c] => c != '%'
  | _ => false

/-- The conversions of values, the one for unknown types last. -/
def valueConversions : List String :=
  ["c", "hd", "hu", "d", "u", "ld", "lu", "lld", "llu", "f", "lf", "Lf", "x"]

theorem conversion_mem (type : String) : CType.conversion type ∈ valueConversions := by
  have known : ∀ name ∈ CType.conversion? type, name ∈ valueConversions := by
    intro name given
    rw [CType.conversion?] at given
    split at given <;> cases given <;> decide
  cases found : CType.conversion? type with
  | none => rw [CType.conversion, found]; decide
  | some name =>
      rw [CType.conversion, found]
      exact known name (by simp [found])

theorem isConversion_conversion (type : String) : isConversion (CType.conversion type) :=
  (by decide : ∀ name ∈ valueConversions, isConversion name) _ (conversion_mem type)

theorem scan_text {cs : List Char} (plain : '%' ∉ cs) (rest : List Char) :
    scan none (cs ++ rest) = scan none rest := by
  induction cs with
  | nil => rfl
  | cons c cs ih =>
      have ne : c ≠ '%' := fun same => plain (by simp [same])
      have tail : '%' ∉ cs := fun mem => plain (List.mem_cons_of_mem c mem)
      rw [List.cons_append, scan, if_neg ne, ih tail]

theorem scan_conversion {name : String} (conversion : isConversion name) (rest : List Char) :
    scan none ('%' :: (name.toList ++ rest)) = name.toList :: scan none rest := by
  rw [isConversion] at conversion
  suffices behind : ∀ cs read, (match cs.dropWhile (· ∈ modifiers) with
      | [c] => c != '%'
      | _ => false) = true → scan (some read) (cs ++ rest) = (read ++ cs) :: scan none rest by
    simpa [scan] using behind name.toList [] conversion
  intro cs
  induction cs with
  | nil => simp
  | cons c cs ih =>
      intro read conversion
      by_cases modifier : c ∈ modifiers
      · rw [List.dropWhile_cons_of_pos (by simpa using modifier)] at conversion
        rw [List.cons_append, scan, if_pos modifier, ih _ conversion]
        simp
      · rw [List.dropWhile_cons_of_neg (by simpa using modifier)] at conversion
        cases cs with
        | nil =>
            have ne : c ≠ '%' := by simpa using conversion
            simp [scan, modifier, ne]
        | cons d ds => simp at conversion

/-- The conversion that a part is, if it is one. -/
def conversion? : Piece → Option String
  | .text _ => none
  | .conversion name => some name

/-- A part of a format is what it is taken for: there are no percent signs in a text. -/
def Honest : Piece → Prop
  | .text body => '%' ∉ body.toList
  | .conversion name => isConversion name

theorem formatText_cons (piece : Piece) (pieces : List Piece) :
    formatText (piece :: pieces) = piece.render ++ formatText pieces := by
  simp [formatText]

theorem conversions_formatText {pieces : List Piece} (honest : ∀ piece ∈ pieces, Honest piece) :
    conversions (formatText pieces) = pieces.filterMap conversion? := by
  suffices found : scan none (formatText pieces).toList =
      (pieces.filterMap conversion?).map String.toList by
    simp [conversions, found, Function.comp_def]
  induction pieces with
  | nil => rfl
  | cons piece pieces ih =>
      have rest := ih fun other mem => honest other (List.mem_cons_of_mem _ mem)
      have first := honest piece List.mem_cons_self
      cases piece with
      | text body =>
          simp [formatText_cons, Piece.render, conversion?, scan_text first, rest,
            List.filterMap_cons]
      | conversion name =>
          simp [formatText_cons, Piece.render, conversion?, scan_conversion first, rest]

end KernelHost.Validation
