/-!
# Faults of patterns

The causes for which the text of a pattern is refused, and their wording.
-/

namespace KernelHost

/-- What is wrong with the text of a pattern. -/
inductive PatternFault
  /-- A group is not closed. -/
  | groupUnclosed
  /-- A group is closed that is not open. -/
  | groupUnopened
  /-- A name of a group is not ended. -/
  | groupNameUnended
  /-- A name of a group is empty. -/
  | groupNameEmpty
  /-- A name of a group holds a character that it may not. -/
  | groupNameInvalid
  /-- Two groups have one name. -/
  | groupNameDuplicate
  /-- A condition on the text around. -/
  | lookAround
  /-- Nothing stands in front of a repetition. -/
  | repetitionMissing
  /-- The limits of a repetition are not ended. -/
  | countUnclosed
  /-- A limit of a repetition is not a number. -/
  | countEmpty
  /-- The limits of a repetition are in the wrong order. -/
  | countInverted
  /-- A number is too large. -/
  | decimalInvalid
  /-- A letter that names no flag. -/
  | flagUnknown
  /-- A flag stands twice. -/
  | flagDuplicate
  /-- Flags are negated twice. -/
  | flagNegationRepeated
  /-- No flag stands behind the negation. -/
  | flagNegationDangling
  /-- The flags are not ended. -/
  | flagsUnended
  /-- A set is not closed. -/
  | setUnclosed
  /-- The ends of a range are in the wrong order. -/
  | rangeInverted
  /-- An end of a range is no character. -/
  | rangeEndInvalid
  /-- An escape sequence stands in a set but names no characters. -/
  | setEscapeInvalid
  /-- An escape sequence is not ended. -/
  | escapeUnended
  /-- An escape sequence that means nothing. -/
  | escapeUnknown
  /-- A reference to a group. -/
  | backreference
  /-- A code point without digits. -/
  | hexEmpty
  /-- A digit of a code point that is none. -/
  | hexDigitInvalid
  /-- A code point that is no character. -/
  | hexInvalid
  /-- A property whose name cannot be read. -/
  | propertyInvalid
  /-- Either the limits of a repetition or the name of a word edge is not ended. -/
  | edgeUnended
  /-- A name of a word edge is not closed. -/
  | edgeUnclosed
  /-- A word edge that is not known. -/
  | edgeUnknown
  /-- Parts stand too deep inside of each other. -/
  | tooDeep
  /-- A character stands for itself that is no ASCII character, where only those may. -/
  | scriptRefused
  /-- Single bytes of a text may be matched. -/
  | bytesRefused
  /-- A property that is not known. -/
  | propertyUnknown
  /-- A property that is known, with a value that is not. -/
  | propertyValueUnknown
  /-- Digits, blanks or characters of words are meant of all scripts. -/
  | kindUnavailable
  /-- Case is ignored for characters of all scripts. -/
  | caseUnavailable
  /-- The pattern takes too much memory. -/
  | tooLarge
  /-- The edges of words are meant of all scripts. -/
  | edgeUnavailable
  deriving DecidableEq, Repr

namespace PatternFault

/-- The bytes of memory that a pattern may take. -/
def memoryLimit : Nat := 10485760

/-- The number of parts that may stand inside of each other. -/
def depthLimit : Nat := 250

/-- What is said about a fault. -/
def text : PatternFault → String
  | .groupUnclosed => "unclosed group"
  | .groupUnopened => "unopened group"
  | .groupNameUnended => "unclosed capture group name"
  | .groupNameEmpty => "empty capture group name"
  | .groupNameInvalid => "invalid capture group character"
  | .groupNameDuplicate => "duplicate capture group name"
  | .lookAround => "look-around, including look-ahead and look-behind, is not supported"
  | .repetitionMissing => "repetition operator missing expression"
  | .countUnclosed => "unclosed counted repetition"
  | .countEmpty => "repetition quantifier expects a valid decimal"
  | .countInverted => "invalid repetition count range, the start must be <= the end"
  | .decimalInvalid => "decimal literal invalid"
  | .flagUnknown => "unrecognized flag"
  | .flagDuplicate => "duplicate flag"
  | .flagNegationRepeated => "flag negation operator repeated"
  | .flagNegationDangling => "dangling flag negation operator"
  | .flagsUnended => "expected flag but got end of regex"
  | .setUnclosed => "unclosed character class"
  | .rangeInverted => "invalid character class range, the start must be <= the end"
  | .rangeEndInvalid => "invalid range boundary, must be a literal"
  | .setEscapeInvalid => "invalid escape sequence found in character class"
  | .escapeUnended => "incomplete escape sequence, reached end of pattern prematurely"
  | .escapeUnknown => "unrecognized escape sequence"
  | .backreference => "backreferences are not supported"
  | .hexEmpty => "hexadecimal literal empty"
  | .hexDigitInvalid => "invalid hexadecimal digit"
  | .hexInvalid => "hexadecimal literal is not a Unicode scalar value"
  | .propertyInvalid => "invalid Unicode character class"
  | .edgeUnended =>
    "found either the beginning of a special word boundary or a bounded repetition on a \\b " ++
      "with an opening brace, but no closing brace"
  | .edgeUnclosed =>
    "special word boundary assertion is either unclosed or contains an invalid character"
  | .edgeUnknown =>
    "unrecognized special word boundary assertion, valid choices are: start, end, start-half " ++
      "or end-half"
  | .tooDeep => s!"exceed the maximum number of nested parentheses/brackets ({depthLimit})"
  | .scriptRefused => "Unicode not allowed here"
  | .bytesRefused => "pattern can match invalid UTF-8"
  | .propertyUnknown => "Unicode property not found"
  | .propertyValueUnknown => "Unicode property value not found"
  | .kindUnavailable =>
    "Unicode-aware Perl class not found (make sure the unicode-perl feature is enabled)"
  | .caseUnavailable =>
    "Unicode-aware case insensitivity matching is not available (make sure the unicode-case " ++
      "feature is enabled)"
  | .tooLarge => s!"Compiled regex exceeds size limit of {memoryLimit} bytes."
  | .edgeUnavailable => "error building NFA"

/-- The lines of a report about a fault; what the text of a pattern means has a heading. -/
def lines (fault : PatternFault) : List String :=
  match fault with
  | .tooLarge | .edgeUnavailable => [fault.text]
  | _ => ["regex parse error:", s!"error: {fault.text}"]

end PatternFault
end KernelHost
