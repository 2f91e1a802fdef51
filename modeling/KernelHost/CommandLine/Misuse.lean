import KernelHost.Text.Similarity
import KernelHost.Text.Terminal

/-!
# Misuse of the command line

The causes for which arguments are refused, and what is said about them: the error, at most one tip,
and how the program is used.  The usage is told as far as it is known what the user is after: once
something sensible has been given it shows the options that were meant.
-/

namespace KernelHost.CommandLine

/-- An option. -/
inductive Flag
  /-- Steps are logged. -/
  | verbose
  /-- The help text is asked for. -/
  | help
  /-- The version is asked for. -/
  | version
  deriving DecidableEq, Repr

namespace Flag

/-- The options in the order of the help text. -/
def all : List Flag := [.verbose, .help, .version]

/-- The long name of an option. -/
def name : Flag → String
  | .verbose => "verbose"
  | .help => "help"
  | .version => "version"

/-- The letter of an option. -/
def letter : Flag → Char
  | .verbose => 'v'
  | .help => 'h'
  | .version => 'V'

/-- An option as it is given. -/
def text (flag : Flag) : String :=
  "--" ++ flag.name

/-- The option with a long name. -/
def ofName? (name : String) : Option Flag :=
  all.find? (·.name = name)

/-- The option with a letter. -/
def ofLetter? (letter : Char) : Option Flag :=
  all.find? (·.letter = letter)

@[simp]
theorem ofName?_name (flag : Flag) : ofName? flag.name = some flag := by
  cases flag <;> decide

@[simp]
theorem ofLetter?_letter (flag : Flag) : ofLetter? flag.letter = some flag := by
  cases flag <;> decide

/-- The option that may have been meant by a long name. -/
def meant? (name : String) : Option Flag :=
  (Text.closest? name (all.map Flag.name)).bind ofName?

end Flag

/-- The names of the paths in order. -/
def pathNames : List String := ["<MANIFEST>", "<OUTPUT>"]

/-- The arguments read so far. -/
structure Given where
  /-- The paths in order. -/
  paths : List String := []
  /-- Whether steps are logged. -/
  verbose : Bool := false
  deriving DecidableEq, Repr

/-- The options among the arguments. -/
def Given.flags (g : Given) : List Flag :=
  if g.verbose then [.verbose] else []

/-- What is wrong with arguments. -/
inductive Misuse
  /-- A path behind the last one. -/
  | surplusPath (path : String)
  /-- A letter that names no option. -/
  | unknownLetter (letter : Char)
  /-- A long name that names no option, and what was given in front of it. -/
  | unknownName (name : String) (given : Given)
  /-- A value for an option, none of which takes any, and what was given in front of it. -/
  | unexpectedValue (flag : Flag) (value : String) (given : Given)
  /-- The option that asks for a log, given once more. -/
  | repeatedVerbose
  | emptyPath (name : String)
  /-- Paths that are not given, and what is given. -/
  | missingPaths (names : List String) (given : Given)
  deriving DecidableEq, Repr

/-- How the program is used, with words in front of the paths and the paths themselves. -/
def usageOf (words paths : List String) : String :=
  " ".intercalate ("Usage: hostgen" :: words ++ paths)

/-- The usage with any options. -/
def generalUsage : String :=
  usageOf ["[OPTIONS]"] pathNames

/-- The usage with certain options. -/
def flagUsage (flags : List Flag) : String :=
  usageOf (flags.map Flag.text) pathNames

namespace Misuse

/-- Any of the arguments that the program takes, in place of the paths. -/
def anyArgument : String := "<MANIFEST|OUTPUT|--verbose>"

/-- The error about an argument that nothing is known about. -/
def unexpectedText (argument : String) : String :=
  s!"error: unexpected argument '{argument}' found"

/-- The tip how to give an argument as a path. -/
def pathTip (argument : String) : String :=
  s!"  tip: to pass '{argument}' as a value, use '-- {argument}'"

/-- What is said about a name that names no option. -/
def unknownNameText (name : String) (given : Given) : List (List String) :=
  let argument := Text.uncontrolled ("--" ++ name)
  match Flag.meant? name with
  | some flag =>
    [[unexpectedText argument], [s!"  tip: a similar argument exists: '{flag.text}'"],
      [flagUsage (given.flags.erase flag ++ [flag])]]
  | none =>
    [[unexpectedText argument], [pathTip argument],
      [if given = {} then generalUsage else flagUsage given.flags]]

/-- What is said about a value for an option. -/
def unexpectedValueText (flag : Flag) (value : String) (given : Given) : List (List String) :=
  let complete := given.verbose || pathNames.length ≤ given.paths.length
  [[s!"error: unexpected value '{Text.uncontrolled value}' for '{flag.text}' found; " ++
      "no more were expected"],
    [if complete then usageOf (([flag].erase .verbose).map Flag.text) [anyArgument]
      else flagUsage [flag]]]

/-- What is said about a misuse, in paragraphs. -/
def paragraphs : Misuse → List (List String)
  | .surplusPath path => [[unexpectedText (Text.uncontrolled path)], [generalUsage]]
  | .unknownLetter letter =>
    let argument := Text.uncontrolled (.ofList ['-', letter])
    [[unexpectedText argument], [pathTip argument], [generalUsage]]
  | .unknownName name given => unknownNameText name given
  | .unexpectedValue flag value given => unexpectedValueText flag value given
  | .repeatedVerbose =>
    [["error: the argument '--verbose' cannot be used multiple times"], [generalUsage]]
  | .emptyPath name => [[s!"error: a value is required for '{name}' but none was supplied"]]
  | .missingPaths names given =>
    ["error: the following required arguments were not provided:" ::
      names.map (fun name => s!"  {name}"), [flagUsage given.flags]]

/-- The lines about a misuse, with an empty line behind each paragraph. -/
def lines (misuse : Misuse) : List String :=
  misuse.paragraphs.flatMap (· ++ [""]) ++ ["For more information, try '--help'."]

end Misuse
end KernelHost.CommandLine
