import KernelHost.CommandLine.Misuse

/-!
# Requests

What the arguments of the program ask for.  Arguments are read from the left; the first that asks
for help or the version, or that is wrong, decides.  An empty path is refused when something follows
that is sensible, or when all arguments are read.
-/

namespace KernelHost.CommandLine

/-- What the arguments ask for. -/
inductive Request
  /-- A host program. -/
  | generate (manifest output : String) (verbose : Bool)
  /-- The help text. -/
  | help
  | version
  /-- Nothing that can be done. -/
  | misuse (misuse : Misuse)
  deriving DecidableEq, Repr

namespace Given

/-- The refusal of the path that was given last, if it is empty. -/
def settle (g : Given) : Except Request Unit :=
  match g.paths.getLast?, pathNames[g.paths.length - 1]? with
  | some "", some name => .error (.misuse (.emptyPath name))
  | _, _ => .ok ()

/-- Enters a path. -/
def addPath (g : Given) (path : String) : Except Request Given := do
  if g.paths.length = pathNames.length then .error (.misuse (.surplusPath path))
  g.settle
  return { g with paths := g.paths ++ [path] }

/-- Enters an option. -/
def addFlag (g : Given) (flag : Flag) : Except Request Given := do
  g.settle
  match flag with
  | .verbose =>
    if g.verbose then .error (.misuse .repeatedVerbose)
    return { g with verbose := true }
  | .help => .error .help
  | .version => .error .version

/-- Enters options of one letter each. -/
def addLetters (g : Given) : List Char → Except Request Given
  | [] => .ok g
  | letter :: letters =>
    match Flag.ofLetter? letter with
    | some flag => do (← g.addFlag flag).addLetters letters
    | none => .error (.misuse (.unknownLetter letter))

/-- Enters an option with a long name, with the value behind its equals sign if there is one. -/
def addLong (g : Given) (name : String) (value : Option String) : Except Request Given :=
  match Flag.ofName? name, value with
  | some flag, none => g.addFlag flag
  | some flag, some value => .error (.misuse (.unexpectedValue flag value g))
  | none, _ => .error (.misuse (.unknownName name g))

/-- Enters an argument in front of the mark behind which all are paths. -/
def add (g : Given) (argument : String) : Except Request Given :=
  match argument.toList with
  | '-' :: '-' :: long =>
    let name := long.takeWhile (· ≠ '=')
    let value := (long.drop name.length).tail?.map String.ofList
    g.addLong (.ofList name) value
  | '-' :: letter :: letters => g.addLetters (letter :: letters)
  | _ => g.addPath argument

/-- Enters all arguments. -/
def addAll (g : Given) : List String → Except Request Given
  | [] => .ok g
  | "--" :: paths => paths.foldlM addPath g
  | argument :: arguments => do (← g.add argument).addAll arguments

/-- What the arguments ask for, once all are entered. -/
def request (g : Given) : Except Request Request := do
  g.settle
  match g.paths with
  | [manifest, output] => return .generate manifest output g.verbose
  | paths => .error (.misuse (.missingPaths (pathNames.drop paths.length) g))

end Given

/-- What arguments ask for. -/
def Request.ofArguments (arguments : List String) : Request :=
  match ({} : Given).addAll arguments >>= Given.request with
  | .ok request | .error request => request

end KernelHost.CommandLine
