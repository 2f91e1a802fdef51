import KernelHost.Diagnostic.Basic
import KernelHost.Xml.Fault

/-!
# Problems and remarks

A problem is a reason why no host program is generated; a remark says that something in the manifest
was passed over.  Both know what they are about, and their wording is fixed here alone.
-/

namespace KernelHost

/-- Why a name cannot be given to a variable or a generator. -/
inductive NameClash
  /-- It is a word of C. -/
  | keyword
  /-- It begins as the names of the runtime do. -/
  | runtimeName
  /-- The host program declares it. -/
  | reserved
  /-- The host program derives it for something else, which is described. -/
  | derived (holder : String)
  /-- It is the name of a variable. -/
  | variable
  deriving DecidableEq, Repr

/-- The wording of a clash. -/
def NameClash.text (name : String) : NameClash → String
  | .keyword => s!"'{name}' is a C keyword or type name"
  | .runtimeName => s!"'{name}' uses the OpenCL 'cl_'/'CL_' prefix"
  | .reserved => s!"'{name}' is reserved by the host program"
  | .derived holder => s!"'{name}' clashes with {holder}"
  | .variable => s!"'{name}' is also a variable"

/-- A reason why no host program is generated. -/
inductive Problem
  /-- A file that cannot be read. -/
  | unreadable (path reason : String)
  /-- A file that cannot be written. -/
  | unwritable (path reason : String)
  /-- The text is no document. -/
  | malformed (fault : String)
  /-- The root names no program. -/
  | noProgram
  /-- An attribute that is no toggle. -/
  | notToggle (value attributeName : String)
  /-- A factor that is no positive integer. -/
  | invalidCopies (value : String)
  /-- A version of the runtime interface that is not known. -/
  | unknownApi (value : String)
  /-- An attribute that has to be there. -/
  | missingAttribute (tag attributeName : String)
  /-- An attribute that is no number of its range. -/
  | invalidNumber (tag attributeName value : String)
  /-- A kernel whose name is no identifier. -/
  | kernelName (name : String)
  | secondRange (kernel : String)
  /-- A kernel without a range. -/
  | noRange (kernel : String)
  /-- A range with a wrong number of dimensions. -/
  | dimensions (given : Nat)
  /-- A list of sizes without any text. -/
  | emptySizes (tag : String)
  /-- A list of sizes of the wrong length. -/
  | sizeCount (tag : String) (entries wanted : Nat)
  /-- A range without global sizes. -/
  | noGlobalSizes
  /-- A variable without elements. -/
  | noElements (tag : String)
  /-- A variable whose name is no identifier. -/
  | variableName (name : String)
  /-- A tolerance that is negative or no finite number. -/
  | invalidTolerance (value : String)
  /-- A generator whose name is no identifier. -/
  | generatorName (name : String)
  /-- Two kernels with one identifier. -/
  | duplicateKernel (name earlier : String)
  /-- Two variables for one argument. -/
  | argumentTwice (index : Nat) (kernel earlier : String)
  /-- Two derivations of one name. -/
  | ambiguousName (name first second : String)
  /-- A variable whose name is taken. -/
  | variableClash (name : String) (clash : NameClash)
  /-- Two variables with one name. -/
  | duplicateVariable (name kernel : String)
  /-- A generator whose name is taken. -/
  | generatorClash (name : String) (clash : NameClash)
  /-- A type that looks like a vector type and is none. -/
  | unknownVector (type : String)
  /-- An element count beyond 64 bits. -/
  | countOverflow (name : String)
  /-- A kernel without an order among ordered ones. -/
  | missingOrder (kernel ordered : String)
  deriving DecidableEq, Repr

namespace Problem

/-- What is the matter. -/
def message : Problem → String
  | .unreadable path reason => s!"cannot read '{path}': {reason}"
  | .unwritable path reason => s!"cannot write '{path}': {reason}"
  | .malformed fault => s!"malformed manifest: {fault}"
  | .noProgram => "manifest root declares no kernel program"
  | .notToggle value attributeName => s!"invalid value '{value}' for '{attributeName}'"
  | .invalidCopies value => s!"invalid repeat factor '{value}' (expected an integer >= 1)"
  | .unknownApi value => s!"unknown runtime API version '{value}'"
  | .missingAttribute tag attributeName =>
    s!"<{tag}> is missing the '{attributeName}' attribute"
  | .invalidNumber tag attributeName value =>
    s!"invalid '{attributeName}' value '{value}' on <{tag}>"
  | .kernelName name => s!"kernel name '{name}' is not a valid C identifier"
  | .secondRange kernel => s!"kernel '{kernel}' declares more than one <ndrange>"
  | .noRange kernel => s!"kernel '{kernel}' has no <ndrange>"
  | .dimensions given => s!"work dimensionality must be 1, 2 or 3 (got {given})"
  | .emptySizes tag => s!"<{tag}> sizes are empty"
  | .sizeCount tag entries wanted =>
    s!"<{tag}> lists {entries} size(s) but the range has {wanted} dimension(s)"
  | .noGlobalSizes => "<ndrange> has no <global> sizes"
  | .noElements tag => s!"<{tag}> must have nmemb >= 1"
  | .variableName name => s!"variable name '{name}' is not a valid C identifier"
  | .invalidTolerance value => s!"epsilon must be a non-negative number (got '{value}')"
  | .generatorName name => s!"generator '{name}' is not a valid C function name"
  | .duplicateKernel name _ => s!"duplicate kernel '{name}'"
  | .argumentTwice index kernel _ => s!"argument {index} of kernel '{kernel}' is bound twice"
  | .ambiguousName name _ _ => s!"generated name '{name}' is ambiguous"
  | .variableClash name clash => s!"variable name {clash.text name}"
  | .duplicateVariable name _ => s!"duplicate variable '{name}'"
  | .generatorClash name clash => s!"generator name {clash.text name}"
  | .unknownVector type => s!"unknown OpenCL vector type '{type}'"
  | .countOverflow name => s!"element count of '{name}' overflows after repeat"
  | .missingOrder kernel _ => s!"kernel '{kernel}' has no 'order' but other kernels do"

/-- What else there is to know. -/
def note? : Problem → Option String
  | .duplicateKernel _ earlier => s!"clashes with kernel '{earlier}'"
  | .argumentTwice _ _ earlier => s!"already bound to '{earlier}'"
  | .ambiguousName _ first second => s!"it is {first} and {second}"
  | .duplicateVariable _ kernel => s!"first declared in kernel '{kernel}'"
  | .missingOrder _ ordered => s!"kernel '{ordered}' declares an order"
  | _ => none

/-- What to do about it. -/
def help? : Problem → Option String
  | .noProgram => "set program=\"<binary>\" or source=\"<file.cl>\" on the root element"
  | .notToggle _ _ => "expected 'yes', 'true', 'no' or 'false'"
  | .unknownApi _ => "available versions: 1.2, 2.0"
  | .noRange _ => "add <ndrange dim=\"1\"><global>N</global></ndrange>"
  | .ambiguousName _ _ _ => "rename the kernel or the variable"
  | .variableClash _ _ => "rename the variable"
  | .generatorClash _ _ => "rename the generator function"
  | .unknownVector _ =>
    "vector types are cl_<char|uchar|short|ushort|int|uint|long|ulong|half|float|double>" ++
      "<2|3|4|8|16>"
  | .missingOrder _ _ => "give every kernel an order, or none of them"
  | _ => none

end Problem

/-- What a variable declares and does not get. -/
inductive Idle
  | novalidation
  /-- The tolerance; the flag says whether that is because validation is off. -/
  | tolerance (disabled : Bool)
  | generator
  | initializer
  deriving DecidableEq, Repr

/-- The name of a part of a variable's declaration. -/
def Idle.title : Idle → String
  | .novalidation => "novalidation"
  | .tolerance _ => "epsilon"
  | .generator => "generator"
  | .initializer => "initializer text"

/-- Something that was passed over. -/
inductive Remark
  /-- A device that is chosen once more. -/
  | repeatedDevice
  /-- A child of the root that means nothing. -/
  | unknownElement (tag : String)
  /-- A child of a kernel that means nothing. -/
  | unknownKernelElement (tag kernel : String)
  /-- A part of a variable's declaration without effect. -/
  | noEffect (part : Idle) (tag variableName : String)
  /-- A variable with two sources of contents. -/
  | twoInitializers (variableName : String)
  deriving DecidableEq, Repr

namespace Remark

/-- What was passed over. -/
def message : Remark → String
  | .repeatedDevice => "repeated <devinfo>; the last one wins"
  | .unknownElement tag => s!"unknown element <{tag}>"
  | .unknownKernelElement tag kernel => s!"unknown element <{tag}> in kernel '{kernel}'"
  | .noEffect part tag variableName =>
    s!"'{part.title}' has no effect on <{tag}> '{variableName}'"
  | .twoInitializers variableName =>
    s!"'{variableName}' has both initializer text and a generator"

/-- What else there is to know. -/
def note? : Remark → Option String
  | .unknownElement _ => "only <kernel> and <devinfo> are read"
  | .noEffect (.tolerance true) _ _ => "validation is disabled"
  | .twoInitializers _ => "the initializer text is used"
  | _ => none

end Remark

/-- Something about a place in the manifest. -/
structure At (α : Type) where
  /-- What it is. -/
  what : α
  /-- The place. -/
  span : Span
  deriving DecidableEq, Repr

/-- The diagnostic of a problem. -/
def At.error (p : At Problem) : Diagnostic where
  severity := .error
  message := p.what.message
  span := p.span
  notes := p.what.note?.toList
  help := p.what.help?

/-- The diagnostic of a remark. -/
def At.warning (r : At Remark) : Diagnostic where
  severity := .warning
  message := r.what.message
  span := r.span
  notes := r.what.note?.toList

end KernelHost
