/-!
# C identifiers

The names that a manifest may give to kernels, variables and functions, and the words among them
that C or the kernel language takes for itself.
-/

namespace KernelHost.Text

/-- Whether a character may begin an identifier. -/
def isIdentifierStart (c : Char) : Bool :=
  c.isAlpha || c == '_'

/-- Whether a character may stand inside an identifier. -/
def isIdentifierPart (c : Char) : Bool :=
  c.isAlphanum || c == '_'

/-- Whether a text is a C identifier over ASCII. -/
def isIdentifier (s : String) : Bool :=
  match s.toList with
  | [] => false
  | c :: cs => isIdentifierStart c && cs.all isIdentifierPart

/-- The words of C and the type names of the kernel language that name no variable. -/
def keywords : List String :=
  ["auto", "break", "case", "char", "const", "continue", "default", "do", "double", "else",
    "enum", "extern", "float", "for", "goto", "if", "inline", "int", "long", "register",
    "restrict", "return", "short", "signed", "sizeof", "static", "struct", "switch", "typedef",
    "union", "unsigned", "void", "volatile", "while", "_Bool", "_Complex", "_Imaginary", "bool",
    "true", "false", "size_t", "half", "uchar", "ushort", "uint", "ulong"]

/-- Whether a text is one of the `keywords`. -/
def isKeyword (s : String) : Bool :=
  keywords.contains s

/-- The text with its first character in upper case, if that is an ASCII letter. -/
def capitalized (s : String) : String :=
  match s.toList with
  | [] => ""
  | c :: cs => .ofList (c.toUpper :: cs)

end KernelHost.Text
