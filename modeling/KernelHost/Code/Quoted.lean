/-!
# String literals

A text as a C string literal: a backslash, a quotation mark and a line feed are escaped, and all
else stands as it is.
-/

namespace KernelHost.Code

/-- A character inside a literal. -/
def escapeChar : Char → List Char
  | '"' => ['\\', '"']
  | '\\' => ['\\', '\\']
  | '\n' => ['\\', 'n']
  | c => [c]

/-- A text inside a literal. -/
def escape (cs : List Char) : List Char :=
  cs.flatMap escapeChar

/-- A text as a literal. -/
def quoted (text : String) : String :=
  .ofList ('"' :: escape text.toList ++ ['"'])

@[simp]
theorem escape_nil : escape [] = [] := rfl

@[simp]
theorem escape_cons (c : Char) (cs : List Char) : escape (c :: cs) = escapeChar c ++ escape cs :=
  rfl

end KernelHost.Code
