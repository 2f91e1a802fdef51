import KernelHost.CType.Vector
import KernelHost.Text.Blank

/-!
# Scalar types

What the host program has to know about the C types of variables: how `printf` shows a value, and
how many bytes it takes where pointers and `long` have 64 bits.
-/

namespace KernelHost.CType

/-- The conversion of `printf` for a scalar type, if the type is known. -/
def conversion? (type : String) : Option String :=
  match Text.squeeze type with
  | "char" | "signed char" | "unsigned char" | "cl_char" | "cl_uchar" => some "c"
  | "short" | "short int" | "signed short" | "signed short int" | "cl_short" => some "hd"
  | "unsigned short" | "unsigned short int" | "cl_ushort" => some "hu"
  | "int" | "signed" | "signed int" | "cl_int" => some "d"
  | "unsigned" | "unsigned int" | "cl_uint" => some "u"
  | "long" | "long int" | "signed long" | "signed long int" | "cl_long" => some "ld"
  | "unsigned long" | "unsigned long int" | "cl_ulong" => some "lu"
  | "long long" | "long long int" | "signed long long" | "signed long long int" => some "lld"
  | "unsigned long long" | "unsigned long long int" => some "llu"
  | "float" | "cl_float" => some "f"
  | "double" | "cl_double" => some "lf"
  | "long double" => some "Lf"
  | _ => none

/-- The conversion of `printf` for a scalar type; an unknown one is shown in hexadecimal. -/
def conversion (type : String) : String :=
  (conversion? type).getD "x"

/-- The bytes of a scalar type, if the type is known. -/
def scalarBytes? (type : String) : Option Nat :=
  match Text.squeeze type with
  | "char" | "signed char" | "unsigned char" | "bool" | "cl_char" | "cl_uchar" | "cl_bool" =>
    some 1
  | "short" | "short int" | "signed short" | "signed short int" | "unsigned short"
  | "unsigned short int" | "cl_short" | "cl_ushort" | "cl_half" => some 2
  | "int" | "signed" | "signed int" | "unsigned" | "unsigned int" | "float" | "cl_int"
  | "cl_uint" | "cl_float" => some 4
  | "long" | "long int" | "signed long" | "signed long int" | "unsigned long"
  | "unsigned long int" | "long long" | "long long int" | "signed long long"
  | "signed long long int" | "unsigned long long" | "unsigned long long int" | "double"
  | "size_t" | "cl_long" | "cl_ulong" | "cl_double" => some 8
  | "long double" => some 16
  | _ => none

/-- The bytes of a type, if it is a vector type or a known scalar type. -/
def bytes? (type : String) : Option Nat :=
  match VectorType.ofName? type with
  | some vector => some vector.bytes
  | none => scalarBytes? type

end KernelHost.CType
