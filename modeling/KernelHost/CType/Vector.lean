import KernelHost.Text.Numeral

/-!
# Vector types

The fixed-width vectors of the kernel language: `cl_`, the stem of a scalar type, a number of lanes.
-/

namespace KernelHost

/-- A scalar type that vectors are made of. -/
structure LaneType where
  /-- Its name inside the name of a vector type. -/
  stem : String
  /-- The C type that one lane is printed as. -/
  base : String
  /-- The bytes of one lane. -/
  bytes : Nat
  deriving DecidableEq, Repr

/-- The scalar types that vectors are made of; a half is printed as a float. -/
def laneTypes : List LaneType :=
  [⟨"char", "char", 1⟩, ⟨"uchar", "unsigned char", 1⟩, ⟨"short", "short", 2⟩,
    ⟨"ushort", "unsigned short", 2⟩, ⟨"int", "int", 4⟩, ⟨"uint", "unsigned int", 4⟩,
    ⟨"long", "long", 8⟩, ⟨"ulong", "unsigned long", 8⟩, ⟨"half", "float", 2⟩,
    ⟨"float", "float", 4⟩, ⟨"double", "double", 8⟩]

/-- The numbers of lanes that vectors have. -/
def laneCounts : List Nat := [2, 3, 4, 8, 16]

/-- A vector type. -/
structure VectorType where
  /-- The number of lanes. -/
  lanes : Nat
  /-- The type of each lane. -/
  lane : LaneType
  deriving DecidableEq, Repr

namespace VectorType

/-- The bytes of one vector on the host, where three lanes take the room of four. -/
def bytes (v : VectorType) : Nat :=
  (if v.lanes = 3 then 4 else v.lanes) * v.lane.bytes

/-- The part of a type name behind `cl_`. -/
def afterMark? (type : String) : Option (List Char) :=
  match type.toList with
  | 'c' :: 'l' :: '_' :: rest => some rest
  | _ => none

/-- Looks up a type name, which is parted at its first digit. -/
def ofName? (type : String) : Option VectorType := do
  let rest ← afterMark? type
  let stem := rest.takeWhile (!·.isDigit)
  let lanes ← Text.digits? (rest.drop stem.length)
  if laneCounts.contains lanes then
    let lane ← laneTypes.find? (·.stem == String.ofList stem)
    return { lanes, lane }
  else none

/-- Whether a type name has the form of a vector type, `cl_` in front and a digit at the end. -/
def isVectorLike (type : String) : Bool :=
  match afterMark? type with
  | some rest => rest.getLast?.any Char.isDigit
  | none => false

end VectorType
end KernelHost
