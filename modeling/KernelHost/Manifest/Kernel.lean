import KernelHost.Manifest.Variable

/-!
# Reading kernels

A kernel is an element with variables and one range inside.  The faults of its parts are collected
in the order of the text.
-/

namespace KernelHost

open Xml (Element)

namespace WorkRange

/-- The number of entries of a list of sizes; the text between two commas may be blank. -/
def entries (sizes : String) : Nat :=
  ((sizes.toList.splitOn ',').filter fun cs => !Text.allBlank cs).length

/-- Reads a list with one size for each dimension. -/
def readSizes (dimensions : Nat) (e : Element) : Checked String := do
  let sizes ← .ofOption (.emptySizes e.name) e.span e.text?
  if entries sizes = dimensions then return sizes
  else .fail (.sizeCount e.name (entries sizes) dimensions) e.span

/-- Reads the lists of global and of local sizes; of several lists of a kind the last one holds. -/
def readLists (dimensions : Nat) (globalSizes localSizes : Option String) :
    List Element → Checked (Option String × Option String)
  | [] => .ok (globalSizes, localSizes)
  | e :: es => do
    match e.name with
    | "global" => readLists dimensions (some (← readSizes dimensions e)) localSizes es
    | "local" => readLists dimensions globalSizes (some (← readSizes dimensions e)) es
    | _ => readLists dimensions globalSizes localSizes es

/-- Reads a range of one, two or three dimensions. -/
def read (e : Element) : Checked WorkRange := do
  let dimensions := (← e.number? "dim" (Text.natural? 32)).getD 1
  if dimensions < 1 || 3 < dimensions then .fail (.dimensions dimensions) e.span
  let (globalSizes, localSizes) ← readLists dimensions none none e.elements
  let globalSizes ← .ofOption .noGlobalSizes e.span globalSizes
  return { dimensions, globalSizes, localSizes, span := e.span }

end WorkRange

namespace Kernel

/-- What is inside a kernel. -/
structure Parts where
  /-- Its range, once it is met. -/
  range : Option WorkRange := none
  vars : List Variable := []
  /-- What there is to say about its parts. -/
  remarks : List (At Remark) := []

/-- Whether an element declares a range. -/
def isRange (e : Element) : Bool :=
  e.name == "ndrange"

/-- Reads the parts of the named kernel; `ranged` tells that its range has been met. -/
def readParts (name : String) (ranged : Bool) : List Element → Checked Parts
  | [] => .ok {}
  | e :: es =>
    if isRange e then
      if ranged then
        (Checked.both (.fail (.secondRange name) e.span) (readParts name ranged es)).map
          fun ((), parts) => parts
      else
        (Checked.both (WorkRange.read e) (readParts name true es)).map
          fun (range, parts) => { parts with range := some range }
    else
      match Role.ofTag? e.name with
      | some role =>
        (Checked.both (Variable.read role e) (readParts name ranged es)).map
          fun (v, parts) =>
            { parts with
              vars := v :: parts.vars
              remarks := v.remarks e ++ parts.remarks }
      | none =>
        (readParts name ranged es).map fun parts =>
          { parts with
            remarks := ⟨.unknownKernelElement e.name name, e.span⟩ :: parts.remarks }

/-- Reads the name of a kernel. -/
def readName (e : Element) : Checked String := do
  let name ← e.required "name"
  if Text.isIdentifier name then return name else .fail (.kernelName name) e.span

/-- Demands that a range was met; without any range that is one more problem. -/
def demandRange {α : Type} (name : String) (e : Element) (parts : Checked (α × Parts)) :
    Checked (α × Parts × WorkRange) :=
  let absent : At Problem := ⟨.noRange name, e.span⟩
  match parts with
  | .ok (a, parts) =>
    match parts.range with
    | some range => .ok (a, parts, range)
    | none => .error ⟨absent, []⟩
  | .error ps => .error (if e.elements.any isRange then ps else ps.append ⟨absent, []⟩)

/-- Reads a kernel and what there is to say about it. -/
def read (e : Element) : Checked (Kernel × List (At Remark)) := do
  let written := (e.attribute? "name").getD ""
  let ((name, order), parts, range) ← demandRange written e <|
    Checked.both (Checked.both (readName e) (e.number? "order" (Text.integer? 64)))
      (readParts written false e.elements)
  return ({ name, order, range, vars := parts.vars, span := e.span }, parts.remarks)

end Kernel
end KernelHost
