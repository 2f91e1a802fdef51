import KernelHost.Double.Rounding
import KernelHost.Manifest.Basic
import KernelHost.Manifest.Field
import KernelHost.Settings.Toggle

/-!
# Reading variables

A variable is one element.  The first thing wrong with it is reported; what it declares without
effect is remarked on.
-/

namespace KernelHost.Variable

open Xml (Element)

/-- The name of a variable; scratch memory is named after its argument if it has none. -/
def readName (role : Role) (argument : Nat) (e : Element) : Checked String :=
  match role, e.attribute? "name" with
  | _, some name =>
    if Text.isIdentifier name then .ok name else .fail (.variableName name) e.span
  | .scratch, none => .ok s!"local{argument}"
  | _, none => .fail (.missingAttribute e.name "name") e.span

/-- Whether a variable is left unvalidated. -/
def readUnvalidated (e : Element) : Checked Bool :=
  match e.attribute? "novalidation" with
  | none => .ok false
  | some value => .ofOption (.notToggle value "novalidation") e.span (toggle? value)

/-- The tolerance of a variable: a finite number, not below zero. -/
def readTolerance (e : Element) : Checked (Option Tolerance) :=
  match e.attribute? "epsilon" with
  | none => .ok none
  | some text => do
    let value := Double.ofNumeral (← e.number "epsilon" Text.realNumeral? text)
    if !value.isFinite || value.below ⟨0⟩ then .fail (.invalidTolerance text) e.span
    else return some { text := Text.trim text, value }

/-- The generator of a variable. -/
def readGenerator (e : Element) : Checked (Option String) :=
  match e.attribute? "generator" with
  | none => .ok none
  | some name =>
    if Text.isIdentifier name then .ok (some name) else .fail (.generatorName name) e.span

/-- Reads the declaration of a variable with the given role. -/
def read (role : Role) (e : Element) : Checked Variable := do
  let type ← e.required "type"
  let members ← e.number "nmemb" (Text.natural? 64) (← e.required "nmemb")
  let argument ← e.number "arg" (Text.natural? 32) (← e.required "arg")
  if members = 0 then .fail (.noElements role.tag) e.span
  let name ← readName role argument e
  let unvalidated ← readUnvalidated e
  let tolerance ← readTolerance e
  let generator ← readGenerator e
  return {
    name, members, role, argument, generator, unvalidated, tolerance
    type := Text.trim type
    literal := e.text?
    span := e.span }

/-- The parts of a declaration that have no effect. -/
def idleParts (v : Variable) (e : Element) : List Idle :=
  let ofOutputs : List Idle :=
    if v.role != .output then
      (if (e.attribute? "novalidation").isSome then [.novalidation] else []) ++
        if v.tolerance.isSome then [.tolerance false] else []
    else if v.unvalidated && v.tolerance.isSome then [.tolerance true]
    else []
  let ofHost : List Idle :=
    if v.role == .scratch then
      (if v.generator.isSome then [.generator] else []) ++
        if v.literal.isSome then [.initializer] else []
    else []
  ofOutputs ++ ofHost

/-- What there is to say about the declaration of a variable. -/
def remarks (v : Variable) (e : Element) : List (At Remark) :=
  let idle := (v.idleParts e).map fun part => Remark.noEffect part v.role.tag v.name
  let doubled :=
    if v.literal.isSome && v.generator.isSome then [Remark.twoInitializers v.name] else []
  (idle ++ doubled).map (⟨·, v.span⟩)

end KernelHost.Variable
