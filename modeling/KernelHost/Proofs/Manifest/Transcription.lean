import KernelHost.Proofs.Manifest.Reading
import KernelHost.Proofs.Plan.Shape

/-!
# Transcription

The readers go on after a fault with values that stand in for what could not be read.  None of these
gets into a manifest that is accepted: it is a transcription of its document, with one kernel for
each element of a kernel, one variable for each element of a variable, and in each field the value
of its attribute, or the default where there is no attribute.  The relations `DeclaredBy` say so of
the document and the manifest alone.
-/

namespace KernelHost

open Xml (Element)

/-- A double is a number, and not a negative one. -/
def Double.NonNegative (x : Double) : Prop :=
  ∃ negative steps, x.datum = .finite negative steps ∧ 0 ≤ Datum.signedSteps negative steps

theorem Double.nonNegative_of_isFinite {x : Double} (finite : x.isFinite)
    (notBelow : x.below ⟨0⟩ = false) : x.NonNegative := by
  rw [isFinite] at finite
  split at finite
  · rename_i negative steps datum
    have zero : (⟨0⟩ : Double).datum = .finite false 0 := by decide
    rw [below, datum, zero] at notBelow
    refine ⟨negative, steps, datum, ?_⟩
    simpa [Datum.below, Datum.signedSteps] using notBelow
  · cases finite

/-- What an attribute means: the value that its text is read as, or a default if it is absent. -/
inductive Given {α : Type} (read? : String → Option α) (default : α) : Option String → α → Prop
  | absent : Given read? default none default
  | written {text : String} {a : α} (reads : read? text = some a) :
      Given read? default (some text) a

namespace Given

variable {α : Type} {read? : String → Option α} {default a : α}

/-- A reader that has a default for an absent attribute, and a problem for one that it does not
understand, gives what the attribute means. -/
theorem of_read {written : Option String} {what : String → Problem} {span : Span}
    (read : (match written with
      | none => Except.ok default
      | some text => Checked.ofOption (what text) span (read? text)) = .ok a) :
    Given read? default written a := by
  cases written with
  | none =>
      cases read
      exact .absent
  | some text => exact .written (Checked.ofOption_eq_ok.mp read)

/-- A number that may be absent: there is none exactly if its attribute is absent. -/
theorem of_number? {e : Element} {name : String} {o : Option α}
    (read : e.number? name read? = .ok o) :
    Given (fun text => (read? (Text.trim text)).map some) none (e.attribute? name) o := by
  rw [Element.number?] at read
  cases entry : e.attribute? name with
  | none =>
      rw [entry] at read
      cases read
      exact .absent
  | some text =>
      rw [entry] at read
      simp only [Checked.map_eq_ok, Element.number, Checked.ofOption_eq_ok] at read
      obtain ⟨a, reads, rfl⟩ := read
      exact .written (by simp [reads])

theorem getD {written : Option String} {o : Option α}
    (given : Given (fun text => (read? text).map some) none written o) :
    Given read? default written (o.getD default) := by
  cases given with
  | absent => exact .absent
  | written reads =>
      obtain ⟨a, understood, rfl⟩ := Option.map_eq_some_iff.mp reads
      exact .written understood

end Given

/-! ## What each part says -/

/-- The settings are what the attributes of an element say. -/
structure Settings.DeclaredBy (s : Settings) (e : Element) : Prop where
  /-- A binary goes before a text, and one of them is there. -/
  program : (∃ path, e.attribute? "program" = some path ∧ s.program = .binary path) ∨
    e.attribute? "program" = none ∧
      ∃ path, e.attribute? "source" = some path ∧ s.program = .text path
  profiling : Given toggle? false (e.attribute? "profile") s.profiling
  hooks : ∀ hook, Given toggle? false (e.attribute? hook.attributeName) (s.hooks.enabled hook)
  copies : Given (fun text => Text.natural? 64 (Text.trim text)) 1
    (e.attribute? "repeat") s.copies
  one_le_copies : 1 ≤ s.copies
  api : Given Api.ofText? .v12 (e.attribute? "api") s.api
  hookHeader : Given some "prepostambles.h" (e.attribute? "hookheader") s.hookHeader

/-- The choice of a device is what an element says. -/
structure DeviceChoice.DeclaredBy (d : DeviceChoice) (e : Element) : Prop where
  platform : Given (fun text => Text.natural? 32 (Text.trim text)) 0
    (e.attribute? "platform") d.platform
  device : Given (fun text => Text.natural? 32 (Text.trim text)) 0
    (e.attribute? "device") d.device

/-- The number of dimensions of a range is what an element says. -/
structure WorkRange.DeclaredBy (r : WorkRange) (e : Element) : Prop where
  dimensions : Given (fun text => Text.natural? 32 (Text.trim text)) 1
    (e.attribute? "dim") r.dimensions
  one_le_dimensions : 1 ≤ r.dimensions
  dimensions_le_three : r.dimensions ≤ 3

/-- A tolerance as it is written, with the double that its text denotes. -/
def Tolerance.ofText? (text : String) : Option (Option Tolerance) :=
  (Text.realNumeral? (Text.trim text)).map fun numeral =>
    some { text := Text.trim text, value := .ofNumeral numeral }

/-- The fields of a variable are what an element says. -/
structure Variable.DeclaredBy (v : Variable) (e : Element) : Prop where
  role : Role.ofTag? e.name = some v.role
  type : (e.attribute? "type").map Text.trim = some v.type
  members : (e.attribute? "nmemb").bind (fun text => Text.natural? 64 (Text.trim text)) =
    some v.members
  one_le_members : 1 ≤ v.members
  argument : (e.attribute? "arg").bind (fun text => Text.natural? 32 (Text.trim text)) =
    some v.argument
  name : Given some s!"local{v.argument}" (e.attribute? "name") v.name
  /-- Only scratch memory may do without a name. -/
  named : v.role ≠ .scratch → (e.attribute? "name").isSome
  isIdentifier_name : Text.isIdentifier v.name
  unvalidated : Given toggle? false (e.attribute? "novalidation") v.unvalidated
  tolerance : Given Tolerance.ofText? none (e.attribute? "epsilon") v.tolerance
  nonNegative_tolerance : ∀ t ∈ v.tolerance, t.value.NonNegative
  generator : v.generator = e.attribute? "generator"
  isIdentifier_generator : ∀ name ∈ v.generator, Text.isIdentifier name
  span : v.span = e.span

/-- A kernel is what an element and those inside it say. -/
structure Kernel.DeclaredBy (k : Kernel) (e : Element) : Prop where
  name : e.attribute? "name" = some k.name
  isIdentifier_name : Text.isIdentifier k.name
  order : Given (fun text => (Text.integer? 64 (Text.trim text)).map some) none
    (e.attribute? "order") k.order
  /-- There is exactly one range inside. -/
  range : ∃ child, e.elements.filter (·.name == "ndrange") = [child] ∧ k.range.DeclaredBy child
  vars : List.Forall₂ (fun child v => v.DeclaredBy child)
    (e.elements.filter fun child => (Role.ofTag? child.name).isSome) k.vars
  span : k.span = e.span

/-- A manifest is what a root element and those inside it say. -/
structure Manifest.DeclaredBy (m : Manifest) (root : Element) : Prop where
  settings : m.settings.DeclaredBy root
  /-- Of several choices of a device the last one holds. -/
  device : (root.elements.filter (·.name == "devinfo")).getLast?.elim (m.settings.device = {})
    m.settings.device.DeclaredBy
  kernels : List.Forall₂ (fun child k => k.DeclaredBy child)
    (root.elements.filter (·.name == "kernel")) m.kernels

/-! ## Settings -/

namespace Settings

variable {attribute? : String → Option String} {span : Span}

theorem given_of_readToggle {name : String} {on : Bool}
    (read : readToggle attribute? span name = .ok on) :
    Given toggle? false (attribute? name) on := by
  rw [readToggle] at read
  exact .of_read read

theorem given_of_readHooks {hooks : Hooks} (read : readHooks attribute? span = .ok hooks)
    (hook : Hook) : Given toggle? false (attribute? hook.attributeName) (hooks.enabled hook) := by
  simp only [readHooks, Checked.map_eq_ok, Checked.both_eq_ok] at read
  obtain ⟨values, ⟨preamble, postamble, loopPreamble, loopPostamble, cleanup⟩, rfl⟩ := read
  cases hook with
  | preamble => exact given_of_readToggle preamble
  | postamble => exact given_of_readToggle postamble
  | loopPreamble => exact given_of_readToggle loopPreamble
  | loopPostamble => exact given_of_readToggle loopPostamble
  | cleanup => exact given_of_readToggle cleanup

theorem given_of_readCopies {copies : Nat} (read : readCopies attribute? span = .ok copies) :
    Given (fun text => Text.natural? 64 (Text.trim text)) 1 (attribute? "repeat") copies := by
  rw [readCopies] at read
  cases entry : attribute? "repeat" with
  | none =>
      rw [entry] at read
      cases read
      exact .absent
  | some text =>
      rw [entry] at read
      simp only [Checked.ofOption_eq_ok, Option.filter_eq_some_iff] at read
      exact .written read.1

theorem given_of_readApi {api : Api} (read : readApi attribute? span = .ok api) :
    Given Api.ofText? .v12 (attribute? "api") api := by
  rw [readApi] at read
  exact .of_read read

theorem source_of_readProgram {program : ProgramSource}
    (read : readProgram attribute? span = .ok program) :
    (∃ path, attribute? "program" = some path ∧ program = .binary path) ∨
      attribute? "program" = none ∧
        ∃ path, attribute? "source" = some path ∧ program = .text path := by
  rw [readProgram] at read
  cases binary : attribute? "program" with
  | some path =>
      rw [binary] at read
      cases read
      exact .inl ⟨path, rfl, rfl⟩
  | none =>
      cases text : attribute? "source" with
      | some path =>
          rw [binary, text] at read
          cases read
          exact .inr ⟨rfl, path, rfl, rfl⟩
      | none => simp [binary, text] at read

theorem declaredBy_of_ofAttributes {e : Element} {s : Settings}
    (read : ofAttributes e.attribute? span = .ok s) : s.DeclaredBy e := by
  have copies := one_le_copies read
  simp only [ofAttributes, Checked.bind_eq_ok, Checked.both_eq_ok, Checked.pure_eq_ok] at read
  obtain ⟨values, ⟨program, profiling, hooks, factor, api⟩, rfl⟩ := read
  refine
    { program := source_of_readProgram program
      profiling := given_of_readToggle profiling
      hooks := given_of_readHooks hooks
      copies := given_of_readCopies factor
      one_le_copies := copies
      api := given_of_readApi api
      hookHeader := ?_ }
  cases e.attribute? "hookheader" with
  | none => exact .absent
  | some header => exact .written rfl

end Settings

/-! ## Variables -/

namespace Variable

/-- The name that scratch memory gets after its argument is an identifier. -/
theorem isIdentifier_local (argument : Nat) : Text.isIdentifier s!"local{argument}" := by
  have text : s!"local{argument}" = "local" ++ argument.repr := by
    simp [ToString.toString]
  have digits : ∀ c ∈ Nat.toDigits 10 argument, Text.isIdentifierPart c := by
    intro c mem
    have digit := Nat.isDigit_of_mem_toDigits (by decide) (by decide) mem
    simp [Text.isIdentifierPart, Char.isAlphanum, digit]
  have chars : s!"local{argument}".toList =
      'l' :: 'o' :: 'c' :: 'a' :: 'l' :: Nat.toDigits 10 argument := by
    rw [text]
    simp [String.toList_append]
  rw [Text.isIdentifier, chars]
  simpa [Text.isIdentifierStart, Text.isIdentifierPart] using digits

theorem given_of_readName {role : Role} {argument : Nat} {e : Element} {name : String}
    (read : readName role argument e = .ok name) :
    Given some s!"local{argument}" (e.attribute? "name") name ∧
      (role ≠ .scratch → (e.attribute? "name").isSome) ∧ Text.isIdentifier name := by
  cases entry : e.attribute? "name" with
  | some text =>
      by_cases identifier : Text.isIdentifier text
      · have same : text = name := by cases role <;> simpa [readName, entry, identifier] using read
        subst same
        exact ⟨.written rfl, fun _ => rfl, identifier⟩
      · cases role <;> simp [readName, entry, identifier] at read
  | none =>
      cases role with
      | input => simp [readName, entry] at read
      | output => simp [readName, entry] at read
      | scratch =>
          have same : s!"local{argument}" = name := by simpa [readName, entry] using read
          subst same
          exact ⟨.absent, fun host => absurd rfl host, isIdentifier_local argument⟩

theorem given_of_readUnvalidated {e : Element} {off : Bool}
    (read : readUnvalidated e = .ok off) :
    Given toggle? false (e.attribute? "novalidation") off := by
  rw [readUnvalidated] at read
  exact .of_read read

theorem given_of_readTolerance {e : Element} {tolerance : Option Tolerance}
    (read : readTolerance e = .ok tolerance) :
    Given Tolerance.ofText? none (e.attribute? "epsilon") tolerance ∧
      ∀ t ∈ tolerance, t.value.NonNegative := by
  rw [readTolerance] at read
  cases entry : e.attribute? "epsilon" with
  | none =>
      rw [entry] at read
      cases read
      exact ⟨.absent, by simp⟩
  | some text =>
      rw [entry] at read
      simp only [Checked.bind_eq_ok, Element.number, Checked.ofOption_eq_ok] at read
      obtain ⟨numeral, reads, read⟩ := read
      split at read
      · simp at read
      · rename_i sound
        simp only [Bool.or_eq_true, Bool.not_eq_true', not_or, Bool.not_eq_true,
          Bool.not_eq_false] at sound
        cases read
        refine ⟨.written (by simp [Tolerance.ofText?, reads]), ?_⟩
        rintro t ⟨rfl⟩
        exact Double.nonNegative_of_isFinite sound.1 sound.2

theorem attribute_of_readGenerator {e : Element} {generator : Option String}
    (read : readGenerator e = .ok generator) : generator = e.attribute? "generator" := by
  rw [readGenerator] at read
  split at read
  · rename_i entry
    cases read
    exact entry.symm
  · rename_i entry
    split at read
    · cases read
      exact entry.symm
    · simp at read

theorem declaredBy_of_read {role : Role} {e : Element} {v : Variable}
    (tag : Role.ofTag? e.name = some role) (read : Variable.read role e = .ok v) :
    v.DeclaredBy e := by
  have fields := readFrom_of_read read
  obtain ⟨type, readType, trimmed⟩ := fields.type
  obtain ⟨count, readCount, readMembers⟩ := fields.members
  obtain ⟨index, readIndex, readArgument⟩ := fields.argument
  simp only [Element.required, Checked.ofOption_eq_ok] at readType readCount readIndex
  simp only [Element.number, Checked.ofOption_eq_ok] at readMembers readArgument
  obtain ⟨name, named, identifier⟩ := given_of_readName fields.name
  obtain ⟨tolerance, sound⟩ := given_of_readTolerance fields.tolerance
  refine
    { role := fields.role ▸ tag
      type := by simp [readType, trimmed]
      members := by simp [readCount, readMembers]
      one_le_members := one_le_members read
      argument := by simp [readIndex, readArgument]
      name
      named := fields.role ▸ named
      isIdentifier_name := identifier
      unvalidated := given_of_readUnvalidated fields.unvalidated
      tolerance
      nonNegative_tolerance := sound
      generator := attribute_of_readGenerator fields.generator
      isIdentifier_generator := ?_
      span := fields.span }
  intro function held
  have generated := fields.generator
  rw [held] at generated
  exact isIdentifier_of_readGenerator generated

end Variable

/-! ## Kernels -/

theorem WorkRange.declaredBy_of_read {e : Element} {r : WorkRange}
    (read : WorkRange.read e = .ok r) : r.DeclaredBy e := by
  rw [WorkRange.read] at read
  simp only [Checked.bind_eq_ok] at read
  obtain ⟨dimensions, readDimensions, read⟩ := read
  split at read
  · simp at read
  · rename_i inside
    simp only [Checked.bind_eq_ok, Checked.pure_eq_ok] at read
    obtain ⟨lists, -, globalSizes, -, rfl⟩ := read
    simp only [Bool.or_eq_true, decide_eq_true_eq, not_or, Nat.not_lt] at inside
    exact
      { dimensions := (Given.of_number? readDimensions).getD
        one_le_dimensions := inside.1
        dimensions_le_three := inside.2 }

namespace Kernel

/-- The range that was met is that of the only element of a range. -/
def RangeIn (es : List Element) (range : Option WorkRange) : Prop :=
  es.filter (·.name == "ndrange") = [] ∧ range = none ∨
    ∃ child r, es.filter (·.name == "ndrange") = [child] ∧ range = some r ∧ r.DeclaredBy child

/-- Each variable is read from its element, and the range from the only element of a range. -/
theorem reads_of_readParts {name : String} {ranged : Bool} {es : List Element} {parts : Parts}
    (read : readParts name ranged es = .ok parts) :
    List.Forall₂ (fun child v => ∃ role, Role.ofTag? child.name = some role ∧
          Variable.read role child = .ok v)
        (es.filter fun child => (Role.ofTag? child.name).isSome) parts.vars ∧
      (es.filter (·.name == "ndrange") = [] ∧ parts.range = none ∨
        ∃ child r, es.filter (·.name == "ndrange") = [child] ∧ parts.range = some r ∧
          WorkRange.read child = .ok r) ∧
      (ranged → es.filter (·.name == "ndrange") = []) := by
  induction es generalizing ranged parts with
  | nil =>
      cases read
      exact ⟨.nil, .inl ⟨rfl, rfl⟩, fun _ => rfl⟩
  | cons e es ih =>
      rcases cases_of_readParts read with ⟨r, rest, tag, first, readRange, readRest, rfl⟩ |
        ⟨role, v, rest, other, tag, readVariable, readRest, rfl⟩ |
        ⟨rest, other, tag, readRest, rfl⟩
      · have noRole : Role.ofTag? e.name = none := by rw [tag]; rfl
        obtain ⟨vars, -, none⟩ := ih readRest
        have only : (e :: es).filter (·.name == "ndrange") = [e] := by
          rw [List.filter_cons_of_pos (by simp [tag]), none rfl]
        refine ⟨?_, .inr ⟨e, r, only, rfl, readRange⟩, ?_⟩
        · rwa [List.filter_cons_of_neg (by simp [noRole])]
        · intro again
          rw [first] at again
          cases again
      · obtain ⟨vars, range⟩ := ih readRest
        rw [List.filter_cons_of_pos (by simp [tag]), List.filter_cons_of_neg (by simpa using other)]
        exact ⟨.cons ⟨role, tag, readVariable⟩ vars, range⟩
      · obtain ⟨vars, range⟩ := ih readRest
        rw [List.filter_cons_of_neg (by simp [tag]), List.filter_cons_of_neg (by simpa using other)]
        exact ⟨vars, range⟩

theorem declaredBy_of_readParts {name : String} {ranged : Bool} {es : List Element} {parts : Parts}
    (read : readParts name ranged es = .ok parts) :
    List.Forall₂ (fun child v => v.DeclaredBy child)
        (es.filter fun child => (Role.ofTag? child.name).isSome) parts.vars ∧
      RangeIn es parts.range := by
  obtain ⟨vars, range, -⟩ := reads_of_readParts read
  refine ⟨vars.imp fun child v reads => ?_, ?_⟩
  · obtain ⟨role, tag, read⟩ := reads
    exact Variable.declaredBy_of_read tag read
  · rcases range with none | ⟨child, r, only, found, read⟩
    · exact .inl none
    · exact .inr ⟨child, r, only, found, WorkRange.declaredBy_of_read read⟩

theorem declaredBy_of_read {e : Element} {k : Kernel} {remarks : List (At Remark)}
    (read : Kernel.read e = .ok (k, remarks)) : k.DeclaredBy e := by
  obtain ⟨parts, readName, readOrder, readParts, met, vars, -, span⟩ := parts_of_read read
  obtain ⟨declared, inside⟩ := declaredBy_of_readParts readParts
  simp only [Kernel.readName, Checked.bind_eq_ok, Element.required,
    Checked.ofOption_eq_ok] at readName
  obtain ⟨text, entry, named⟩ := readName
  split at named
  · rename_i identifier
    have same : text = k.name := by simpa using named
    subst same
    refine
      { name := entry
        isIdentifier_name := identifier
        order := .of_number? readOrder
        range := ?_
        vars := vars ▸ declared
        span }
    rcases inside with ⟨-, absent⟩ | ⟨child, r, only, found, made⟩
    · simp [met] at absent
    · rw [met] at found
      cases found
      exact ⟨child, only, made⟩
  · simp at named

end Kernel

/-! ## Manifests -/

theorem DeviceChoice.declaredBy_of_read {e : Element} {d : DeviceChoice}
    (read : DeviceChoice.read e = .ok d) : d.DeclaredBy e := by
  simp only [DeviceChoice.read, Checked.bind_eq_ok, Checked.pure_eq_ok] at read
  obtain ⟨platform, readPlatform, device, readDevice, rfl⟩ := read
  exact ⟨(Given.of_number? readPlatform).getD, (Given.of_number? readDevice).getD⟩

namespace Manifest

/-- The device that was chosen is that of the last element that chooses one. -/
def DeviceIn (es : List Element) (device : Option DeviceChoice) : Prop :=
  (es.filter (·.name == "devinfo")).getLast?.elim (device = none) fun e =>
    ∃ d, device = some d ∧ d.DeclaredBy e

/-- Each kernel is read from its element. -/
theorem reads_of_readItems {chosen : Bool} {es : List Element} {items : Items}
    (read : readItems chosen es = .ok items) :
    List.Forall₂ (fun child k => ∃ remarks, Kernel.read child = .ok (k, remarks))
      (es.filter (·.name == "kernel")) items.kernels := by
  induction es generalizing chosen items with
  | nil =>
      cases read
      exact .nil
  | cons e es ih =>
      rcases cases_of_readItems read with ⟨k, remarks, rest, tag, readKernel, readRest, rfl⟩ |
        ⟨d, rest, tag, -, readRest, rfl⟩ | ⟨rest, noKernel, -, readRest, rfl⟩
      · rw [List.filter_cons_of_pos (by simp [tag])]
        exact .cons ⟨remarks, readKernel⟩ (ih readRest)
      · have behind := ih readRest
        rwa [List.filter_cons_of_neg (by simp [tag])]
      · have behind := ih readRest
        rwa [List.filter_cons_of_neg (by simpa using noKernel)]

theorem deviceIn_of_readItems {chosen : Bool} {es : List Element} {items : Items}
    (read : readItems chosen es = .ok items) : DeviceIn es items.device := by
  induction es generalizing chosen items with
  | nil =>
      cases read
      rfl
  | cons e es ih =>
      rcases cases_of_readItems read with ⟨k, remarks, rest, tag, -, readRest, rfl⟩ |
        ⟨d, rest, tag, readDevice, readRest, rfl⟩ | ⟨rest, -, noDevice, readRest, rfl⟩
      · have device := ih readRest
        rwa [DeviceIn, List.filter_cons_of_neg (by simp [tag])]
      · have device := ih readRest
        -- Only where no later element chooses a device does this one hold.
        rw [DeviceIn] at device
        rw [DeviceIn, List.filter_cons_of_pos (by simp [tag]), List.getLast?_cons]
        cases last : (es.filter (·.name == "devinfo")).getLast? with
        | none =>
            rw [last] at device
            have held : rest.device = none := device
            exact ⟨d, by simp [held], DeviceChoice.declaredBy_of_read readDevice⟩
        | some later =>
            rw [last] at device
            obtain ⟨chosen, held, declared⟩ := device
            have held : rest.device = some chosen := held
            exact ⟨chosen, by simp [held], declared⟩
      · have device := ih readRest
        rwa [DeviceIn, List.filter_cons_of_neg (by simpa using noDevice)]

theorem declaredBy_of_ofRoot {root : Element} {m : Manifest} (read : ofRoot root = .ok m) :
    m.DeclaredBy root := by
  simp only [ofRoot, Checked.bind_eq_ok, Checked.both_eq_ok, Checked.pure_eq_ok] at read
  obtain ⟨⟨settings, items⟩, ⟨readSettings, readItems⟩, rfl⟩ := read
  have kernels : List.Forall₂ (fun child k => k.DeclaredBy child)
      (root.elements.filter (·.name == "kernel")) items.kernels := by
    refine (reads_of_readItems readItems).imp ?_
    rintro child k ⟨remarks, read⟩
    exact Kernel.declaredBy_of_read read
  have device := deviceIn_of_readItems readItems
  have declared := Settings.declaredBy_of_ofAttributes readSettings
  refine ⟨{ declared with }, ?_, kernels⟩
  rw [DeviceIn] at device
  cases last : (root.elements.filter (·.name == "devinfo")).getLast? with
  | none =>
      rw [last] at device
      have held : items.device = none := device
      simp [held]
  | some e =>
      rw [last] at device
      obtain ⟨d, held, declared⟩ := device
      have held : items.device = some d := held
      simpa [held] using declared

/-- An accepted manifest is what its document says; where an attribute is there, its field is the
value of the attribute and never a stand-in. -/
theorem exists_declaredBy_of_read {source : String} {m : Manifest}
    (read : Manifest.read source = .ok m) :
    ∃ root, Xml.readDocument source = .ok root ∧ m.DeclaredBy root := by
  simp only [Manifest.read, Checked.bind_eq_ok, Checked.pure_eq_ok] at read
  obtain ⟨root, document, m, readRoot, _, -, rfl⟩ := read
  exact ⟨root, rootOf_eq_ok.mp document, declaredBy_of_ofRoot readRoot⟩

theorem exists_declaredBy_of_read_sampleManifest :
    ∃ m, Manifest.read Plan.sampleManifest = .ok m ∧
      ∃ root, Xml.readDocument Plan.sampleManifest = .ok root ∧ m.DeclaredBy root := by
  obtain ⟨m, p, read, -, -⟩ := Plan.sampleManifest_planned
  exact ⟨m, read, exists_declaredBy_of_read read⟩

end Manifest
end KernelHost
