import KernelHost.Manifest.Check
import KernelHost.Proofs.Checked
import KernelHost.Proofs.Text.Ascii

/-!
# What is read

What a manifest can hold once it is read.  No variable is declared without elements, and the factor
on them is not zero, so products of the two are never zero; and all names are identifiers.  At the
end, that a text of single bytes is read is reduced to an evaluation.
-/

namespace KernelHost

theorem Settings.one_le_copies_of_readCopies {attribute? : String → Option String} {span : Span}
    {copies : Nat} (read : readCopies attribute? span = .ok copies) : 1 ≤ copies := by
  rw [readCopies] at read
  split at read
  · cases read
    exact Nat.le_refl 1
  · rw [Checked.ofOption_eq_ok, Option.filter_eq_some_iff] at read
    simpa using read.2

theorem Settings.one_le_copies {attribute? : String → Option String} {span : Span}
    {settings : Settings} (read : ofAttributes attribute? span = .ok settings) :
    1 ≤ settings.copies := by
  simp only [ofAttributes, Checked.bind_eq_ok, Checked.both_eq_ok, Checked.pure_eq_ok] at read
  obtain ⟨⟨_, _, _, copies, _⟩, ⟨_, _, _, readCopies, _⟩, rfl⟩ := read
  exact one_le_copies_of_readCopies readCopies

/-- What each field of a variable was read from. -/
structure Variable.ReadFrom (role : Role) (e : Xml.Element) (v : Variable) : Prop where
  type : ∃ text, e.required "type" = .ok text ∧ Text.trim text = v.type
  members : ∃ text, e.required "nmemb" = .ok text ∧
    e.number "nmemb" (Text.natural? 64) text = .ok v.members
  members_ne_zero : v.members ≠ 0
  argument : ∃ text, e.required "arg" = .ok text ∧
    e.number "arg" (Text.natural? 32) text = .ok v.argument
  name : readName role v.argument e = .ok v.name
  unvalidated : readUnvalidated e = .ok v.unvalidated
  tolerance : readTolerance e = .ok v.tolerance
  generator : readGenerator e = .ok v.generator
  role : v.role = role
  span : v.span = e.span

theorem Variable.readFrom_of_read {role : Role} {e : Xml.Element} {v : Variable}
    (read : Variable.read role e = .ok v) : v.ReadFrom role e := by
  rw [Variable.read] at read
  simp only [Checked.bind_eq_ok] at read
  obtain ⟨type, readType, count, readCount, members, readMembers, index, readIndex, argument,
    readArgument, read⟩ := read
  split at read
  · simp at read
  · rename_i positive
    simp only [Checked.bind_eq_ok, Checked.pure_eq_ok] at read
    obtain ⟨name, named, _, unvalidated, _, tolerance, _, generator, rfl⟩ := read
    exact
      { type := ⟨type, readType, rfl⟩
        members := ⟨count, readCount, readMembers⟩
        members_ne_zero := positive
        argument := ⟨index, readIndex, readArgument⟩
        name := named
        unvalidated, tolerance, generator
        role := rfl
        span := rfl }

theorem Variable.one_le_members {role : Role} {e : Xml.Element} {v : Variable}
    (read : Variable.read role e = .ok v) : 1 ≤ v.members :=
  Nat.one_le_iff_ne_zero.mpr (readFrom_of_read read).members_ne_zero

theorem Variable.isIdentifier_of_readName {role : Role} {argument : Nat} {e : Xml.Element}
    {name : String} (named : readName role argument e = .ok name) (known : role ≠ .scratch) :
    Text.isIdentifier name := by
  cases written : e.attribute? "name" with
  | none => cases role <;> simp_all [readName]
  | some text =>
      by_cases identifier : Text.isIdentifier text
      · cases role <;> simp_all [readName]
      · cases role <;> simp [readName, written, identifier] at named

theorem Variable.isIdentifier_of_readGenerator {e : Xml.Element} {name : String}
    (generated : readGenerator e = .ok (some name)) : Text.isIdentifier name := by
  rw [readGenerator] at generated
  split at generated
  · simp at generated
  · split at generated <;> simp_all

/-- The names of a variable of the host and of its generator are identifiers. -/
theorem Variable.isIdentifier_of_read {role : Role} {e : Xml.Element} {v : Variable}
    (read : Variable.read role e = .ok v) (onHost : v.onHost) :
    Text.isIdentifier v.name ∧ ∀ name ∈ v.generator, Text.isIdentifier name := by
  have fields := readFrom_of_read read
  have known : role ≠ .scratch := by simpa [Variable.onHost, fields.role] using onHost
  refine ⟨isIdentifier_of_readName fields.name known, ?_⟩
  intro function held
  have generated := fields.generator
  rw [held] at generated
  exact isIdentifier_of_readGenerator generated

/-! ## Elements one after another -/

/-- The first of the elements inside a kernel is the only range, a variable, or passed over. -/
theorem Kernel.cases_of_readParts {name : String} {ranged : Bool} {e : Xml.Element}
    {es : List Xml.Element} {parts : Parts} (read : readParts name ranged (e :: es) = .ok parts) :
    (∃ range rest, e.name = "ndrange" ∧ ranged = false ∧ WorkRange.read e = .ok range ∧
        readParts name true es = .ok rest ∧ parts = { rest with range := some range }) ∨
      (∃ role v rest, e.name ≠ "ndrange" ∧ Role.ofTag? e.name = some role ∧
        Variable.read role e = .ok v ∧ readParts name ranged es = .ok rest ∧
        parts = { rest with
          vars := v :: rest.vars
          remarks := v.remarks e ++ rest.remarks }) ∨
      ∃ rest, e.name ≠ "ndrange" ∧ Role.ofTag? e.name = none ∧
        readParts name ranged es = .ok rest ∧
        parts = { rest with
          remarks := ⟨.unknownKernelElement e.name name, e.span⟩ :: rest.remarks } := by
  rw [readParts] at read
  split at read
  · rename_i isRange
    have tag : e.name = "ndrange" := by simpa [Kernel.isRange] using isRange
    split at read
    · simp at read
    · rename_i first
      simp only [Checked.map_eq_ok, Checked.both_eq_ok] at read
      obtain ⟨⟨range, rest⟩, ⟨readRange, readRest⟩, rfl⟩ := read
      exact .inl ⟨range, rest, tag, by simpa using first, readRange, readRest, rfl⟩
  · rename_i noRange
    have other : e.name ≠ "ndrange" := by simpa [Kernel.isRange] using noRange
    split at read
    · rename_i role tag
      simp only [Checked.map_eq_ok, Checked.both_eq_ok] at read
      obtain ⟨⟨v, rest⟩, ⟨readVariable, readRest⟩, rfl⟩ := read
      exact .inr (.inl ⟨role, v, rest, other, tag, readVariable, readRest, rfl⟩)
    · rename_i tag
      simp only [Checked.map_eq_ok] at read
      obtain ⟨rest, readRest, rfl⟩ := read
      exact .inr (.inr ⟨rest, other, tag, readRest, rfl⟩)

/-- A kernel is its name, its key and its parts, with the range among them. -/
theorem Kernel.parts_of_read {e : Xml.Element} {k : Kernel} {remarks : List (At Remark)}
    (read : Kernel.read e = .ok (k, remarks)) :
    ∃ parts, readName e = .ok k.name ∧ e.number? "order" (Text.integer? 64) = .ok k.order ∧
      readParts ((e.attribute? "name").getD "") false e.elements = .ok parts ∧
      parts.range = some k.range ∧ parts.vars = k.vars ∧ parts.remarks = remarks ∧
      k.span = e.span := by
  simp only [Kernel.read, Checked.bind_eq_ok, Checked.pure_eq_ok] at read
  obtain ⟨⟨⟨name, order⟩, parts, range⟩, demanded, built⟩ := read
  obtain ⟨rfl, rfl⟩ := Prod.mk.inj built
  unfold demandRange at demanded
  split at demanded
  · rename_i both
    simp only [Checked.both_eq_ok] at both
    obtain ⟨⟨readName, readOrder⟩, readParts⟩ := both
    split at demanded
    · rename_i met
      cases demanded
      exact ⟨parts, readName, readOrder, readParts, met, rfl, rfl, rfl⟩
    · simp at demanded
  · simp at demanded

/-- The first of the elements inside the root is a kernel, a choice of a device, or passed over. -/
theorem Manifest.cases_of_readItems {chosen : Bool} {e : Xml.Element} {es : List Xml.Element}
    {items : Items} (read : readItems chosen (e :: es) = .ok items) :
    (∃ k remarks rest, e.name = "kernel" ∧ Kernel.read e = .ok (k, remarks) ∧
        readItems chosen es = .ok rest ∧
        items = { rest with kernels := k :: rest.kernels, remarks := remarks ++ rest.remarks }) ∨
      (∃ device rest, e.name = "devinfo" ∧ DeviceChoice.read e = .ok device ∧
        readItems true es = .ok rest ∧
        items = { rest with
          device := rest.device <|> some device
          remarks := (if chosen then [⟨.repeatedDevice, e.span⟩] else []) ++ rest.remarks }) ∨
      ∃ rest, e.name ≠ "kernel" ∧ e.name ≠ "devinfo" ∧ readItems chosen es = .ok rest ∧
        items = { rest with remarks := ⟨.unknownElement e.name, e.span⟩ :: rest.remarks } := by
  rw [readItems] at read
  split at read
  · rename_i tag
    simp only [Checked.map_eq_ok, Checked.both_eq_ok] at read
    obtain ⟨⟨⟨k, remarks⟩, rest⟩, ⟨readKernel, readRest⟩, rfl⟩ := read
    exact .inl ⟨k, remarks, rest, tag, readKernel, readRest, rfl⟩
  · rename_i tag
    simp only [Checked.map_eq_ok, Checked.both_eq_ok] at read
    obtain ⟨⟨device, rest⟩, ⟨readDevice, readRest⟩, rfl⟩ := read
    exact .inr (.inl ⟨device, rest, tag, readDevice, readRest, rfl⟩)
  · rename_i noKernel noDevice
    simp only [Checked.map_eq_ok] at read
    obtain ⟨rest, readRest, rfl⟩ := read
    exact .inr (.inr ⟨rest, noKernel, noDevice, readRest, rfl⟩)

/-! ## All variables of a manifest -/

section Every

variable {P : Variable → Prop}
  (each : ∀ (role : Role) (e : Xml.Element) (v : Variable), Variable.read role e = .ok v → P v)

include each

theorem Kernel.forall_vars_of_readParts {name : String} {ranged : Bool} {es : List Xml.Element}
    {parts : Parts} (read : readParts name ranged es = .ok parts) : ∀ v ∈ parts.vars, P v := by
  induction es generalizing ranged parts with
  | nil =>
      cases read
      simp
  | cons e es ih =>
      rcases cases_of_readParts read with ⟨range, rest, -, -, -, readRest, rfl⟩ |
        ⟨role, v, rest, -, -, readVariable, readRest, rfl⟩ | ⟨rest, -, -, readRest, rfl⟩
      · simpa using ih readRest
      · exact List.forall_mem_cons.mpr ⟨each role e v readVariable, ih readRest⟩
      · simpa using ih readRest

theorem Kernel.forall_vars_of_read {e : Xml.Element} {k : Kernel} {remarks : List (At Remark)}
    (read : Kernel.read e = .ok (k, remarks)) : ∀ v ∈ k.vars, P v := by
  obtain ⟨parts, -, -, readParts, -, vars, -⟩ := parts_of_read read
  rw [← vars]
  exact forall_vars_of_readParts each readParts

theorem Manifest.forall_vars_of_readItems {chosen : Bool} {es : List Xml.Element} {items : Items}
    (read : readItems chosen es = .ok items) : ∀ k ∈ items.kernels, ∀ v ∈ k.vars, P v := by
  induction es generalizing chosen items with
  | nil =>
      cases read
      simp
  | cons e es ih =>
      rcases cases_of_readItems read with ⟨k, remarks, rest, -, readKernel, readRest, rfl⟩ |
        ⟨device, rest, -, -, readRest, rfl⟩ | ⟨rest, -, -, readRest, rfl⟩
      · have head := Kernel.forall_vars_of_read each readKernel
        exact List.forall_mem_cons.mpr ⟨head, ih readRest⟩
      · simpa using ih readRest
      · simpa using ih readRest

/-- What reading a variable ensures holds of every variable of a manifest. -/
theorem Manifest.forall_vars_of_read {source : String} {m : Manifest}
    (read : Manifest.read source = .ok m) : ∀ k ∈ m.kernels, ∀ v ∈ k.vars, P v := by
  simp only [Manifest.read, ofRoot, check, Checked.bind_eq_ok, Checked.both_eq_ok,
    Checked.pure_eq_ok, Checked.ofProblems_eq_ok] at read
  obtain ⟨root, -, m, ⟨⟨settings, items⟩, ⟨-, readItems⟩, rfl⟩, _, -, rfl⟩ := read
  exact forall_vars_of_readItems each readItems

end Every

namespace Manifest

/-- The names that a manifest gives to variables of the host and to generators are identifiers. -/
theorem isIdentifier_of_read {source : String} {m : Manifest}
    (read : Manifest.read source = .ok m) {x : Kernel × Variable} (mem : x ∈ m.hostVariables) :
    Text.isIdentifier x.2.name ∧ ∀ name ∈ x.2.generator, Text.isIdentifier name := by
  obtain ⟨all, onHost⟩ := List.mem_filter.mp mem
  obtain ⟨k, k_mem, of⟩ := List.mem_flatMap.mp all
  obtain ⟨v, v_mem, rfl⟩ := List.mem_map.mp of
  have identifiers := forall_vars_of_read (fun _ _ _ => Variable.isIdentifier_of_read) read
  exact identifiers k k_mem v v_mem onHost

/-- What every manifest satisfies that was read and checked. -/
structure Admitted (m : Manifest) : Prop where
  /-- There is a factor on element counts. -/
  one_le_copies : 1 ≤ m.settings.copies
  /-- No variable is without elements. -/
  one_le_members : ∀ k ∈ m.kernels, ∀ v ∈ k.vars, 1 ≤ v.members
  /-- There is no problem with the names. -/
  nameProblems_eq_nil : m.nameProblems = []

theorem admitted_of_read {source : String} {m : Manifest} (read : Manifest.read source = .ok m) :
    m.Admitted := by
  have members := forall_vars_of_read (fun _ _ _ => Variable.one_le_members) read
  simp only [Manifest.read, ofRoot, check, Checked.bind_eq_ok, Checked.both_eq_ok,
    Checked.pure_eq_ok, Checked.ofProblems_eq_ok] at read
  obtain ⟨root, -, m, ⟨⟨settings, items⟩, ⟨readSettings, -⟩, rfl⟩, _, named, rfl⟩ := read
  have copies := Settings.one_le_copies readSettings
  exact ⟨copies, members, named⟩

theorem rootOf_eq_ok {source : String} {root : Xml.Element} :
    rootOf source = .ok root ↔ Xml.readDocument source = .ok root := by
  rw [rootOf]
  split <;> simp_all

theorem read_of_root {source : String} {root : Xml.Element}
    (document : Xml.readDocument source = .ok root) :
    Manifest.read source = (do let m ← ofRoot root; m.check; return m) := by
  rw [Manifest.read, rootOf_eq_ok.mpr document]
  rfl

end Manifest

/-! ## Evaluation -/

/-- The root element of a text of single bytes, if there is one. -/
def Xml.root? (source : String) : Option Xml.Element :=
  (Text.ascii? source).bind fun cs => ((Reader.document ⟨0, cs⟩).map (·.1)).toOption

theorem Xml.readDocument_of_root? {source : String} {root : Xml.Element}
    (found : root? source = some root) : readDocument source = .ok root := by
  obtain ⟨cs, ascii, read⟩ := Option.bind_eq_some_iff.mp found
  rw [readDocument, Cursor.ofText, Text.toList_of_ascii? ascii]
  cases document : Reader.document ⟨0, cs⟩ <;> simp_all [Except.toOption, Except.map]

/-- What is evaluated to hold of the root element of a text holds of it, and there is one. -/
theorem Xml.exists_root (source : String) (good : Xml.Element → Bool)
    (found : (root? source).any good) :
    ∃ root, readDocument source = .ok root ∧ good root := by
  obtain ⟨root, read, holds⟩ := (Option.any_eq_true _ _).mp found
  exact ⟨root, readDocument_of_root? read, holds⟩

theorem Manifest.exists_read (source : String) (good : Xml.Element → Manifest → Bool)
    (found : (Xml.root? source).any fun root =>
      (do let m ← ofRoot root; m.check; return m : Checked Manifest).toOption.any (good root)) :
    ∃ root m, Xml.readDocument source = .ok root ∧ Manifest.read source = .ok m ∧ good root m := by
  obtain ⟨root, document, accepted⟩ := Xml.exists_root source _ found
  rw [← read_of_root document] at accepted
  cases read : Manifest.read source with
  | error problems => simp [read, Except.toOption] at accepted
  | ok m => exact ⟨root, m, document, rfl, by simpa [read, Except.toOption] using accepted⟩

end KernelHost
