import KernelHost.Proofs.Manifest.Transcription

/-!
# Elements that can be read

The relations `DeclaredBy` say what a reader has read.  Here they say when it reads anything at all:
an element is sound if there is something that it declares, and the readers succeed exactly on sound
elements.
-/

namespace KernelHost

open Xml (Element)

theorem Checked.isSome_toOption_iff {α : Type} (x : Checked α) :
    x.toOption.isSome ↔ ∃ a, x = .ok a := by
  cases x <;> simp [Except.toOption]

theorem Double.nonNegative_iff {x : Double} :
    x.NonNegative ↔ x.isFinite = true ∧ x.below ⟨0⟩ = false := by
  constructor
  · rintro ⟨negative, steps, datum, nonneg⟩
    have zero : (⟨0⟩ : Double).datum = .finite false 0 := by decide
    refine ⟨by simp [isFinite, datum], ?_⟩
    simpa [below, datum, zero, Datum.below, Datum.signedSteps] using nonneg
  · rintro ⟨finite, notBelow⟩
    exact nonNegative_of_isFinite finite notBelow

namespace Given

variable {α : Type} {read? : String → Option α} {default a : α}

@[simp]
theorem none_iff : Given read? default none a ↔ a = default := by
  constructor
  · rintro ⟨⟩
    rfl
  · rintro rfl
    exact .absent

@[simp]
theorem some_iff {text : String} : Given read? default (some text) a ↔ read? text = some a := by
  constructor
  · rintro ⟨⟩
    assumption
  · exact .written

theorem read_of {written : Option String} (given : Given read? default written a)
    (what : String → Problem) (span : Span) :
    (match written with
      | none => Except.ok default
      | some text => Checked.ofOption (what text) span (read? text)) = .ok a := by
  cases given with
  | absent => rfl
  | written reads => exact Checked.ofOption_eq_ok.mpr reads

theorem number?_of {e : Element} {name : String} {o : Option α}
    (given : Given (fun text => (read? (Text.trim text)).map some) none (e.attribute? name) o) :
    e.number? name read? = .ok o := by
  rw [Element.number?]
  cases entry : e.attribute? name with
  | none =>
      rw [entry, none_iff] at given
      rw [given]
  | some text =>
      rw [entry, some_iff, Option.map_eq_some_iff] at given
      simpa only [Checked.map_eq_ok, Element.number, Checked.ofOption_eq_ok] using given

/-- A value with a default is read from an optional number with that default. -/
theorem exists_number? {e : Element} {name : String}
    (given : Given (fun text => read? (Text.trim text)) default (e.attribute? name) a) :
    ∃ o, e.number? name read? = .ok o ∧ o.getD default = a := by
  cases entry : e.attribute? name with
  | none =>
      rw [entry, none_iff] at given
      exact ⟨none, number?_of (entry ▸ .absent), given.symm⟩
  | some text =>
      rw [entry, some_iff] at given
      exact ⟨some a, number?_of (entry ▸ .written (by simp [given])), rfl⟩

end Given

/-! ## Variables -/

namespace Variable

variable {role : Role} {e : Element} {v : Variable}

/-- A variable is read exactly if each of its fields is. -/
theorem read_eq_ok_iff :
    Variable.read role e = .ok v ↔ v.ReadFrom role e ∧ v.literal = e.text? := by
  constructor
  · intro read
    refine ⟨readFrom_of_read read, ?_⟩
    rw [Variable.read] at read
    simp only [Checked.bind_eq_ok] at read
    obtain ⟨type, -, count, -, members, -, index, -, argument, -, read⟩ := read
    split at read
    · simp at read
    · simp only [Checked.bind_eq_ok, Checked.pure_eq_ok] at read
      obtain ⟨name, -, _, -, _, -, _, -, rfl⟩ := read
      rfl
  · rintro ⟨fields, literal⟩
    obtain ⟨type, readType, trimmed⟩ := fields.type
    obtain ⟨count, readCount, readMembers⟩ := fields.members
    obtain ⟨index, readIndex, readArgument⟩ := fields.argument
    rw [Variable.read]
    simp only [Checked.bind_eq_ok]
    refine ⟨type, readType, count, readCount, _, readMembers, index, readIndex, _,
      readArgument, ?_⟩
    rw [if_neg fields.members_ne_zero]
    simp only [Checked.bind_eq_ok, Checked.pure_eq_ok]
    refine ⟨_, fields.name, _, fields.unvalidated, _, fields.tolerance, _, fields.generator, ?_⟩
    simp only [trimmed, ← literal, ← fields.role, ← fields.span]

theorem readName_of_given {argument : Nat} {name : String}
    (given : Given some s!"local{argument}" (e.attribute? "name") name)
    (named : role ≠ .scratch → (e.attribute? "name").isSome) (identifier : Text.isIdentifier name) :
    readName role argument e = .ok name := by
  cases entry : e.attribute? "name" with
  | some text =>
      rw [entry, Given.some_iff, Option.some.injEq] at given
      subst given
      cases role <;> simp [readName, entry, identifier]
  | none =>
      rw [entry, Given.none_iff] at given
      obtain rfl : role = .scratch := by
        by_contra other
        simpa [entry] using named other
      simp [readName, entry, given]

theorem readTolerance_of_given {tolerance : Option Tolerance}
    (given : Given Tolerance.ofText? none (e.attribute? "epsilon") tolerance)
    (sound : ∀ t ∈ tolerance, t.value.NonNegative) : readTolerance e = .ok tolerance := by
  rw [readTolerance]
  cases entry : e.attribute? "epsilon" with
  | none =>
      rw [entry, Given.none_iff] at given
      rw [given]
  | some text =>
      rw [entry, Given.some_iff, Tolerance.ofText?, Option.map_eq_some_iff] at given
      obtain ⟨numeral, reads, rfl⟩ := given
      obtain ⟨finite, notBelow⟩ := Double.nonNegative_iff.mp (sound _ rfl)
      simp only [Checked.bind_eq_ok, Element.number, Checked.ofOption_eq_ok]
      exact ⟨numeral, reads, by simp [finite, notBelow]⟩

theorem readGenerator_of_attribute {generator : Option String}
    (same : generator = e.attribute? "generator")
    (identifier : ∀ name ∈ generator, Text.isIdentifier name) :
    readGenerator e = .ok generator := by
  rw [readGenerator, ← same]
  cases generator with
  | none => rfl
  | some name => simp [identifier name rfl]

theorem readFrom_of_declaredBy (declared : v.DeclaredBy e) : v.ReadFrom v.role e where
  type := by
    obtain ⟨text, entry, trimmed⟩ := Option.map_eq_some_iff.mp declared.type
    exact ⟨text, Checked.ofOption_eq_ok.mpr entry, trimmed⟩
  members := by
    obtain ⟨text, entry, reads⟩ := Option.bind_eq_some_iff.mp declared.members
    exact ⟨text, Checked.ofOption_eq_ok.mpr entry, Checked.ofOption_eq_ok.mpr reads⟩
  members_ne_zero := Nat.one_le_iff_ne_zero.mp declared.one_le_members
  argument := by
    obtain ⟨text, entry, reads⟩ := Option.bind_eq_some_iff.mp declared.argument
    exact ⟨text, Checked.ofOption_eq_ok.mpr entry, Checked.ofOption_eq_ok.mpr reads⟩
  name := readName_of_given declared.name declared.named declared.isIdentifier_name
  unvalidated := declared.unvalidated.read_of _ _
  tolerance := readTolerance_of_given declared.tolerance declared.nonNegative_tolerance
  generator := readGenerator_of_attribute declared.generator declared.isIdentifier_generator
  role := rfl
  span := declared.span

/-- An element declares a variable. -/
def Sound (e : Element) : Prop :=
  ∃ v : Variable, v.DeclaredBy e

theorem exists_read_iff (tag : Role.ofTag? e.name = some role) :
    (∃ v, Variable.read role e = .ok v) ↔ Sound e := by
  constructor
  · rintro ⟨v, read⟩
    exact ⟨v, declaredBy_of_read tag read⟩
  · rintro ⟨v, declared⟩
    obtain rfl : v.role = role := Option.some.inj (declared.role.symm.trans tag)
    have fields := readFrom_of_declaredBy declared
    exact ⟨{ v with literal := e.text? }, read_eq_ok_iff.mpr ⟨{ fields with }, rfl⟩⟩

instance : DecidablePred Sound := fun e =>
  match tag : Role.ofTag? e.name with
  | some _ => decidable_of_iff _ ((Checked.isSome_toOption_iff _).trans (exists_read_iff tag))
  | none => .isFalse fun ⟨_, declared⟩ => by simp [declared.role] at tag

end Variable

/-! ## Choices of a device -/

namespace DeviceChoice

/-- An element declares a choice of a device. -/
def Sound (e : Element) : Prop :=
  ∃ d : DeviceChoice, d.DeclaredBy e

theorem exists_read_iff {e : Element} : (∃ d, DeviceChoice.read e = .ok d) ↔ Sound e := by
  constructor
  · rintro ⟨d, read⟩
    exact ⟨d, declaredBy_of_read read⟩
  · rintro ⟨d, declared⟩
    obtain ⟨platform, readPlatform, -⟩ := declared.platform.exists_number?
    obtain ⟨device, readDevice, -⟩ := declared.device.exists_number?
    simp only [DeviceChoice.read, Checked.bind_eq_ok, Checked.pure_eq_ok]
    exact ⟨_, platform, readPlatform, device, readDevice, rfl⟩

instance : DecidablePred Sound := fun _ =>
  decidable_of_iff _ ((Checked.isSome_toOption_iff _).trans exists_read_iff)

end DeviceChoice

/-! ## Ranges -/

namespace WorkRange

/-- Whether an element is a list of sizes. -/
def isList (e : Element) : Bool :=
  e.name == "global" || e.name == "local"

/-- An element declares a range of one, two or three dimensions: each list of sizes inside has an
entry for each dimension, and one of the lists is global. -/
def Sound (e : Element) : Prop :=
  ∃ dimensions, Given (fun text => Text.natural? 32 (Text.trim text)) 1 (e.attribute? "dim")
      dimensions ∧ 1 ≤ dimensions ∧ dimensions ≤ 3 ∧
    (∀ child ∈ e.elements, isList child → ∃ sizes ∈ child.text?, entries sizes = dimensions) ∧
    ∃ child ∈ e.elements, child.name = "global"

variable {dimensions : Nat} {e : Element} {es : List Element}

theorem readSizes_eq_ok_iff {sizes : String} :
    readSizes dimensions e = .ok sizes ↔ e.text? = some sizes ∧ entries sizes = dimensions := by
  simp only [readSizes, Checked.bind_eq_ok, Checked.ofOption_eq_ok]
  constructor
  · rintro ⟨text, found, read⟩
    split at read
    · rename_i fitting
      cases read
      exact ⟨found, fitting⟩
    · simp at read
  · rintro ⟨found, fitting⟩
    exact ⟨sizes, found, by simp [fitting]⟩

theorem exists_readSizes_bind_iff {β : Type} {f : String → Checked β} {rest : Prop}
    (next : ∀ sizes, (∃ b, f sizes = .ok b) ↔ rest) :
    (∃ b, (readSizes dimensions e >>= f) = .ok b) ↔
      (∃ sizes ∈ e.text?, entries sizes = dimensions) ∧ rest := by
  simp only [Checked.bind_eq_ok, readSizes_eq_ok_iff]
  constructor
  · rintro ⟨b, sizes, ⟨found, fitting⟩, read⟩
    exact ⟨⟨sizes, found, fitting⟩, (next sizes).mp ⟨b, read⟩⟩
  · rintro ⟨⟨sizes, found, fitting⟩, later⟩
    obtain ⟨b, read⟩ := (next sizes).mpr later
    exact ⟨b, sizes, ⟨found, fitting⟩, read⟩

theorem exists_readLists_iff {globalSizes localSizes : Option String} :
    (∃ lists, readLists dimensions globalSizes localSizes es = .ok lists) ↔
      ∀ child ∈ es, isList child → ∃ sizes ∈ child.text?, entries sizes = dimensions := by
  induction es generalizing globalSizes localSizes with
  | nil => simp [readLists]
  | cons e es ih =>
      rw [readLists, List.forall_mem_cons]
      split
      · rename_i tag
        rw [exists_readSizes_bind_iff fun _ => ih]
        simp [isList, tag]
      · rename_i tag
        rw [exists_readSizes_bind_iff fun _ => ih]
        simp [isList, tag]
      · rename_i noGlobal noLocal
        have skipped : isList e = false := by
          simpa [isList] using And.intro noGlobal noLocal
        rw [ih]
        simp [skipped]

/-- Some list of global sizes is read exactly if there is one, or was one before. -/
theorem isSome_of_readLists {globalSizes localSizes : Option String}
    {lists : Option String × Option String}
    (read : readLists dimensions globalSizes localSizes es = .ok lists) :
    lists.1.isSome ↔ globalSizes.isSome ∨ ∃ child ∈ es, child.name = "global" := by
  induction es generalizing globalSizes localSizes with
  | nil =>
      cases read
      simp
  | cons e es ih =>
      rw [readLists] at read
      split at read
      · rename_i tag
        obtain ⟨sizes, -, read⟩ := Checked.bind_eq_ok.mp read
        simp [ih read, tag]
      · rename_i tag
        obtain ⟨sizes, -, read⟩ := Checked.bind_eq_ok.mp read
        simp [ih read, tag]
      · rename_i noGlobal noLocal
        have other : e.name ≠ "global" := noGlobal
        simp [ih read, other]

theorem exists_read_iff : (∃ r, WorkRange.read e = .ok r) ↔ Sound e := by
  constructor
  · rintro ⟨r, read⟩
    have declared := declaredBy_of_read read
    rw [WorkRange.read] at read
    simp only [Checked.bind_eq_ok] at read
    obtain ⟨dimensions, readDimensions, read⟩ := read
    split at read
    · simp at read
    · simp only [Checked.bind_eq_ok, Checked.pure_eq_ok, Checked.ofOption_eq_ok] at read
      obtain ⟨lists, readLists, globalSizes, found, rfl⟩ := read
      have lengths := exists_readLists_iff.mp ⟨lists, readLists⟩
      have global := (isSome_of_readLists readLists).mp (by simp [found])
      exact ⟨_, declared.dimensions, declared.one_le_dimensions, declared.dimensions_le_three,
        lengths, by simpa using global⟩
  · rintro ⟨dimensions, given, positive, small, lengths, global⟩
    obtain ⟨o, readDimensions, rfl⟩ := given.exists_number?
    have readable : ∃ lists, readLists (o.getD 1) none none e.elements = .ok lists :=
      exists_readLists_iff.mpr lengths
    obtain ⟨lists, readLists⟩ := readable
    obtain ⟨sizes, found⟩ := Option.isSome_iff_exists.mp
      ((isSome_of_readLists readLists).mpr (.inr global))
    refine ⟨⟨o.getD 1, sizes, lists.2, e.span⟩, ?_⟩
    simp only [WorkRange.read, Checked.bind_eq_ok]
    refine ⟨o, readDimensions, ?_⟩
    rw [if_neg (by simp; omega)]
    simp only [Checked.bind_eq_ok, Checked.pure_eq_ok, Checked.ofOption_eq_ok]
    exact ⟨lists, readLists, sizes, found, rfl⟩

instance : DecidablePred Sound := fun _ =>
  decidable_of_iff _ ((Checked.isSome_toOption_iff _).trans exists_read_iff)

end WorkRange
end KernelHost
