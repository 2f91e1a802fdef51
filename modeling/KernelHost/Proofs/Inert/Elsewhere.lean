import KernelHost.Proofs.Inert.Essence
import KernelHost.Proofs.Manifest.Sound
import KernelHost.Proofs.Xml.Alike

/-!
# Reading elsewhere

What is read of an element does not depend on its place, except for the place itself.  Nor does it
depend on anything in the content but the text that it begins with, where a text is read at all, and
the elements inside.
-/

namespace KernelHost

open Xml (Element)

/-! ## Attributes -/

namespace Settings

variable {attribute? : String → Option String} {span : Span}

theorem toOption_readProgram (elsewhere : Span) :
    (readProgram attribute? span).toOption = (readProgram attribute? elsewhere).toOption := by
  cases binary : attribute? "program" <;> cases text : attribute? "source" <;>
    simp [readProgram, binary, text]

theorem toOption_readToggle (elsewhere : Span) (name : String) :
    (readToggle attribute? span name).toOption =
      (readToggle attribute? elsewhere name).toOption := by
  cases written : attribute? name <;> simp [readToggle, written]

theorem toOption_readHooks (elsewhere : Span) :
    (readHooks attribute? span).toOption = (readHooks attribute? elsewhere).toOption := by
  simp only [readHooks, Checked.toOption_map, Checked.toOption_both, toOption_readToggle elsewhere]

theorem toOption_readCopies (elsewhere : Span) :
    (readCopies attribute? span).toOption = (readCopies attribute? elsewhere).toOption := by
  cases written : attribute? "repeat" <;> simp [readCopies, written]

theorem toOption_readApi (elsewhere : Span) :
    (readApi attribute? span).toOption = (readApi attribute? elsewhere).toOption := by
  cases written : attribute? "api" <;> simp [readApi, written]

theorem ofAttributes_elsewhere {settings : Settings}
    (read : ofAttributes attribute? span = .ok settings) (elsewhere : Span) :
    ofAttributes attribute? elsewhere = .ok settings := by
  rw [← Checked.toOption_eq_some] at read ⊢
  rw [← read]
  simp only [ofAttributes, Checked.toOption_bind, Checked.toOption_both, Checked.toOption_pure,
    toOption_readProgram span, toOption_readToggle span, toOption_readHooks span,
    toOption_readCopies span, toOption_readApi span]

end Settings

theorem Xml.Element.number?_of_attribute? {α : Type} {e e' : Element} {name : String}
    {read? : String → Option α} {o : Option α} (same : e'.attribute? name = e.attribute? name)
    (read : e.number? name read? = .ok o) : e'.number? name read? = .ok o :=
  Given.number?_of (same ▸ Given.of_number? read)

theorem Kernel.readName_of_attribute? {e e' : Element} {name : String}
    (same : e'.attribute? "name" = e.attribute? "name") (read : readName e = .ok name) :
    readName e' = .ok name := by
  simp only [readName, Element.required, Checked.bind_eq_ok, Checked.ofOption_eq_ok] at read ⊢
  obtain ⟨text, written, read⟩ := read
  refine ⟨text, same.trans written, ?_⟩
  split at read
  · rename_i identifier
    rwa [if_pos identifier]
  · simp at read

/-! ## Elements -/

/-- Whether the text of an element is read. -/
def Xml.Element.holdsText (e : Element) : Bool :=
  (Role.ofTag? e.name).isSome || WorkRange.isList e

/-- Related elements have the same name, the same attributes and, where it is read, the same text;
the elements inside them are related in their turn. -/
structure Xml.Element.Bisimulation (R : Element → Element → Prop) : Prop where
  name : ∀ {e e'}, R e e' → e'.name = e.name
  attributes : ∀ {e e'}, R e e' → e'.attributes = e.attributes
  text? : ∀ {e e'}, R e e' → e.holdsText → e'.text? = e.text?
  elements : ∀ {e e'}, R e e' → List.Forall₂ R e.elements e'.elements

/-- A reader tells two elements apart by their places only. -/
def Xml.Element.Agree (e e' : Element) : Prop :=
  ∃ R, Element.Bisimulation R ∧ R e e'

variable {e e' : Element}

theorem Xml.Element.Alike.agree (alike : e.Alike e') : e.Agree e' :=
  ⟨Element.Alike,
    { name := fun alike => alike.name
      attributes := fun alike => alike.attributes
      text? := fun alike _ => alike.text?
      elements := fun alike => alike.elements }, alike⟩

namespace Xml.Element.Agree

variable (agree : e.Agree e')

include agree

theorem name : e'.name = e.name := by
  obtain ⟨R, bisimulation, related⟩ := agree
  exact bisimulation.name related

theorem attributes : e'.attributes = e.attributes := by
  obtain ⟨R, bisimulation, related⟩ := agree
  exact bisimulation.attributes related

theorem attribute? : e'.attribute? = e.attribute? := by
  funext name
  rw [Element.attribute?, Element.attribute?, agree.attributes]

theorem text? (read : e.holdsText) : e'.text? = e.text? := by
  obtain ⟨R, bisimulation, related⟩ := agree
  exact bisimulation.text? related read

theorem elements : List.Forall₂ Element.Agree e.elements e'.elements := by
  obtain ⟨R, bisimulation, related⟩ := agree
  exact (bisimulation.elements related).imp fun _ _ related => ⟨R, bisimulation, related⟩

end Xml.Element.Agree

section Agreement

variable (agree : e.Agree e')

include agree

theorem DeviceChoice.read_of_agree {device : DeviceChoice}
    (read : DeviceChoice.read e = .ok device) : DeviceChoice.read e' = .ok device := by
  simp only [DeviceChoice.read, Checked.bind_eq_ok] at read ⊢
  obtain ⟨platform, readPlatform, index, readIndex, built⟩ := read
  have same (name : String) : e'.attribute? name = e.attribute? name := by
    rw [agree.attribute?]
  exact ⟨platform, e.number?_of_attribute? (same _) readPlatform, index,
    e.number?_of_attribute? (same _) readIndex, built⟩

namespace WorkRange

theorem readSizes_of_agree {dimensions : Nat} {sizes : String} (list : isList e)
    (read : readSizes dimensions e = .ok sizes) : readSizes dimensions e' = .ok sizes := by
  rw [readSizes_eq_ok_iff] at read ⊢
  rwa [agree.text? (by simp [Element.holdsText, list])]

omit agree in
theorem readLists_of_agree {es es' : List Element} (agree : List.Forall₂ Element.Agree es es')
    {dimensions : Nat} {globalSizes localSizes : Option String}
    {lists : Option String × Option String}
    (read : readLists dimensions globalSizes localSizes es = .ok lists) :
    readLists dimensions globalSizes localSizes es' = .ok lists := by
  induction agree generalizing globalSizes localSizes with
  | nil => exact read
  | cons head _ ih =>
      rw [readLists] at read ⊢
      rw [head.name]
      split at read
      · rename_i tag
        obtain ⟨sizes, readSizes, read⟩ := Checked.bind_eq_ok.mp read
        have readSizes := readSizes_of_agree head (by simp [isList, tag]) readSizes
        exact Checked.bind_eq_ok.mpr ⟨sizes, readSizes, ih read⟩
      · rename_i tag
        obtain ⟨sizes, readSizes, read⟩ := Checked.bind_eq_ok.mp read
        have readSizes := readSizes_of_agree head (by simp [isList, tag]) readSizes
        exact Checked.bind_eq_ok.mpr ⟨sizes, readSizes, ih read⟩
      · exact ih read

theorem read_of_agree {r : WorkRange} (read : WorkRange.read e = .ok r) :
    WorkRange.read e' = .ok { r with span := e'.span } := by
  have dim : e'.attribute? "dim" = e.attribute? "dim" := by rw [agree.attribute?]
  simp only [WorkRange.read, Checked.bind_eq_ok] at read ⊢
  obtain ⟨dimensions, readDimensions, read⟩ := read
  split at read
  · simp at read
  · rename_i fitting
    simp only [Checked.bind_eq_ok, Checked.pure_eq_ok, Checked.ofOption_eq_ok] at read
    obtain ⟨lists, readLists, globalSizes, found, rfl⟩ := read
    refine ⟨dimensions, e.number?_of_attribute? dim readDimensions, ?_⟩
    rw [if_neg fitting]
    simp only [Checked.bind_eq_ok, Checked.pure_eq_ok, Checked.ofOption_eq_ok]
    exact ⟨lists, readLists_of_agree agree.elements readLists, globalSizes, found, rfl⟩

end WorkRange

theorem Variable.read_of_agree {role : Role} {v : Variable} (tag : Role.ofTag? e.name = some role)
    (read : Variable.read role e = .ok v) :
    Variable.read role e' = .ok { v with span := e'.span } := by
  have attributes := agree.attribute?
  have declared := declaredBy_of_read tag read
  have isRole : v.role = role := Option.some.inj (declared.role.symm.trans tag)
  have elsewhere : { v with span := e'.span }.DeclaredBy e' :=
    { declared with
      role := by rw [agree.name]; exact declared.role
      type := by rw [attributes]; exact declared.type
      members := by rw [attributes]; exact declared.members
      argument := by rw [attributes]; exact declared.argument
      name := by rw [attributes]; exact declared.name
      named := by rw [attributes]; exact declared.named
      unvalidated := by rw [attributes]; exact declared.unvalidated
      tolerance := by rw [attributes]; exact declared.tolerance
      generator := by rw [attributes]; exact declared.generator
      span := rfl }
  have literal : v.literal = e'.text? := by
    rw [(read_eq_ok_iff.mp read).2, agree.text? (by simp [Element.holdsText, tag])]
  rw [← isRole]
  exact read_eq_ok_iff.mpr ⟨readFrom_of_declaredBy elsewhere, literal⟩

end Agreement
end KernelHost
