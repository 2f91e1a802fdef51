import KernelHost.Proofs.Inert.Elsewhere
import KernelHost.Proofs.Inert.Remarks
import KernelHost.Proofs.Manifest.Defects

/-!
# Trimming

A document is trimmed by taking out of it what the remarks on it say is passed over: attributes and
texts without effect, a generator beside a text, elements that mean nothing, and choices of a device
before the last one.  Any part of all this may go at once.  What stays may move, and what stands
between the elements inside a kernel or the root may be anything.
-/

namespace KernelHost

open Xml (Element)

variable {issued : List (At Remark)}

/-! ## What may go -/

/-- The attribute that holds a part of a declaration; a text is none. -/
def Idle.attribute? : Idle → Option String
  | .initializer => none
  | part => some part.title

namespace Variable

/-- A remark on a variable says that one of its attributes has no effect, or that its generator
stands beside a text. -/
inductive Dispensable (issued : List (At Remark)) (v : Variable) : String → Prop
  | noEffect {part : Idle} {name : String} (written : part.attribute? = some name)
      (remark : ⟨.noEffect part v.role.tag v.name, v.span⟩ ∈ issued) : Dispensable issued v name
  | generator (text : v.literal.isSome) (remark : ⟨.twoInitializers v.name, v.span⟩ ∈ issued) :
      Dispensable issued v "generator"

/-- A declaration of a variable without some attributes, and maybe without its text. -/
structure Trims (issued : List (At Remark)) (v : Variable) (dropped : List String)
    (e e' : Element) : Prop where
  name : e'.name = e.name
  dispensable : ∀ name ∈ dropped, v.Dispensable issued name
  attributes : e'.attributes =
    e.attributes.filter fun a => !(a.space.isNone && dropped.contains a.base)
  children : Xml.placelessNodes e'.children = Xml.placelessNodes e.children ∨
    ⟨.noEffect .initializer v.role.tag v.name, v.span⟩ ∈ issued ∧
      ∃ text rest, e.children = .text text :: rest ∧
        Xml.placelessNodes e'.children = Xml.placelessNodes rest

end Variable

namespace Kernel

/-- The elements inside a kernel with the written name, trimmed. -/
inductive TrimsParts (issued : List (At Remark)) (written : String) :
    List Element → List Element → Prop
  | nil : TrimsParts issued written [] []
  | keep {e e' : Element} {es es' : List Element} (alike : e.Alike e')
      (rest : TrimsParts issued written es es') : TrimsParts issued written (e :: es) (e' :: es')
  | trim {e e' : Element} {es es' : List Element} {role : Role} {v : Variable}
      {dropped : List String} (tag : Role.ofTag? e.name = some role)
      (read : Variable.read role e = .ok v) (trims : v.Trims issued dropped e e')
      (rest : TrimsParts issued written es es') : TrimsParts issued written (e :: es) (e' :: es')
  | drop {e : Element} {es es' : List Element}
      (remark : ⟨.unknownKernelElement e.name written, e.span⟩ ∈ issued)
      (rest : TrimsParts issued written es es') : TrimsParts issued written (e :: es) es'

/-- A kernel with the elements inside it trimmed. -/
structure Trims (issued : List (At Remark)) (e e' : Element) : Prop where
  name : e'.name = e.name
  attributes : e'.attributes = e.attributes
  parts : TrimsParts issued (writtenName e) e.elements e'.elements

end Kernel

namespace Manifest

/-- The elements inside the root, trimmed. -/
inductive TrimsItems (issued : List (At Remark)) : List Element → List Element → Prop
  | nil : TrimsItems issued [] []
  | keep {e e' : Element} {es es' : List Element} (alike : e.Alike e')
      (rest : TrimsItems issued es es') : TrimsItems issued (e :: es) (e' :: es')
  | trim {e e' : Element} {es es' : List Element} (tag : e.name = "kernel")
      (trims : Kernel.Trims issued e e') (rest : TrimsItems issued es es') :
      TrimsItems issued (e :: es) (e' :: es')
  | drop {e : Element} {es es' : List Element}
      (remark : ⟨.unknownElement e.name, e.span⟩ ∈ issued) (rest : TrimsItems issued es es') :
      TrimsItems issued (e :: es) es'
  | supersede {e : Element} {es es' : List Element} (tag : e.name = "devinfo")
      (later : ∃ child ∈ es, child.name = "devinfo") (rest : TrimsItems issued es es') :
      TrimsItems issued (e :: es) es'

/-- A root with the elements inside it trimmed. -/
structure Trims (issued : List (At Remark)) (root root' : Element) : Prop where
  name : root'.name = root.name
  attributes : root'.attributes = root.attributes
  items : TrimsItems issued root.elements root'.elements

end Manifest

/-! ## What is read of a trimmed variable -/

namespace Variable

variable {v : Variable} {e e' : Element} {dropped : List String}

/-- A variable as it is declared elsewhere, without some attributes and with another text. -/
def redeclared (v : Variable) (dropped : List String) (literal : Option String) (span : Span) :
    Variable :=
  { v with
    literal
    generator := if "generator" ∈ dropped then none else v.generator
    unvalidated := if "novalidation" ∈ dropped then false else v.unvalidated
    tolerance := if "epsilon" ∈ dropped then none else v.tolerance
    span }

theorem Dispensable.cases {name : String} (dispensable : v.Dispensable issued name)
    (warranted : v.Warranted issued) :
    (name = "novalidation" ∧ v.role ≠ .output) ∨ (name = "epsilon" ∧ v.validated = false) ∨
      (name = "generator" ∧ (v.role = .scratch ∨ v.literal.isSome)) := by
  cases dispensable with
  | generator text remark => exact .inr (.inr ⟨rfl, .inr text⟩)
  | @noEffect part _ written remark =>
      have idle := warranted part _ remark
      cases part with
      | novalidation => exact .inl ⟨(Option.some.inj written).symm, idle⟩
      | tolerance => exact .inr (.inl ⟨(Option.some.inj written).symm, idle⟩)
      | generator => exact .inr (.inr ⟨(Option.some.inj written).symm, .inl idle⟩)
      | initializer => cases written

namespace Trims

variable (trims : v.Trims issued dropped e e')

include trims

theorem attribute? (name : String) :
    e'.attribute? name = if name ∈ dropped then none else e.attribute? name := by
  rw [Element.attribute?, Element.attribute?, trims.attributes, List.find?_filter]
  split_ifs with gone
  · rw [Option.map_eq_none_iff, List.find?_eq_none]
    rintro a -
    cases space : a.space <;> by_cases named : a.base = name <;> simp [named, gone]
  · congr 2
    funext a
    cases space : a.space <;> by_cases named : a.base = name <;> simp [named, gone]

variable (warranted : v.Warranted issued)

include warranted

theorem text? (onHost : v.onHost) : e'.text? = e.text? := by
  rcases trims.children with same | ⟨remark, -⟩
  · exact Element.text?_eq_of_children same
  · have scratch : v.role = .scratch := warranted _ _ remark
    simp [Variable.onHost, scratch] at onHost

/-- Nothing else of a declaration may go. -/
theorem attribute?_of_ne {name : String} (noValidation : name ≠ "novalidation")
    (noTolerance : name ≠ "epsilon") (noGenerator : name ≠ "generator") :
    e'.attribute? name = e.attribute? name := by
  rw [trims.attribute?, if_neg]
  intro gone
  rcases (trims.dispensable name gone).cases warranted with ⟨rfl, -⟩ | ⟨rfl, -⟩ | ⟨rfl, -⟩
  · exact noValidation rfl
  · exact noTolerance rfl
  · exact noGenerator rfl

theorem of_generator (gone : "generator" ∈ dropped) : v.role = .scratch ∨ v.literal.isSome := by
  simpa using (trims.dispensable _ gone).cases warranted

theorem of_novalidation (gone : "novalidation" ∈ dropped) : v.role ≠ .output := by
  simpa using (trims.dispensable _ gone).cases warranted

theorem of_epsilon (gone : "epsilon" ∈ dropped) : v.validated = false := by
  simpa using (trims.dispensable _ gone).cases warranted

theorem essence_redeclared (literal : v.literal = e.text?) :
    (v.redeclared dropped e'.text? e'.span).essence = v.essence := by
  refine essence_eq ?_ ?_ ?_ ?_
  · intro onHost
    rw [trims.text? warranted onHost, literal]
  · intro onHost noText
    rw [if_neg]
    intro gone
    rcases trims.of_generator warranted gone with scratch | text
    · simp [Variable.onHost, scratch] at onHost
    · simp [noText] at text
  · intro output
    exact if_neg fun gone => trims.of_novalidation warranted gone output
  · intro validated
    rw [if_neg]
    intro gone
    simp [trims.of_epsilon warranted gone] at validated

theorem declaredBy_redeclared (declared : v.DeclaredBy e) :
    (v.redeclared dropped e'.text? e'.span).DeclaredBy e' where
  role := trims.name ▸ declared.role
  type := by
    rw [trims.attribute?_of_ne warranted (by decide) (by decide) (by decide)]
    exact declared.type
  members := by
    rw [trims.attribute?_of_ne warranted (by decide) (by decide) (by decide)]
    exact declared.members
  one_le_members := declared.one_le_members
  argument := by
    rw [trims.attribute?_of_ne warranted (by decide) (by decide) (by decide)]
    exact declared.argument
  name := by
    rw [trims.attribute?_of_ne warranted (by decide) (by decide) (by decide)]
    exact declared.name
  named := by
    rw [trims.attribute?_of_ne warranted (by decide) (by decide) (by decide)]
    exact declared.named
  isIdentifier_name := declared.isIdentifier_name
  unvalidated := by
    by_cases gone : "novalidation" ∈ dropped
    · simp [trims.attribute?, redeclared, gone]
    · simpa [trims.attribute?, redeclared, gone] using declared.unvalidated
  tolerance := by
    by_cases gone : "epsilon" ∈ dropped
    · simp [trims.attribute?, redeclared, gone]
    · simpa [trims.attribute?, redeclared, gone] using declared.tolerance
  nonNegative_tolerance := by
    by_cases gone : "epsilon" ∈ dropped
    · simp [redeclared, gone]
    · simpa [redeclared, gone] using declared.nonNegative_tolerance
  generator := by
    simp [trims.attribute?, redeclared, declared.generator]
  isIdentifier_generator := by
    by_cases gone : "generator" ∈ dropped
    · simp [redeclared, gone]
    · simpa [redeclared, gone] using declared.isIdentifier_generator
  span := rfl

/-- What a trimmed declaration declares asks for no more than what the whole one does. -/
theorem exists_read {role : Role} (tag : Role.ofTag? e.name = some role)
    (read : Variable.read role e = .ok v) :
    ∃ v', Variable.read role e' = .ok v' ∧ v.ReducesTo v' := by
  have declared := declaredBy_of_read tag read
  have isRole : v.role = role := Option.some.inj (declared.role.symm.trans tag)
  have fields := readFrom_of_declaredBy (trims.declaredBy_redeclared warranted declared)
  refine ⟨v.redeclared dropped e'.text? e'.span, ?_, ?_, fun name asked => ?_⟩
  · rw [← isRole]
    exact read_eq_ok_iff.mpr ⟨fields, rfl⟩
  · exact trims.essence_redeclared warranted (read_eq_ok_iff.mp read).2
  · by_cases gone : "generator" ∈ dropped
    · simp [redeclared, gone] at asked
    · simpa [redeclared, gone] using asked

end Trims

end Variable

end KernelHost
