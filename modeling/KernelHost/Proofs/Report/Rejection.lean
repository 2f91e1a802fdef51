import KernelHost.Proofs.Manifest.FirstPass

/-!
# Rejections

A text is rejected at one of four stages: it is no document, its elements have defects, its names
are confused, or its kernels cannot be planned.  Each stage has something to report when it rejects;
that a report cannot be empty lies in what rejected the text, not in how problems are kept.
-/

namespace KernelHost

open Xml (Element)

/-! ## Plans -/

namespace Variable

/-- A type that looks like one of vectors and is none. -/
def unknownVector? (v : Variable) : Option (At Problem) :=
  if VectorType.ofName? v.type = none ∧ VectorType.isVectorLike v.type then
    some ⟨.unknownVector v.type, v.span⟩
  else none

/-- More elements on the host than 64 bits count. -/
def countOverflow? (copies : Nat) (v : Variable) : Option (At Problem) :=
  if v.onHost ∧ twoTo 64 ≤ v.members * copies then some ⟨.countOverflow v.name, v.span⟩ else none

/-- What keeps a variable from being laid out; an unknown type hides a number that is too large. -/
def misfit? (copies : Nat) (v : Variable) : Option (At Problem) :=
  v.unknownVector? <|> v.countOverflow? copies

end Variable

/-- The kernels without an order, if there are kernels with one. -/
def Manifest.disordered (m : Manifest) : List (At Problem) :=
  match m.kernels.find? (·.order.isSome) with
  | none => []
  | some ordered => Schedule.unordered m.kernels ordered

/-- What keeps a manifest from being planned. -/
def Manifest.misfits (m : Manifest) : List (At Problem) :=
  m.allVariables.filterMap (fun x => x.2.misfit? m.settings.copies) ++ m.disordered

namespace Plan

theorem problems_vectorOf (v : Variable) :
    (Layout.vectorOf v).problems = v.unknownVector?.toList := by
  rw [Layout.vectorOf, Variable.unknownVector?]
  cases VectorType.ofName? v.type with
  | some vector => rfl
  | none =>
      by_cases vectorLike : VectorType.isVectorLike v.type
      · simp [vectorLike, Checked.fail, Checked.problems, Problems.toList]
      · simp [vectorLike, Checked.problems]

theorem problems_countOf (v : Variable) (copies : Nat) :
    (Layout.countOf v copies).problems = (v.countOverflow? copies).toList := by
  rw [Layout.countOf, Variable.countOverflow?, Variable.onHost]
  by_cases fits : v.members * copies < twoTo 64
  · have small : ¬ twoTo 64 ≤ v.members * copies := by omega
    cases v.role <;> simp [fits, small, Checked.problems]
  · have large : twoTo 64 ≤ v.members * copies := by omega
    cases v.role <;> simp [fits, large, Checked.fail, Checked.problems, Problems.toList]

theorem problems_ofVariable (v : Variable) (copies : Nat) :
    (Layout.ofVariable v copies).problems = (v.misfit? copies).toList := by
  have vector := problems_vectorOf v
  have count := problems_countOf v copies
  rw [Layout.ofVariable, Variable.misfit?]
  cases typed : Layout.vectorOf v with
  | error ps =>
      rw [typed] at vector
      cases found : v.unknownVector? with
      | none => simp [found, Checked.problems, ps.toList_ne_nil] at vector
      | some p => exact vector.trans (by rw [found]; rfl)
  | ok _ =>
      rw [typed] at vector
      have none : v.unknownVector? = none := Option.toList_eq_nil_iff.mp vector.symm
      rw [none]
      change _ = (v.countOverflow? copies).toList
      rw [← count]
      cases Layout.countOf v copies <;> rfl

theorem flatMap_zipIdx_fst {α β : Type} (as : List α) (f : α → List β) :
    (as.zipIdx.flatMap fun x => f x.1) = as.flatMap f := by
  rw [← List.flatMap_map, List.zipIdx_map_fst]

theorem problems_placeKernel (copies : Nat) (k : Kernel) (index : Nat) :
    (placeKernel copies k index).problems = k.vars.filterMap (·.misfit? copies) := by
  rw [placeKernel, Checked.problems_map, Checked.problems_each]
  simp only [Checked.problems_map, problems_ofVariable]
  rw [flatMap_zipIdx_fst k.vars fun v => (v.misfit? copies).toList,
    List.filterMap_eq_flatMap_toList]

theorem problems_ofKernels (m : Manifest) :
    (Schedule.ofKernels m.kernels).problems = m.disordered := by
  rw [Schedule.ofKernels, Manifest.disordered]
  cases m.kernels.find? (·.order.isSome) with
  | none => rfl
  | some ordered =>
      dsimp only
      rw [← Checked.problems_ofProblems (Schedule.unordered m.kernels ordered)]
      cases Checked.ofProblems (Schedule.unordered m.kernels ordered) <;> rfl

theorem problems_ofManifest (m : Manifest) : (ofManifest m).problems = m.misfits := by
  have placed : (placeKernels m.settings.copies m.kernels).problems =
      m.allVariables.filterMap fun x => x.2.misfit? m.settings.copies := by
    rw [placeKernels, Checked.problems_each]
    simp only [problems_placeKernel]
    rw [flatMap_zipIdx_fst m.kernels fun k => k.vars.filterMap (·.misfit? m.settings.copies),
      Manifest.allVariables, List.filterMap_flatMap]
    simp only [List.filterMap_map]
    rfl
  have both := Checked.problems_both (placeKernels m.settings.copies m.kernels)
    (Schedule.ofKernels m.kernels)
  rw [placed, problems_ofKernels] at both
  rw [ofManifest, Manifest.misfits, ← both]
  cases Checked.both (placeKernels m.settings.copies m.kernels) (Schedule.ofKernels m.kernels) <;>
    rfl

end Plan

/-! ## The stages -/

/-- Why a text is rejected, with what is reported. -/
inductive Rejection (source : String) : List (At Problem) → Prop
  | document {fault : Xml.Fault} (malformed : Xml.readDocument source = .error fault) :
      Rejection source [⟨.malformed (fault.message source),
        .atPosition source (fault.position source).row (fault.position source).column⟩]
  | elements {root : Element} {ps : List (At Problem)}
      (document : Xml.readDocument source = .ok root) (defective : Defect.ofRoot root ≠ [])
      (reported : List.Forall₂ Defect.ReportedBy (Defect.ofRoot root) ps) : Rejection source ps
  | names {root : Element} {m : Manifest} (document : Xml.readDocument source = .ok root)
      (declared : Manifest.ofRoot root = .ok m) (confused : m.nameProblems ≠ []) :
      Rejection source m.nameProblems
  | plan {m : Manifest} (read : Manifest.read source = .ok m) (unfit : m.misfits ≠ []) :
      Rejection source m.misfits

theorem Rejection.ne_nil {source : String} {ps : List (At Problem)}
    (rejection : Rejection source ps) : ps ≠ [] := by
  cases rejection with
  | document malformed => exact List.cons_ne_nil _ _
  | elements document defective reported =>
      rintro rfl
      exact defective (List.forall₂_nil_right_iff.mp reported)
  | names document declared confused => exact confused
  | plan read unfit => exact unfit

theorem rejection_of_read {source : String} {ps : Problems}
    (rejected : Manifest.read source = .error ps) : Rejection source ps.toList := by
  cases document : Xml.readDocument source with
  | error fault =>
      simp only [Manifest.read, Manifest.rootOf, document] at rejected
      cases rejected
      exact .document document
  | ok root =>
      rw [Manifest.read_of_root document] at rejected
      have reports := Defect.reports_readRoot root
      cases declared : Manifest.ofRoot root with
      | error qs =>
          rw [declared] at rejected reports
          cases rejected
          refine .elements document (fun none => ?_) reports
          rw [none] at reports
          exact ps.toList_ne_nil (List.forall₂_nil_left_iff.mp reports)
      | ok m =>
          rw [declared] at rejected
          have confused := Checked.problems_ofProblems m.nameProblems
          change (do m.check; return m) = _ at rejected
          cases checked : m.check with
          | ok _ => simp [checked, bind, Except.bind, pure, Except.pure] at rejected
          | error qs =>
              rw [checked] at rejected
              cases rejected
              rw [← Manifest.check, checked] at confused
              have confused : ps.toList = m.nameProblems := confused
              rw [confused]
              exact .names document declared (confused ▸ ps.toList_ne_nil)

theorem rejection_of_generate {source : String} {ps : Problems}
    (rejected : generate source = .error ps) : Rejection source ps.toList := by
  rw [generate] at rejected
  cases read : Manifest.read source with
  | error qs =>
      rw [read] at rejected
      cases rejected
      exact rejection_of_read read
  | ok m =>
      rw [read] at rejected
      have unfit := Plan.problems_ofManifest m
      cases planned : Plan.ofManifest m with
      | ok p => simp [bind, Except.bind, planned, pure, Except.pure] at rejected
      | error qs =>
          obtain rfl : qs = ps := by simpa [bind, Except.bind, planned] using rejected
          rw [planned] at unfit
          have unfit : qs.toList = m.misfits := unfit
          rw [unfit]
          exact .plan read (unfit ▸ qs.toList_ne_nil)

/-- A rejected text is rejected with errors, at least one, that say what its stage found; an
accepted one gets warnings only, and the program of the plan of its manifest. -/
theorem diagnostics_of_generate (source : String) :
    match generate source with
    | .error ps =>
      Rejection source ps.toList ∧ diagnostics source = ps.toList.map At.error ∧
        diagnostics source ≠ [] ∧ ∀ d ∈ diagnostics source, d.severity = .error
    | .ok generated =>
      (∀ d ∈ diagnostics source, d.severity = .warning) ∧
        ∃ m p, Manifest.read source = .ok m ∧ Plan.ofManifest m = .ok p ∧
          diagnostics source = m.remarks.map At.warning ∧
          generated.program = (Host.Program.ofPlan p).text := by
  cases outcome : generate source with
  | error ps =>
      have rejection := rejection_of_generate outcome
      have said : diagnostics source = ps.toList.map At.error := by rw [diagnostics, outcome]
      refine ⟨rejection, said, ?_, ?_⟩
      · simpa [said] using rejection.ne_nil
      · intro d mem
        rw [said] at mem
        obtain ⟨p, -, rfl⟩ := List.mem_map.mp mem
        rfl
  | ok generated =>
      have said : diagnostics source = generated.remarks.map At.warning := by
        rw [diagnostics, outcome]
      simp only [generate, Checked.bind_eq_ok, Checked.pure_eq_ok] at outcome
      obtain ⟨m, read, p, planned, rfl⟩ := outcome
      refine ⟨fun d mem => ?_, m, p, read, planned, said, rfl⟩
      rw [said] at mem
      obtain ⟨r, -, rfl⟩ := List.mem_map.mp mem
      rfl

end KernelHost
