import KernelHost.Generation
import KernelHost.Proofs.Code.Seeded

/-!
# Contents that are asked for

A variable may ask for its contents, as text or from a generator.  The host program fills the
variable or its reference copy with them, or there is a remark on the variable.  Only for an output
that is left unvalidated neither need be the case: it has no reference copy to fill, and only its
tolerance and a second source of contents are remarked on.
-/

namespace KernelHost

open Code (Stmt gather)

namespace Variable

/-- A variable asks for contents. -/
inductive Asks (v : Variable) : Contents → Prop
  | literal {text : String} (written : v.literal = some text) : v.Asks (.literal text)
  | generator {name : String} (named : v.generator = some name) : v.Asks (.generator name)

/-- Statements fill a variable or its reference copy with contents. -/
def Filled (v : Variable) (c : Contents) (ss : List Stmt) : Prop :=
  (.host v.name, c) ∈ gather Stmt.seeds ss ∨ (.reference v.name, c) ∈ gather Stmt.seeds ss

instance (v : Variable) (c : Contents) (ss : List Stmt) : Decidable (v.Filled c ss) :=
  inferInstanceAs (Decidable (_ ∨ _))

/-- An output is left unvalidated, and there is no other reason for a remark on it. -/
structure Disregarded (v : Variable) : Prop where
  role : v.role = .output
  unvalidated : v.unvalidated
  tolerance : v.tolerance = none
  single : v.literal = none ∨ v.generator = none

variable {v : Variable} {c : Contents}

theorem Asks.ne_outside (asks : v.Asks c) : c ≠ .outside := by
  cases asks <;> simp

/-- A variable with one source of contents has the contents that it asks for. -/
theorem Asks.contents_eq (asks : v.Asks c) (single : v.literal = none ∨ v.generator = none) :
    v.contents = c := by
  rw [contents]
  cases asks with
  | literal written => rw [written]
  | generator named =>
      rw [named] at single ⊢
      rw [single.resolve_right (by simp)]

/-! ## Remarks -/

theorem exists_mem_remarks {e : Xml.Element}
    (reason : v.idleParts e ≠ [] ∨ v.literal.isSome ∧ v.generator.isSome) :
    ∃ r ∈ v.remarks e, r.span = v.span := by
  simp only [remarks, List.mem_map, exists_exists_and_eq_and, and_true]
  rcases reason with idle | ⟨literal, generator⟩
  · obtain ⟨part, mem⟩ := List.exists_mem_of_ne_nil _ idle
    exact ⟨_, List.mem_append_left _ (List.mem_map_of_mem mem)⟩
  · refine ⟨.twoInitializers v.name, List.mem_append_right _ ?_⟩
    simp [literal, generator]

/-- Where a disregarded output is declared, there is nothing to remark on. -/
theorem Disregarded.remarks_eq_nil (idle : v.Disregarded) (e : Xml.Element) :
    v.remarks e = [] := by
  have doubled : (v.literal.isSome && v.generator.isSome) = false := by
    rcases idle.single with none | none <;> simp [none]
  simp [remarks, idleParts, idle.role, idle.tolerance, doubled]

/-- What a variable asks for and does not keep is remarked on, unless it is disregarded. -/
theorem Asks.exists_mem_remarks (asks : v.Asks c) (e : Xml.Element)
    (unkept : ¬ (v.contents = c ∧ (v.role = .input ∨ v.validated))) (heeded : ¬ v.Disregarded) :
    ∃ r ∈ v.remarks e, r.span = v.span := by
  by_cases single : v.literal = none ∨ v.generator = none
  · refine Variable.exists_mem_remarks (.inl ?_)
    have unkept : ¬ (v.role = .input ∨ v.validated) :=
      fun kept => unkept ⟨asks.contents_eq single, kept⟩
    cases role : v.role with
    | input => exact absurd (.inl role) unkept
    | output =>
        have unvalidated : v.unvalidated := by simpa [validated, role] using unkept
        have tolerance : v.tolerance.isSome := by
          by_contra none
          exact heeded ⟨role, unvalidated, by simpa using none, single⟩
        simp [idleParts, role, unvalidated, tolerance]
    | scratch =>
        cases asks with
        | literal written => simp [idleParts, role, written]
        | generator named => simp [idleParts, role, named]
  · refine Variable.exists_mem_remarks (.inr ?_)
    simpa [Option.isSome_iff_ne_none] using single

end Variable

/-- A variable was read from an element, and what there is to say about it is said. -/
def Variable.RemarkedIn (issued : List (At Remark)) (v : Variable) : Prop :=
  ∃ role e, Variable.read role e = .ok v ∧ v.remarks e ⊆ issued

theorem Variable.RemarkedIn.mono {issued more : List (At Remark)} {v : Variable}
    (sub : issued ⊆ more) (remarked : v.RemarkedIn issued) : v.RemarkedIn more := by
  obtain ⟨role, e, read, said⟩ := remarked
  exact ⟨role, e, read, List.Subset.trans said sub⟩

theorem Kernel.remarkedIn_of_readParts {name : String} {ranged : Bool} {es : List Xml.Element}
    {parts : Parts} (read : readParts name ranged es = .ok parts) :
    ∀ v ∈ parts.vars, v.RemarkedIn parts.remarks := by
  induction es generalizing ranged parts with
  | nil =>
      cases read
      simp
  | cons e es ih =>
      rcases cases_of_readParts read with ⟨range, rest, -, -, -, readRest, rfl⟩ |
        ⟨role, v, rest, -, -, readVariable, readRest, rfl⟩ | ⟨rest, -, -, readRest, rfl⟩
      · exact fun v mem => ih readRest v mem
      · refine List.forall_mem_cons.mpr
          ⟨⟨role, e, readVariable, List.subset_append_left _ _⟩, fun w mem => ?_⟩
        exact (ih readRest w mem).mono (List.subset_append_right _ _)
      · exact fun v mem => (ih readRest v mem).mono (List.subset_cons_self _ _)

theorem Kernel.remarkedIn_of_read {e : Xml.Element} {k : Kernel} {remarks : List (At Remark)}
    (read : Kernel.read e = .ok (k, remarks)) : ∀ v ∈ k.vars, v.RemarkedIn remarks := by
  obtain ⟨parts, -, -, readParts, -, vars, rfl, -⟩ := parts_of_read read
  rw [← vars]
  exact remarkedIn_of_readParts readParts

namespace Manifest

theorem remarkedIn_of_readItems {chosen : Bool} {es : List Xml.Element} {items : Items}
    (read : readItems chosen es = .ok items) :
    ∀ k ∈ items.kernels, ∀ v ∈ k.vars, v.RemarkedIn items.remarks := by
  induction es generalizing chosen items with
  | nil =>
      cases read
      simp
  | cons e es ih =>
      rcases cases_of_readItems read with ⟨k, remarks, rest, -, readKernel, readRest, rfl⟩ |
        ⟨device, rest, -, -, readRest, rfl⟩ | ⟨rest, -, -, readRest, rfl⟩
      · refine List.forall_mem_cons.mpr ⟨fun v mem => ?_, fun l l_mem v mem => ?_⟩
        · exact (Kernel.remarkedIn_of_read readKernel v mem).mono (List.subset_append_left _ _)
        · exact (ih readRest l l_mem v mem).mono (List.subset_append_right _ _)
      · exact fun k k_mem v mem =>
          (ih readRest k k_mem v mem).mono (List.subset_append_right _ _)
      · exact fun k k_mem v mem => (ih readRest k k_mem v mem).mono (List.subset_cons_self _ _)

/-- Nothing that there is to say about a variable is lost. -/
theorem remarkedIn_of_read {source : String} {m : Manifest}
    (read : Manifest.read source = .ok m) :
    ∀ k ∈ m.kernels, ∀ v ∈ k.vars, v.RemarkedIn m.remarks := by
  simp only [Manifest.read, ofRoot, check, Checked.bind_eq_ok, Checked.both_eq_ok,
    Checked.pure_eq_ok, Checked.ofProblems_eq_ok] at read
  obtain ⟨root, -, m, ⟨⟨settings, items⟩, ⟨-, readItems⟩, rfl⟩, _, -, rfl⟩ := read
  exact remarkedIn_of_readItems readItems

end Manifest

/-! ## Contents that are kept -/

/-- What holds of some variable of the host with a name holds of the only one. -/
theorem Plan.WellFormed.exists_named_iff {p : Plan} (wellFormed : p.WellFormed) {w : Placed}
    (mem : w ∈ p.hostPlaced) (P : Placed → Prop) :
    (∃ v ∈ p.hostPlaced, w.decl.name = v.decl.name ∧ P v) ↔ P w := by
  constructor
  · rintro ⟨v, v_mem, same, held⟩
    rwa [List.inj_on_of_nodup_map wellFormed.names_nodup mem v_mem same]
  · exact fun held => ⟨w, mem, rfl, held⟩

namespace Host

/-- A program fills the inputs, and the reference copies of the outputs, with what they ask for. -/
theorem filled_iff {p : Plan} (wellFormed : p.WellFormed) {w : Placed} (mem : w ∈ p.hostPlaced)
    {c : Contents} (given : c ≠ .outside) :
    w.decl.Filled c (body p) ↔ w.decl.contents = c ∧ (w.decl.role = .input ∨ w.decl.validated) := by
  have named := wellFormed.exists_named_iff mem
  have fits := wellFormed.fits mem
  have host : (.host w.decl.name, c) ∈ gather Stmt.seeds (body p) ↔ w.layout.initial = c := by
    rw [mem_seeds_body rfl]
    simp [given, named (·.layout.initial = c)]
  have reference : (.reference w.decl.name, c) ∈ gather Stmt.seeds (body p) ↔
      w.layout.reference = some c := by
    rw [mem_seeds_body rfl]
    simp [given, named (·.layout.reference = some c)]
  rw [Variable.Filled, host, reference, fits.initial, fits.reference]
  by_cases input : w.decl.role = .input
  · simp [input, Variable.validated]
  · by_cases validated : w.decl.validated <;> simp [input, validated, given.symm]

end Host

namespace Plan.Arranges

variable {p : Plan} {m : Manifest} (arranged : p.Arranges m)

include arranged

theorem exists_mem_hostPlaced {k : Kernel} (k_mem : k ∈ m.kernels) {v : Variable}
    (mem : v ∈ k.vars) (onHost : v.onHost) : ∃ w ∈ p.hostPlaced, w.decl = v := by
  have all : (k, v) ∈ m.allVariables :=
    List.mem_flatMap.mpr ⟨k, k_mem, List.mem_map_of_mem mem⟩
  have decl : v ∈ p.hostPlaced.map (·.decl) := by
    rw [arranged.hostPlaced_decls]
    exact List.mem_map_of_mem (f := Prod.snd) (List.mem_filter.mpr ⟨all, onHost⟩)
  exact List.mem_map.mp decl

end Plan.Arranges

/-- What a variable asks for is what the program fills it with, or there is a remark on it; what is
disregarded is lost. -/
theorem heeded_of_generate {source : String} {g : Generated}
    (generated : generate source = .ok g) :
    ∃ m p, Manifest.read source = .ok m ∧ Plan.ofManifest m = .ok p ∧
      g.program = (Host.Program.ofPlan p).text ∧
      ∀ k ∈ m.kernels, ∀ v ∈ k.vars, ∀ c, v.Asks c →
        (¬ v.Disregarded → v.Filled c (Host.Program.ofPlan p).body ∨
          ∃ r ∈ g.remarks, r.span = v.span) ∧
        (v.Disregarded → ¬ v.Filled c (Host.Program.ofPlan p).body ∧
          ∃ e, Variable.read .output e = .ok v ∧ v.remarks e = []) := by
  simp only [generate, Checked.bind_eq_ok, Checked.pure_eq_ok] at generated
  obtain ⟨m, read, p, planned, rfl⟩ := generated
  have arranged := Plan.arranges_of_ofManifest planned
  have wellFormed := arranged.wellFormed (Manifest.admitted_of_read read)
  have filled {k : Kernel} (k_mem : k ∈ m.kernels) {v : Variable} (mem : v ∈ k.vars)
      (onHost : v.onHost) {c : Contents} (asks : v.Asks c) :
      v.Filled c (Host.body p) ↔ v.contents = c ∧ (v.role = .input ∨ v.validated) := by
    obtain ⟨w, w_mem, rfl⟩ := arranged.exists_mem_hostPlaced k_mem mem onHost
    exact Host.filled_iff wellFormed w_mem asks.ne_outside
  refine ⟨m, p, read, planned, rfl, fun k k_mem v mem c asks => ⟨fun heeded => ?_, fun idle => ?_⟩⟩
  · by_cases kept : v.contents = c ∧ (v.role = .input ∨ v.validated)
    · have onHost : v.onHost := by
        rcases kept.2 with input | validated
        · simp [Variable.onHost, input]
        · simp_all [Variable.onHost, Variable.validated]
      exact .inl ((filled k_mem mem onHost asks).mpr kept)
    · obtain ⟨role, e, -, said⟩ := Manifest.remarkedIn_of_read read k k_mem v mem
      obtain ⟨r, r_mem, span⟩ := asks.exists_mem_remarks e kept heeded
      exact .inr ⟨r, said r_mem, span⟩
  · have onHost : v.onHost := by simp [Variable.onHost, idle.role]
    refine ⟨fun fills => ?_, ?_⟩
    · obtain ⟨-, input | validated⟩ := (filled k_mem mem onHost asks).mp fills
      · rw [idle.role] at input
        cases input
      · simp [Variable.validated, idle.unvalidated] at validated
    · obtain ⟨role, e, readVariable, -⟩ := Manifest.remarkedIn_of_read read k k_mem v mem
      have output : role = .output :=
        (Variable.readFrom_of_read readVariable).role.symm.trans idle.role
      exact ⟨e, output ▸ readVariable, idle.remarks_eq_nil e⟩

theorem heeded_of_generate_sampleManifest :
    ∃ g, generate Plan.sampleManifest = .ok g ∧
      ∃ m p, Manifest.read Plan.sampleManifest = .ok m ∧ Plan.ofManifest m = .ok p ∧
        g.program = (Host.Program.ofPlan p).text ∧
        ∀ k ∈ m.kernels, ∀ v ∈ k.vars, ∀ c, v.Asks c →
          (¬ v.Disregarded → v.Filled c (Host.Program.ofPlan p).body ∨
            ∃ r ∈ g.remarks, r.span = v.span) ∧
          (v.Disregarded → ¬ v.Filled c (Host.Program.ofPlan p).body ∧
            ∃ e, Variable.read .output e = .ok v ∧ v.remarks e = []) := by
  obtain ⟨m, p, read, planned, -⟩ := Plan.sampleManifest_planned
  have generated : generate Plan.sampleManifest = .ok (m.generated p) := by
    simp [generate, read, planned]
  exact ⟨m.generated p, generated, heeded_of_generate generated⟩

/-- A manifest with an unvalidated output that names a generator. -/
def disregardingManifest : String :=
  "<k program='p'><kernel name='f'>" ++
    "<output name='b' type='int' nmemb='2' arg='0' novalidation='yes' generator='fill'/>" ++
    "<ndrange><global>1</global></ndrange></kernel></k>"

set_option maxRecDepth 100000 in
/-- The manifest is accepted without a remark, and its program does not call the generator. -/
theorem disregarded_of_generate :
    ∃ g m p, generate disregardingManifest = .ok g ∧ Manifest.read disregardingManifest = .ok m ∧
      Plan.ofManifest m = .ok p ∧ g.program = (Host.Program.ofPlan p).text ∧ g.remarks = [] ∧
      ∃ k ∈ m.kernels, ∃ v ∈ k.vars, v.Asks (.generator "fill") ∧
        ¬ v.Filled (.generator "fill") (Host.Program.ofPlan p).body := by
  obtain ⟨m, p, read, planned, holds⟩ := Plan.exists_planned disregardingManifest
    (fun m p => m.remarks.isEmpty && m.kernels.any fun k => k.vars.any fun v =>
      v.generator = some "fill" && !decide (v.Filled (.generator "fill") (Host.body p)))
    (by decide +kernel)
  simp only [Bool.and_eq_true, List.isEmpty_iff, List.any_eq_true, decide_eq_true_eq,
    Bool.not_eq_true', decide_eq_false_iff_not] at holds
  obtain ⟨silent, k, k_mem, v, mem, named, lost⟩ := holds
  exact ⟨m.generated p, m, p, by simp [generate, read, planned], read, planned, rfl, silent,
    k, k_mem, v, mem, .generator named, lost⟩

end KernelHost
