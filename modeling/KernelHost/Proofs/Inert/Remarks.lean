import KernelHost.Proofs.Manifest.Reading
import KernelHost.Proofs.Manifest.Naming

/-!
# What remarks warrant

A remark on a manifest is issued where something is passed over.  It names the element or variable
in question, and what it says holds of whatever has that name: tags that are unknown mean nothing
anywhere, and of two variables with one name and one role only scratch memory can be meant, for
which no other part has an effect either.
-/

namespace KernelHost

/-- A part of a declaration has no effect on the host program. -/
def Idle.Of (v : Variable) : Idle → Prop
  | .novalidation => v.role ≠ .output
  | .tolerance _ => v.validated = false
  | .generator | .initializer => v.role = .scratch

namespace Remark

/-- What a remark on elements that declare the given variables is issued for. -/
def IssuedFor (vars : List Variable) : Remark → Prop
  | .unknownElement tag => tag ≠ "kernel" ∧ tag ≠ "devinfo"
  | .unknownKernelElement tag _ => tag ≠ "ndrange" ∧ Role.ofTag? tag = none
  | .noEffect part tag name => ∃ v ∈ vars, v.role.tag = tag ∧ v.name = name ∧ part.Of v
  | .repeatedDevice | .twoInitializers _ => True

theorem IssuedFor.mono {vars more : List Variable} (sub : vars ⊆ more) {r : Remark}
    (issued : r.IssuedFor vars) : r.IssuedFor more := by
  cases r with
  | noEffect part tag name =>
      obtain ⟨v, mem, of⟩ := issued
      exact ⟨v, sub mem, of⟩
  | _ => exact issued

end Remark

/-! ## Where remarks are issued -/

theorem Variable.of_mem_idleParts {v : Variable} {e : Xml.Element} {part : Idle}
    (mem : part ∈ v.idleParts e) : part.Of v := by
  rcases List.mem_append.mp mem with ofOutputs | ofHost
  · split at ofOutputs
    · rename_i noOutput
      have other : v.role ≠ .output := by simpa using noOutput
      rcases List.mem_append.mp ofOutputs with novalidation | tolerance
      · split at novalidation <;> simp_all [Idle.Of]
      · split at tolerance <;> simp_all [Idle.Of, validated]
    · split at ofOutputs <;> simp_all [Idle.Of, validated]
  · split at ofHost
    · rename_i isScratch
      have scratch : v.role = .scratch := by simpa using isScratch
      rcases List.mem_append.mp ofHost with generator | initializer
      · split at generator <;> simp_all [Idle.Of]
      · split at initializer <;> simp_all [Idle.Of]
    · cases ofHost

theorem Variable.issuedFor_of_mem_remarks {v : Variable} {e : Xml.Element} {r : At Remark}
    (mem : r ∈ v.remarks e) : r.what.IssuedFor [v] := by
  obtain ⟨what, said, rfl⟩ := List.mem_map.mp mem
  rcases List.mem_append.mp said with idle | doubled
  · obtain ⟨part, part_mem, rfl⟩ := List.mem_map.mp idle
    exact ⟨v, List.mem_singleton_self v, rfl, rfl, of_mem_idleParts part_mem⟩
  · split at doubled
    · obtain rfl := List.mem_singleton.mp doubled
      trivial
    · cases doubled

theorem Kernel.issuedFor_of_readParts {name : String} {ranged : Bool} {es : List Xml.Element}
    {parts : Parts} (read : readParts name ranged es = .ok parts) :
    ∀ r ∈ parts.remarks, r.what.IssuedFor parts.vars := by
  induction es generalizing ranged parts with
  | nil =>
      cases read
      simp
  | cons e es ih =>
      rcases cases_of_readParts read with ⟨range, rest, -, -, -, readRest, rfl⟩ |
        ⟨role, v, rest, -, -, -, readRest, rfl⟩ | ⟨rest, noRange, noRole, readRest, rfl⟩
      · intro r mem
        exact ih readRest r mem
      · refine List.forall_mem_append.mpr ⟨fun r mem => ?_, fun r mem => ?_⟩
        · exact (Variable.issuedFor_of_mem_remarks mem).mono (by simp)
        · exact (ih readRest r mem).mono (List.subset_cons_self v rest.vars)
      · exact List.forall_mem_cons.mpr ⟨⟨noRange, noRole⟩, ih readRest⟩

theorem Kernel.issuedFor_of_read {e : Xml.Element} {k : Kernel} {remarks : List (At Remark)}
    (read : Kernel.read e = .ok (k, remarks)) : ∀ r ∈ remarks, r.what.IssuedFor k.vars := by
  obtain ⟨parts, -, -, readParts, -, vars, same, -⟩ := parts_of_read read
  rw [← vars, ← same]
  exact issuedFor_of_readParts readParts

namespace Manifest

theorem issuedFor_of_readItems {chosen : Bool} {es : List Xml.Element} {items : Items}
    (read : readItems chosen es = .ok items) :
    ∀ r ∈ items.remarks, r.what.IssuedFor (items.kernels.flatMap (·.vars)) := by
  induction es generalizing chosen items with
  | nil =>
      cases read
      simp
  | cons e es ih =>
      rcases cases_of_readItems read with ⟨k, remarks, rest, -, readKernel, readRest, rfl⟩ |
        ⟨device, rest, -, -, readRest, rfl⟩ | ⟨rest, noKernel, noDevice, readRest, rfl⟩
      · refine List.forall_mem_append.mpr ⟨fun r mem => ?_, fun r mem => ?_⟩
        · exact (Kernel.issuedFor_of_read readKernel r mem).mono (by simp)
        · exact (ih readRest r mem).mono (by simp)
      · refine List.forall_mem_append.mpr ⟨fun r mem => ?_, ih readRest⟩
        split at mem
        · obtain rfl := List.mem_singleton.mp mem
          trivial
        · cases mem
      · exact List.forall_mem_cons.mpr ⟨⟨noKernel, noDevice⟩, ih readRest⟩

theorem issuedFor_of_ofRoot {root : Xml.Element} {m : Manifest} (read : ofRoot root = .ok m) :
    ∀ r ∈ m.remarks, r.what.IssuedFor (m.kernels.flatMap (·.vars)) := by
  simp only [ofRoot, Checked.bind_eq_ok, Checked.both_eq_ok, Checked.pure_eq_ok] at read
  obtain ⟨⟨settings, items⟩, ⟨-, readItems⟩, rfl⟩ := read
  exact issuedFor_of_readItems readItems

end Manifest

/-! ## What they warrant -/

theorem Role.tag_injective : Function.Injective tag := by
  intro role role' same
  rw [← Option.some_inj, ← ofTag?_tag role, same, ofTag?_tag]

/-- What has no effect on a variable has none on those of the same role, outputs apart. -/
theorem Idle.Of.of_role {v w : Variable} {part : Idle} (idle : part.Of v)
    (same : v.role = w.role) (noOutput : w.role ≠ .output) : part.Of w := by
  cases part with
  | novalidation => exact noOutput
  | tolerance => simp [Idle.Of, Variable.validated, noOutput]
  | generator => exact same.symm.trans idle
  | initializer => exact same.symm.trans idle

/-- What remarks say of the name of a variable is true of the variable. -/
def Variable.Warranted (issued : List (At Remark)) (v : Variable) : Prop :=
  ∀ part span, ⟨.noEffect part v.role.tag v.name, span⟩ ∈ issued → part.Of v

/-- Outputs are told apart by their names, and of all else only the role counts. -/
theorem Manifest.warranted {m : Manifest} {issued : List (At Remark)}
    (names : (m.hostVariables.map (·.2.name)).Nodup)
    (issuedFor : ∀ r ∈ issued, r.what.IssuedFor (m.kernels.flatMap (·.vars))) :
    ∀ k ∈ m.kernels, ∀ v ∈ k.vars, v.Warranted issued := by
  intro k k_mem v v_mem part span remark
  obtain ⟨w, w_mem, role, name, idle⟩ := issuedFor _ remark
  have role := Role.tag_injective role
  by_cases output : v.role = .output
  · obtain ⟨l, l_mem, w_mem⟩ := List.mem_flatMap.mp w_mem
    have onHost {k : Kernel} {v : Variable} (k_mem : k ∈ m.kernels) (v_mem : v ∈ k.vars)
        (output : v.role = .output) : (k, v) ∈ m.hostVariables := by
      refine List.mem_filter.mpr ⟨List.mem_flatMap.mpr ⟨k, k_mem, List.mem_map_of_mem v_mem⟩, ?_⟩
      simp [Variable.onHost, output]
    have same : (l, w) = (k, v) := List.inj_on_of_nodup_map names
      (onHost l_mem w_mem (role.trans output)) (onHost k_mem v_mem output) name
    obtain ⟨-, rfl⟩ := Prod.mk.inj same
    exact idle
  · exact idle.of_role role output

end KernelHost
