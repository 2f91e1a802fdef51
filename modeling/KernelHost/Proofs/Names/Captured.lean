import KernelHost.Proofs.Names.Distinct
import KernelHost.Proofs.Scope.WellScoped

/-!
# Names that the program invokes

The identifiers that `main` calls as functions or expands as macros, generators apart, and which of
them a manifest may give to variables and generators.  The names of the C library, of macros and of
the constants of the runtime are refused.  The entry points of the runtime are not, since the checks
look for an underscore behind `cl`; nor are the origins of `fseek`.
-/

namespace KernelHost

open Code (Callee Expr Failure Stmt gather)

/-! ## What is invoked -/

/-- The macros that an expression is written with. -/
def Code.Expr.macros : Expr → List Callee
  | .cast _ e | .address e | .not e | .paren e | .field e _ => e.macros
  | .index left right | .lane left right | .binary _ left right => left.macros ++ right.macros
  | .outside expected actual tolerance =>
    .testEpsilon :: (expected.macros ++ actual.macros ++ tolerance.macros)
  | _ => []

/-- What the macro that reports a failure is made of, variables and its arguments apart. -/
def Code.Failure.expansion : Failure → List String
  | .function _ _ | .lookup _ _ _ => ["EXIT_FAILURE", "PRINT_FAIL", "fprintf", "stderr"]
  | .posix _ => ["EXIT_FAILURE", "PRINT_FAIL", "fprintf", "stderr", "strerror", "errno"]

/-- Whether a function comes from the manifest. -/
def Code.Callee.isGenerator : Callee → Bool
  | .generator _ => true
  | _ => false

/-- What a statement calls by itself, and the macros that it is written with. -/
def Code.Stmt.callees (s : Stmt) : List Callee :=
  (s.calls ++ s.operands.flatMap Expr.macros).filter (!·.isGenerator)

/-- What the failure macros of a statement are made of. -/
def Code.Stmt.expansion : Stmt → List String
  | .ensure _ failure => failure.expansion
  | _ => []

/-- The identifiers that a statement calls as functions or expands as macros by itself. -/
def Code.Stmt.invoked (s : Stmt) : List String :=
  s.callees.map Callee.text ++ s.constants ++ s.expansion

/-! ## What the checks refuse -/

/-- The entry points of the runtime that the program calls. -/
def runtimeCalls : List Callee :=
  [.clGetPlatformIDs, .clGetDeviceIDs, .clCreateContext, .clCreateCommandQueue,
    .clCreateCommandQueueWithProperties, .clCreateProgramWithBinary, .clCreateProgramWithSource,
    .clBuildProgram, .clCreateKernel, .clCreateBuffer, .clSetKernelArg, .clEnqueueWriteBuffer,
    .clEnqueueNDRangeKernel, .clFinish, .clEnqueueReadBuffer, .clReleaseEvent,
    .clReleaseMemObject, .clReleaseKernel, .clReleaseProgram, .clReleaseCommandQueue,
    .clReleaseContext]

/-- The invoked identifiers that the checks let a manifest give away. -/
def unguardedNames : List String :=
  runtimeCalls.map Callee.text ++ ["SEEK_END", "SEEK_SET"]

/-- A name is refused whatever the names of kernels and variables are. -/
def IsRefused (name : String) : Prop :=
  Text.isKeyword name ∨ isRuntimeName name ∨ name ∈ reservedNames

instance (name : String) : Decidable (IsRefused name) :=
  inferInstanceAs (Decidable (_ ∨ _))

theorem IsRefused.clash {name : String} (refused : IsRefused name) (holders : List Holder) :
    nameClash? holders name ≠ none := by
  intro free
  obtain ⟨keyword, runtime, reserved, -⟩ := nameClash?_eq_none_iff.mp free
  rcases refused with refused | refused | refused
  · exact keyword refused
  · exact runtime refused
  · exact reserved refused

theorem isRefused_callee {c : Callee} (own : c.isGenerator = false) :
    IsRefused c.text ∨ c.text ∈ unguardedNames := by
  by_cases entry : c ∈ runtimeCalls
  · exact .inr (List.mem_append_left _ (List.mem_map_of_mem entry))
  · refine .inl (.inr (.inr ?_))
    cases c with
    | hook h => cases h <;> simp [reservedNames, Callee.text, Hook.macroName]
    | generator name => simp [Callee.isGenerator] at own
    | _ => simp_all [runtimeCalls, reservedNames, Callee.text]

theorem isRefused_constant {name : String} (mem : name ∈ Host.constantNames)
    (identifier : Text.isIdentifier name) : IsRefused name ∨ name ∈ unguardedNames := by
  revert name
  decide

/-- The checks refuse none of the unguarded names. -/
theorem nameClash?_eq_none_of_unguarded {name : String} (mem : name ∈ unguardedNames)
    (holders : List Holder) : nameClash? holders name = none := by
  have free : ∀ name ∈ unguardedNames, ¬ IsRefused name ∧ ¬ isTierList name ∧
      ¬ LooksDerived name := by
    decide
  obtain ⟨refused, list, derived⟩ := free name mem
  simp only [IsRefused, not_or] at refused
  refine nameClash?_eq_none_iff.mpr ⟨refused.1, refused.2.1, refused.2.2, list, ?_⟩
  rintro h - rfl
  exact derived h.looksDerived

/-! ## What a manifest can give away -/

namespace Host

/-- A manifest gives a name to a variable of the host or to its generator. -/
def Gives (m : Manifest) (name : String) : Prop :=
  ∃ x ∈ m.hostVariables, x.2.name = name ∨ x.2.generator = some name

theorem nameClash?_eq_none_of_gives {m : Manifest} (admitted : m.Admitted) {name : String}
    (gives : Gives m name) : nameClash? m.holders name = none := by
  have none := admitted.nameProblems_eq_nil
  simp only [Manifest.nameProblems, List.append_eq_nil_iff, Manifest.takenVariables_eq_nil_iff,
    Manifest.takenGenerators_eq_nil_iff, Manifest.generatorClash?_eq_none_iff] at none
  obtain ⟨⟨-, named, -⟩, generators⟩ := none
  obtain ⟨x, mem, rfl | given⟩ := gives
  · exact named x mem
  · exact (generators x mem name (by simp [given])).1

theorem isIdentifier_of_gives {source : String} {m : Manifest}
    (read : Manifest.read source = .ok m) {name : String} (gives : Gives m name) :
    Text.isIdentifier name := by
  obtain ⟨x, mem, rfl | given⟩ := gives
  · exact (Manifest.isIdentifier_of_read read mem).1
  · exact (Manifest.isIdentifier_of_read read mem).2 name (by simp [given])

theorem isRefused_expansion (s : Stmt) : ∀ name ∈ s.expansion, IsRefused name := by
  have reserved : ∀ name ∈ ["EXIT_FAILURE", "PRINT_FAIL", "fprintf", "stderr", "strerror",
      "errno"], name ∈ reservedNames := by
    simp [reservedNames]
  intro name mem
  refine .inr (.inr (reserved name ?_))
  cases s with
  | ensure condition failure =>
      cases failure <;> simp_all [Stmt.expansion, Failure.expansion] <;> tauto
  | _ => simp [Stmt.expansion] at mem

/-- What the program invokes is refused as a name or unguarded. -/
theorem isRefused_of_invoked {p : Plan} {m : Manifest} (wellFormed : p.WellFormed)
    (arranged : p.Arranges m) {name : String} (invoked : name ∈ gather Stmt.invoked (body p))
    (identifier : Text.isIdentifier name) : IsRefused name ∨ name ∈ unguardedNames := by
  obtain ⟨s, s_mem, mem⟩ := List.mem_flatMap.mp invoked
  simp only [Stmt.invoked, List.mem_append, List.mem_map] at mem
  obtain (⟨c, c_mem, rfl⟩ | constant) | expanded := mem
  · have own := (List.mem_filter.mp c_mem).2
    exact isRefused_callee (by simpa using own)
  · obtain ⟨e, e_mem, named⟩ := List.mem_flatMap.mp constant
    have sound := sound_body wellFormed arranged s s_mem
    exact isRefused_constant ((sound.handed e e_mem).2 name named) identifier
  · exact .inl (isRefused_expansion s name expanded)

end Host

/-- Of the identifiers that a generated program invokes, the checks let pass the unguarded ones and
no others, so a manifest gives away nothing else that its program invokes. -/
theorem unguarded_of_generate {source : String} {g : Generated}
    (generated : generate source = .ok g) :
    ∃ m p, Manifest.read source = .ok m ∧ Plan.ofManifest m = .ok p ∧
      g.program = (Host.Program.ofPlan p).text ∧
      ∀ name ∈ gather Stmt.invoked (Host.Program.ofPlan p).body,
        (Text.isIdentifier name → (nameClash? m.holders name = none ↔ name ∈ unguardedNames)) ∧
          (Host.Gives m name → name ∈ unguardedNames) := by
  simp only [generate, Checked.bind_eq_ok, Checked.pure_eq_ok] at generated
  obtain ⟨m, read, p, planned, rfl⟩ := generated
  have admitted := Manifest.admitted_of_read read
  have arranged := Plan.arranges_of_ofManifest planned
  refine ⟨m, p, read, planned, rfl, fun name invoked => ?_⟩
  have unguarded (identifier : Text.isIdentifier name)
      (free : nameClash? m.holders name = none) : name ∈ unguardedNames :=
    (Host.isRefused_of_invoked (arranged.wellFormed admitted) arranged invoked
      identifier).resolve_left fun refused => refused.clash m.holders free
  exact ⟨fun identifier => ⟨unguarded identifier, fun mem =>
      nameClash?_eq_none_of_unguarded mem m.holders⟩,
    fun gives => unguarded (Host.isIdentifier_of_gives read gives)
      (Host.nameClash?_eq_none_of_gives admitted gives)⟩

theorem unguarded_of_generate_sampleManifest :
    ∃ g, generate Plan.sampleManifest = .ok g ∧
      ∃ m p, Manifest.read Plan.sampleManifest = .ok m ∧ Plan.ofManifest m = .ok p ∧
        g.program = (Host.Program.ofPlan p).text ∧
        ∀ name ∈ gather Stmt.invoked (Host.Program.ofPlan p).body,
          (Text.isIdentifier name → (nameClash? m.holders name = none ↔ name ∈ unguardedNames)) ∧
            (Host.Gives m name → name ∈ unguardedNames) := by
  obtain ⟨m, p, read, planned, -⟩ := Plan.sampleManifest_planned
  have generated : generate Plan.sampleManifest = .ok (m.generated p) := by
    simp [generate, read, planned]
  exact ⟨m.generated p, generated, unguarded_of_generate generated⟩

/-- A manifest with an input that has the name of a function of the runtime. -/
def capturingManifest : String :=
  "<k program='p'><kernel name='f'><input name='clFinish' type='int' nmemb='1' arg='0'/>" ++
    "<ndrange><global>1</global></ndrange></kernel></k>"

set_option maxRecDepth 100000 in
theorem capturingManifest_planned :
    ∃ m p, Manifest.read capturingManifest = .ok m ∧ Plan.ofManifest m = .ok p ∧
      (m.hostVariables.map (·.2.name)).contains "clFinish" ∧
      (gather Stmt.invoked (Host.body p)).contains "clFinish" := by
  obtain ⟨m, p, read, planned, captured⟩ := Plan.exists_planned capturingManifest
    (fun m p => (m.hostVariables.map (·.2.name)).contains "clFinish" &&
      (gather Stmt.invoked (Host.body p)).contains "clFinish") (by decide +kernel)
  exact ⟨m, p, read, planned, Bool.and_eq_true_iff.mp captured⟩

/-- The manifest is accepted, and its program calls the function that the input is named after. -/
theorem captured_of_generate :
    ∃ g m p, generate capturingManifest = .ok g ∧ Manifest.read capturingManifest = .ok m ∧
      Plan.ofManifest m = .ok p ∧ g.program = (Host.Program.ofPlan p).text ∧
      Host.Gives m "clFinish" ∧
      "clFinish" ∈ gather Stmt.invoked (Host.Program.ofPlan p).body := by
  obtain ⟨m, p, read, planned, named, called⟩ := capturingManifest_planned
  obtain ⟨x, mem, name⟩ := List.mem_map.mp (List.contains_iff_mem.mp named)
  exact ⟨m.generated p, m, p, by simp [generate, read, planned], read, planned, rfl,
    ⟨x, mem, .inl name⟩, List.contains_iff_mem.mp called⟩

end KernelHost
