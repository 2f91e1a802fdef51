import KernelHost.Proofs.Code.Called
import KernelHost.Proofs.Code.Literals
import KernelHost.Proofs.Failure.Jumps

/-!
# The file of the program

The C library is given names in two places: where a file is opened, and where a failure is reported.
The storage that `main` allocates is named after the variable that holds it.  All that is left is
one file, which is named four times, each time by a literal that denotes the path of the manifest.
-/

namespace KernelHost

namespace Code

/-- What is given the name of an object of the C library, to open it or to report about it. -/
def Callee.takesName (c : Callee) : Bool :=
  c = .fopen || c = .posixError

/-- A statement that names an object of the C library. -/
def Stmt.naming (s : Stmt) : List Stmt :=
  if s.calls.any (·.takesName) then [s] else []

end Code

namespace Host

open Code (Call Callee Expr Stmt Var gather gather_append gather_cons)

attribute [local simp] Stmt.calls

/-- The statements that name the file of the program: it is opened, and then three things have to
hold. -/
def fileStatements (p : Plan) : List Stmt :=
  let path : Expr := .quoted p.settings.program.path
  [.store (.var .programFile) ⟨.fopen, [path, .plain (openMode p.settings.program)]⟩,
    demand .programFile path,
    demand .programContent path,
    .ensure
      (.givesOne
        ⟨.fread, [.var .programContent, .var .programSize, .number 1, .var .programFile]⟩)
      (.posix path)]

/-- Demands of storage, each of which names the variable that holds it. -/
def demands (vars : List Var) : List Stmt :=
  vars.map fun var => demand var (.plain var.text)

@[simp]
theorem naming_demand (pointer : Var) (object : Expr) :
    (demand pointer object).within.flatMap Stmt.naming = [demand pointer object] := by
  simp [demand, Stmt.naming, Code.Failure.call, Callee.takesName]

@[simp]
theorem naming_checkStatus (callee : Callee) (object : Option String) :
    (checkStatus callee object).within.flatMap Stmt.naming = [] := by
  cases object <;>
    simp [checkStatus, Stmt.naming, Code.Failure.call, Code.Condition.callees, Callee.takesName]

@[simp]
theorem naming_phase (title message : String) (perPass : Bool) (body : List Stmt) :
    gather Stmt.naming (phase title perPass message body) = gather Stmt.naming body := by
  cases perPass <;>
    simp [phase, announce, succeed, gather_cons, Stmt.naming, Callee.takesName]

@[simp]
theorem naming_callForStatus {call : Call} (nameless : call.callee.takesName = false)
    (object : Option String) : gather Stmt.naming (callForStatus call object) = [] := by
  simp [callForStatus, gather_cons, Stmt.naming, nameless]

@[simp]
theorem naming_callForResult (target : Var) {call : Call}
    (nameless : call.callee.takesName = false) (object : Option String) :
    gather Stmt.naming (callForResult target call object) = [] := by
  simp [callForResult, gather_cons, Stmt.naming, nameless]

theorem naming_hookCall (p : Plan) (hook : Hook) : gather Stmt.naming (hookCall p hook) = [] := by
  rw [hookCall]
  split <;> simp [gather_cons, Stmt.naming, Callee.takesName]

/-! ## Sections -/

theorem naming_declarations (p : Plan) : gather Stmt.naming (declarations p) = [] := by
  have range (k : Kernel) : gather Stmt.naming (rangeDeclarations k) = [] := by
    simp [rangeDeclarations, declareValue, gather_cons, Stmt.naming, Code.Initial.callees]
  simp [declarations, setupDeclarations, runDeclarations, declareValue, declareBare, declarePointer,
    declareHandle, gather_cons, Stmt.naming, Code.Initial.callees, range]

theorem naming_declareStorage (v : Placed) (var : Var) (contents : Contents) :
    (declareStorage v var contents).within.flatMap Stmt.naming = [] := by
  unfold declareStorage
  split <;> split_ifs <;>
    simp [declareValue, declareBare, Stmt.naming, Code.Initial.callees, Callee.takesName]

theorem naming_declareVariable (template : Template) (v : Placed) :
    gather Stmt.naming (declareVariable template v) = [] := by
  cases reference : v.layout.reference <;> cases tolerance : v.decl.tolerance <;>
    cases buffer : v.buffer? template <;>
    simp [declareVariable, reference, tolerance, buffer, gather_cons, naming_declareStorage,
      declareHandle, declareValue, Stmt.naming, Code.Initial.callees]

theorem naming_fills (v : Placed) : gather Stmt.naming (fills v) = [] := by
  have naming_fill (var : Var) (contents : Contents) :
      gather Stmt.naming (fill v var contents) = [] := by
    cases contents <;> simp [fill, gather_cons, Stmt.naming, Callee.takesName]
  cases reference : v.layout.reference <;> simp [fills, naming_fill, reference]

theorem naming_demands (vars : List Var) : gather Stmt.naming (demands vars) = demands vars := by
  simp [demands, ← List.map_eq_flatMap]

theorem naming_hostVariables (p : Plan) :
    gather Stmt.naming (hostVariables p) = demands (heap p) := by
  have allocation : gather Stmt.naming (allocationPhase p) = demands (heap p) := by
    rw [allocationPhase]
    split
    · simp_all [demands]
    · exact (naming_phase ..).trans (naming_demands _)
  have filled : gather Stmt.naming (fillPhase p) = [] := by
    rw [fillPhase]
    split <;> simp [naming_fills]
  simp [hostVariables, filled, allocation, gather_cons, naming_declareVariable, Stmt.naming]

theorem naming_setup (p : Plan) :
    gather Stmt.naming (setup p) = demands [.platforms, .devices] ++ fileStatements p := by
  have queue (k : Kernel) : gather Stmt.naming (queuePhase p k) = [] := by
    rw [queuePhase, naming_phase, naming_callForResult]
    cases p.settings.api <;> rfl
  have program : gather Stmt.naming (programPhase p) = [] := by
    rw [programPhase, naming_phase, naming_callForResult]
    cases same : p.settings.program <;> simp [createProgram, same, Callee.takesName]
  simp [setup, platformPhase, devicePhase, contextPhase, queue, openPhase, readPhase, program,
    buildPhase, kernelPhase, bufferPhase, createBuffer, argumentPhase, bindArgument, allocateList,
    demandIndex, gather_cons, Stmt.naming, Callee.takesName, Code.Condition.callees,
    Code.Failure.call, Code.flatMap_nothing, demands, fileStatements]

theorem naming_run (p : Plan) : gather Stmt.naming (run p) = [] := by
  have launch (l : Launch) :
      gather Stmt.naming ((p.kernels[l.kernel]?).elim [] fun k => launch p k.kernel l) = [] := by
    cases p.kernels[l.kernel]? <;> simp [launch, Callee.takesName]
  have pass (perPass : Bool) : gather Stmt.naming (pass p perPass) = [] := by
    simp [pass, uploadPhase, uploads, rebinds, launchPhase, launches, downloadPhase, downloads,
      eventPhase, transfer, bindArgument, readClock, releaseList, gather_cons, Stmt.within,
      Stmt.allWithin, Stmt.naming, Callee.takesName, launch]
  rw [run]
  split
  · exact pass false
  · simp [gather_cons, Code.flatMap_within_repeatWhile, Stmt.naming, pass, naming_hookCall]

theorem naming_verdict (p : Plan) : gather Stmt.naming (verdict p) = [] := by
  have nested (loops : List (Var × Nat)) (body : List Stmt) :
      gather Stmt.naming (nest loops body) = gather Stmt.naming body :=
    gather_nest (fun _ _ _ => rfl) loops body
  simp [verdict, profilingReport, validation, compareOutput, nested, reportMismatch, announce,
    succeed, naming_hookCall, gather_cons, Stmt.within, Stmt.allWithin, Stmt.naming,
    Callee.takesName]

theorem naming_cleanup (p : Plan) : gather Stmt.naming (cleanup p) = [] := by
  simp [cleanup, releaseGroup, releaseList, release, naming_hookCall, gather_cons, Stmt.within,
    Stmt.allWithin, Stmt.naming, Callee.takesName, Code.flatMap_nothing, -List.map_reverse]

/-- What `main` names to the C library, in order: storage by its variables, and the file. -/
theorem naming_body (p : Plan) : gather Stmt.naming (body p) =
    demands (heap p ++ [.platforms, .devices]) ++ fileStatements p := by
  simp [body, naming_declarations, naming_hostVariables, naming_hookCall, naming_setup,
    naming_run, naming_verdict, naming_cleanup, demands]

/-! ## The path -/

/-- The program names its file by literals that denote a path, and names no other file. -/
structure NamesFile (p : Plan) (path : String) : Prop where
  /-- Of all that is named to the C library, only the file is not a variable. -/
  naming : gather Stmt.naming (body p) =
    demands (heap p ++ [.platforms, .devices]) ++ fileStatements p
  /-- Each statement about the file is a line of the program, which quotes the path first. -/
  written : ∀ s ∈ fileStatements p, ∃ line ∈ (Program.ofPlan p).lines, s.lines 1 = [line] ∧
    ∀ text, Code.FirstLiteral line.text text ↔ text = path

theorem mem_body_of_mem_fileStatements {p : Plan} {s : Stmt} (mem : s ∈ fileStatements p) :
    s ∈ body p := by
  have phases : s ∈ openPhase p ∨ s ∈ readPhase p := by
    simp only [fileStatements, List.mem_cons, List.not_mem_nil, or_false] at mem
    rcases mem with rfl | rfl | rfl | rfl <;> simp [openPhase, readPhase, phase]
  have setup : s ∈ setup p := by
    rcases phases with mem | mem <;> simp [setup, mem]
  simp [body, setup]

/-- A report quotes its object behind a condition. -/
theorem lines_ensure_quoted (c : Code.Condition) (path : String) (depth : Nat) :
    (Stmt.ensure c (.posix (.quoted path))).lines depth =
      [⟨depth, "ASSERT_CALL(" ++ c.text ++ ", POSIX_ERROR_STATEMENTS(" ++ Code.quoted path ++
        "));"⟩] := by
  simp [Stmt.lines, Code.Failure.call, Call.text, Callee.text, Expr.text, ← String.toList_inj]

/-- A statement about the file is one line, with the path behind other text. -/
theorem lines_of_mem_fileStatements {p : Plan} {s : Stmt} (mem : s ∈ fileStatements p) :
    ∃ front behind : String, '"' ∉ front.toList ∧
      s.lines 1 = [⟨1, front ++ Code.quoted p.settings.program.path ++ behind⟩] := by
  have ensure (c : Code.Condition) (before : '"' ∉ c.text.toList) :
      ∃ front behind : String, '"' ∉ front.toList ∧
        (Stmt.ensure c (.posix (.quoted p.settings.program.path))).lines 1 =
          [⟨1, front ++ Code.quoted p.settings.program.path ++ behind⟩] :=
    ⟨_, _, by simp [before], lines_ensure_quoted c _ 1⟩
  simp only [fileStatements, List.mem_cons, List.not_mem_nil, or_false] at mem
  rcases mem with rfl | rfl | rfl | rfl
  · refine ⟨"programFile = fopen(", ", " ++ (Expr.plain (openMode p.settings.program)).text ++ ");",
      by simp, ?_⟩
    simp [Stmt.lines, Call.text, Callee.text, Var.text, Expr.text, ← String.toList_inj]
  · exact ensure _ (by decide)
  · exact ensure _ (by decide)
  · exact ensure _ (by decide)

theorem namesFile (p : Plan) : NamesFile p p.settings.program.path where
  naming := naming_body p
  written s mem := by
    obtain ⟨front, behind, before, line⟩ := lines_of_mem_fileStatements mem
    obtain ⟨above, below, block⟩ := Stmt.lines_of_mem (mem_body_of_mem_fileStatements mem) 1
    obtain ⟨head, tail, whole⟩ := lines_ofPlan p
    exact ⟨_, by simp [whole, block, line], line, Code.firstLiteral_quoted before _ behind⟩

/-- A quoted text is one literal that denotes it, so no two texts are quoted alike; and a generated
program opens its file, and reports about it, by literals that denote the path of the manifest. -/
theorem denotes_and_namesFile :
    (∀ text, Code.Denotes (Code.quoted text).toList text.toList) ∧
      Function.Injective Code.quoted ∧
      ∀ source g, generate source = .ok g → ∃ m p, Manifest.read source = .ok m ∧
        Plan.ofManifest m = .ok p ∧ g.program = (Program.ofPlan p).text ∧
        NamesFile p m.settings.program.path := by
  refine ⟨Code.denotes_quoted, Code.quoted_injective, fun source g generated => ?_⟩
  obtain ⟨m, p, read, planned, rfl⟩ := Plan.generate_eq_ok.mp generated
  have names := namesFile p
  rw [(Plan.arranges_of_ofManifest planned).settings] at names
  exact ⟨m, p, read, planned, rfl, names⟩

/-- A manifest whose path has all characters that are escaped, and a backslash at its end. -/
def awkwardManifest : String :=
  "<k source='a\\&quot;&#10;b\\'/>"

set_option maxRecDepth 100000 in
theorem denotes_and_namesFile_awkwardManifest :
    ∃ g m p, generate awkwardManifest = .ok g ∧ Manifest.read awkwardManifest = .ok m ∧
      Plan.ofManifest m = .ok p ∧ g.program = (Program.ofPlan p).text ∧
      NamesFile p "a\\\"\nb\\" := by
  obtain ⟨m, p, read, planned, path⟩ := Plan.exists_planned awkwardManifest
    (fun m _ => m.settings.program.path == "a\\\"\nb\\") (by decide +kernel)
  have generated := Plan.generate_eq_ok.mpr ⟨m, p, read, planned, rfl⟩
  obtain ⟨m', p', read', planned', written, names⟩ := denotes_and_namesFile.2.2 _ _ generated
  obtain rfl : m = m' := Except.ok.inj (read.symm.trans read')
  rw [beq_iff_eq.mp path] at names
  exact ⟨_, m, p', generated, read, planned', written, names⟩

end Host
end KernelHost
