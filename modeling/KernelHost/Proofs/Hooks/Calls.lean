import KernelHost.Proofs.Code.Called
import KernelHost.Proofs.Hooks.Handed

/-!
# Prototypes and calls of hooks

The header shows one prototype of each hook that is switched on and `main` calls it once; of the
other hooks there is neither.  Prototype and call are lists of the same length that follow one
table, so what a hook is handed in a place is what its prototype says of that place.
-/

namespace KernelHost.Host

open Code (Callee Stmt gather)

/-! ## Calls -/

/-- Whether a statement calls a function or a macro of a name. -/
def invokes (name : String) (s : Stmt) : Bool :=
  s.calls.any (·.text == name)

/-- A statement that calls a function or a macro of a name. -/
def invoking (name : String) (s : Stmt) : List Stmt :=
  if invokes name s then [s] else []

theorem macroName_inj {hook hook' : Hook} (same : hook.macroName = hook'.macroName) :
    hook = hook' := by
  cases hook <;> cases hook' <;> simp_all [Hook.macroName]

/-- What has the name of a hook is the hook, or a generator of that name. -/
theorem callee_of_macroName {c : Callee} {hook : Hook} (named : c.text = hook.macroName) :
    c = .hook hook ∨ c = .generator hook.macroName := by
  cases c with
  | hook other => exact .inl (congrArg _ (macroName_inj named))
  | generator name => exact .inr (congrArg _ named)
  | _ => cases hook <;> simp only [Callee.text, Hook.macroName, String.reduceEq] at named

theorem isOutside_of_invokes {hook : Hook} {s : Stmt} (called : invokes hook.macroName s) :
    s.calls.any (·.isOutside) := by
  obtain ⟨c, mem, named⟩ := List.any_eq_true.mp called
  refine List.any_eq_true.mpr ⟨c, mem, ?_⟩
  obtain rfl | rfl := callee_of_macroName (beq_iff_eq.mp named) <;> rfl

theorem invoking_eq_filter (hook : Hook) (ss : List Stmt) :
    gather (invoking hook.macroName) ss =
      (gather Stmt.outside ss).filter (invokes hook.macroName) := by
  rw [gather, gather, List.filter_flatMap]
  refine List.flatMap_congr fun s _ => ?_
  by_cases called : invokes hook.macroName s
  · simp [invoking, Stmt.outside, called, isOutside_of_invokes called]
  · rw [invoking, Stmt.outside, if_neg called]
    split <;> simp [called]

theorem filter_hookCalls (p : Plan) (hook other : Hook) :
    (hookCalls p other).filter (invokes hook.macroName) =
      if other = hook then hookCalls p hook else [] := by
  by_cases same : other = hook
  · subst same
    rw [if_pos rfl, hookCalls]
    split <;> simp [invokes, Stmt.calls, Callee.text]
  · have apart : other.macroName ≠ hook.macroName := fun named => same (macroName_inj named)
    rw [if_neg same, hookCalls]
    split <;> simp [invokes, Stmt.calls, Callee.text, apart]

section Planned

variable {source : String} {m : Manifest} {p : Plan} (read : Manifest.read source = .ok m)
  (planned : Plan.ofManifest m = .ok p)

include read planned

/-- No generator has the name of a hook. -/
theorem filter_fills (hook : Hook) :
    (p.hostPlaced.flatMap fills).filter (invokes hook.macroName) = [] := by
  have admitted := Manifest.admitted_of_read read
  have arranged := Plan.arranges_of_ofManifest planned
  have reserved : hook.macroName ∈ reservedNames := by
    cases hook <;> simp [Hook.macroName, reservedNames]
  rw [List.filter_eq_nil_iff]
  intro s mem called
  obtain ⟨v, v_mem, filled⟩ := List.mem_flatMap.mp mem
  have fits := (arranged.wellFormed admitted).fits v_mem
  obtain ⟨name, args, given, rfl⟩ := exists_of_mem_fills fits filled
  obtain rfl : name = hook.macroName := by simpa [invokes, Stmt.calls, Callee.text] using called
  have decl_mem : v.decl ∈ m.hostVariables.map (·.2) := by
    rw [← arranged.hostPlaced_decls]
    exact List.mem_map_of_mem v_mem
  obtain ⟨x, x_mem, same⟩ := List.mem_map.mp decl_mem
  have free := nameClash?_eq_none_of_gives admitted ⟨x, x_mem, .inr (same ▸ given)⟩
  exact (nameClash?_eq_none_iff.mp free).2.2.1 reserved

/-- `main` calls each hook that is switched on once. -/
theorem invoking_body (hook : Hook) :
    gather (invoking hook.macroName) (body p) = hookCalls p hook := by
  have single (perPass : hook.perPass) (once : p.template ≠ .loop) : hookCalls p hook = [] := by
    rw [hookCalls, if_neg fun enabled => once (template_of_perPass enabled perPass)]
  rw [invoking_eq_filter, outside_body]
  simp only [List.filter_append, filter_fills read planned, filter_hookCalls, apply_ite
    (List.filter _), List.filter_nil]
  cases hook <;> simp_all [Hook.perPass]

end Planned

/-! ## Prototypes -/

/-- Whether a line of the header shows a prototype of a hook. -/
def shows (hook : Hook) (line : String) : Bool :=
  (" *            " ++ hook.macroName ++ "(").toList.isPrefixOf line.toList

/-- A name is not taken for a longer one, nor the text behind it for a part of one. -/
theorem not_prefix_append {as bs rest : List Char} {c d : Char} (apart : c ≠ d) (free : d ∉ as)
    (plain : c ∉ bs) : ¬ (as ++ [c]) <+: bs ++ d :: rest := by
  induction as generalizing bs with
  | nil =>
      cases bs with
      | nil => simpa [List.cons_prefix_cons] using apart
      | cons b bs =>
          intro starts
          obtain ⟨rfl, -⟩ := List.cons_prefix_cons.mp starts
          exact plain List.mem_cons_self
  | cons a as ih =>
      intro starts
      cases bs with
      | nil =>
          obtain ⟨rfl, -⟩ := List.cons_prefix_cons.mp starts
          exact free List.mem_cons_self
      | cons b bs =>
          obtain ⟨-, starts⟩ := List.cons_prefix_cons.mp starts
          exact ih (fun mem => free (List.mem_cons_of_mem _ mem))
            (fun mem => plain (List.mem_cons_of_mem _ mem)) starts

/-- A text begins with a name and a bracket if that is the name in front of its first bracket. -/
theorem prefix_append_iff {as bs rest : List Char} {c : Char} (free : c ∉ as) (plain : c ∉ bs) :
    as ++ [c] <+: bs ++ c :: rest ↔ as = bs := by
  induction as generalizing bs with
  | nil =>
      cases bs with
      | nil => simp
      | cons b bs =>
          simp only [List.mem_cons, not_or] at plain
          simp [List.cons_prefix_cons, plain.1]
  | cons a as ih =>
      simp only [List.mem_cons, not_or] at free
      cases bs with
      | nil => simp [List.cons_prefix_cons, Ne.symm free.1]
      | cons b bs =>
          simp only [List.mem_cons, not_or] at plain
          simp [List.cons_prefix_cons, ih free.2 plain.2]

theorem shows_margin (hook : Hook) (rest : String) :
    shows hook (" *            " ++ rest) ↔
      hook.macroName.toList ++ ['('] <+: rest.toList := by
  rw [shows, List.isPrefixOf_iff_prefix]
  simp only [String.toList_append, List.append_assoc, List.prefix_append_right_inj]
  rfl

theorem macroName_plain (hook : Hook) :
    '(' ∉ hook.macroName.toList ∧ ':' ∉ hook.macroName.toList := by
  cases hook <;> decide

theorem shows_line (hook other : Hook) (names : List String) :
    shows hook (Prototype.line ⟨other, names⟩) ↔ other = hook := by
  have line : Prototype.line ⟨other, names⟩ =
      " *            " ++ other.macroName ++ "(" ++ ", ".intercalate names ++ ");" := rfl
  rw [line, String.append_assoc, String.append_assoc, String.append_assoc, shows_margin]
  simp only [String.toList_append]
  have begins : hook.macroName.toList ++ ['('] <+:
        other.macroName.toList ++ '(' :: ((", ".intercalate names).toList ++ ");".toList) ↔
      hook.macroName.toList = other.macroName.toList :=
    prefix_append_iff (macroName_plain hook).1 (macroName_plain other).1
  refine begins.trans ⟨fun same => ?_, fun same => by rw [same]⟩
  exact (macroName_inj (String.toList_inj.mp same)).symm

theorem shows_documentation (hook : Hook) {name : String} (word : IsWord name) (rest : String) :
    shows hook (" *            " ++ (name ++ ":" ++ rest)) = false := by
  rw [Bool.eq_false_iff]
  intro shown
  rw [shows_margin, String.toList_append, String.toList_append, List.append_assoc] at shown
  exact not_prefix_append (by decide) (macroName_plain hook).2 (word.not_mem (by decide)) shown

/-- A line that does not begin with the margin of prototypes shows none. -/
theorem shows_of_spelled (hook : Hook) {line : String} {cs : List Char}
    (spelled : String.ofList cs = line)
    (other : (' ' :: '*' :: List.replicate 12 ' ').isPrefixOf cs = false) :
    shows hook line = false := by
  rw [Bool.eq_false_iff, shows, ne_eq, List.isPrefixOf_iff_prefix, ← spelled, String.toList_ofList]
  intro shown
  rw [String.toList_append, String.toList_append, List.append_assoc] at shown
  have margin := List.isPrefixOf_iff_prefix.mpr ((List.prefix_append ..).trans shown)
  exact Bool.false_ne_true (other.symm.trans margin)

/-- A line that begins with another text than the margin shows none either. -/
theorem shows_append (hook : Hook) {head rest : String} {cs : List Char}
    (spelled : String.ofList cs = head)
    (other : ∀ rest, (' ' :: '*' :: List.replicate 12 ' ').isPrefixOf (cs ++ rest) = false) :
    shows hook (head ++ rest) = false := by
  have spelled : String.ofList (cs ++ rest.toList) = head ++ rest := by
    rw [← spelled, String.ofList_append, String.ofList_toList]
  exact shows_of_spelled hook spelled (other _)

/-- The lines of the header that hold whatever the plan is show no prototype. -/
theorem filter_shows_fixed (hook : Hook) :
    banner.filter (shows hook) = [] ∧
      (includes.map fun file => s!"#include <{file}>").filter (shows hook) = [] ∧
      macros.filter (shows hook) = [] := by
  simp only [List.filter_eq_nil_iff, Bool.not_eq_true, banner, includes, macros, toleranceMacro,
    failureMacro, List.map_cons, List.map_nil, List.cons_append, List.nil_append,
    List.forall_mem_cons, toString, String.append_assoc]
  and_intros
  all_goals first
    | exact shows_of_spelled hook rfl rfl
    | exact shows_append hook rfl fun _ => rfl
    | simp

theorem filter_active (hooks : Hooks) (hook : Hook) :
    hooks.active.filter (· = hook) = if hooks.enabled hook then [hook] else [] := by
  have all : Hook.all.filter (· = hook) = [hook] := by
    cases hook <;> rfl
  rw [Hooks.active, List.filter_comm, all]
  by_cases enabled : hooks.enabled hook <;> simp [enabled]

/-- The prototype of a hook, if it is switched on. -/
def prototypeOf (p : Plan) (hook : Hook) : List String :=
  if p.settings.hooks.enabled hook then
    [Prototype.line ⟨hook, p.signature.formalNames hook.perPass⟩]
  else []

theorem filter_prototypes (p : Plan) (hook : Hook) :
    ((prototypes p).map Prototype.line).filter (shows hook) = prototypeOf p hook := by
  have shown (other : Hook) (names : List String) :
      shows hook (Prototype.line ⟨other, names⟩) = decide (other = hook) := by
    rw [Bool.eq_iff_iff, shows_line, decide_eq_true_iff]
  simp only [prototypes, List.map_map, List.filter_map, Function.comp_def, shown, filter_active,
    prototypeOf]
  split <;> rfl

section Documented

variable {source : String} {m : Manifest} {p : Plan} (read : Manifest.read source = .ok m)
  (planned : Plan.ofManifest m = .ok p)

include read planned

/-- The documentation of parameters shows no prototype. -/
theorem filter_parameterDocs (hook : Hook) : (parameterDocs p).filter (shows hook) = [] := by
  have arranged := Plan.arranges_of_ofManifest planned
  have line (name description : String) :
      s!" *            {name}: {description};" =
        " *            " ++ (name ++ ":" ++ (" " ++ description ++ ";")) := by
    have split : ": " = ":" ++ " " := rfl
    simp only [toString, split, String.append_assoc]
  have words : ∀ d ∈ p.signature.formalDocs, IsWord d.1 := by
    intro d mem
    have named : d.1 ∈ p.signature.handed.map (·.1) := by
      rw [← Signature.formalDocs_names]
      exact List.mem_map_of_mem mem
    obtain ⟨x, x_mem, same⟩ := List.mem_map.mp named
    rw [Signature.handed_eq arranged] at x_mem
    exact same ▸ (Manifest.word_of_mem_handed read x_mem).1
  have loopFlag : shows hook " *            loopFlag: loop condition variable (bool)." = false := by
    have word : IsWord "loopFlag" := .of_isIdentifier (by decide)
    have shown := shows_documentation hook word " loop condition variable (bool)."
    simpa only [String.reduceAppend] using shown
  rw [parameterDocs, List.filter_append, List.append_eq_nil_iff]
  refine ⟨?_, ?_⟩
  · simp only [List.filter_eq_nil_iff, List.forall_mem_map, line, Bool.not_eq_true]
    exact fun d mem => shows_documentation hook (words d mem) _
  · split <;> simp [loopFlag]

theorem filter_hookDocs (hook : Hook) :
    (hookDocs p).filter (shows hook) = prototypeOf p hook := by
  have opening : ["/**", " * @brief Header where the hook macro functions are located.",
      " *        Function headers:"].filter (shows hook) = [] := by
    simp only [List.filter_eq_nil_iff, Bool.not_eq_true, List.forall_mem_cons]
    exact ⟨shows_of_spelled hook rfl rfl, shows_of_spelled hook rfl rfl,
      shows_of_spelled hook rfl rfl, by simp⟩
  have where_ : shows hook " *        where:" = false := shows_of_spelled hook rfl rfl
  have closing : shows hook " */" = false := shows_of_spelled hook rfl rfl
  have docs := filter_parameterDocs read planned hook
  have parameters : (if (parameterDocs p).isEmpty then [] else
      " *        where:" :: parameterDocs p).filter (shows hook) = [] := by
    split
    · rfl
    · rw [List.filter_cons_of_neg (by simp [where_]), docs]
  simp only [hookDocs, List.filter_append, opening, parameters, filter_prototypes]
  simp [closing]

/-- The header shows one prototype of each hook that is switched on, and no others. -/
theorem filter_header (hook : Hook) : (header p).filter (shows hook) = prototypeOf p hook := by
  have spelled : String.ofList [] = "" := rfl
  have empty : shows hook "" = false := shows_of_spelled hook spelled rfl
  have version : ["", s!"#define CL_TARGET_OPENCL_VERSION {p.settings.api.target}", ""].filter
      (shows hook) = [] := by
    simp only [List.filter_eq_nil_iff, Bool.not_eq_true, List.forall_mem_cons]
    exact ⟨empty, shows_append hook rfl fun _ => rfl, empty, by simp⟩
  have common : shows hook "#include \"common.h\"" = false := shows_of_spelled hook rfl rfl
  have own : shows hook ("#include " ++ Code.quoted p.settings.hookHeader) = false :=
    shows_append hook rfl fun _ => rfl
  have documented : (if p.settings.hooks.any then
      "" :: hookDocs p ++ ["#include " ++ Code.quoted p.settings.hookHeader] else []).filter
        (shows hook) = prototypeOf p hook := by
    split
    · simp [filter_hookDocs read planned hook, empty, own]
    · rename_i off
      have off : p.settings.hooks.enabled hook = false := by
        simpa [Hooks.any] using fun on => off (List.any_eq_true.mpr ⟨hook, hook.mem_all, on⟩)
      simp [off, prototypeOf]
  obtain ⟨banner, includes, macros⟩ := filter_shows_fixed hook
  simp only [header, List.filter_append, banner, includes, macros, version, documented]
  simp [empty, common]

end Documented

/-! ## Both together -/

/-- A hook has a prototype with a list of names and is called on a list of arguments, if it is
switched on, and the lists are those of the table. -/
structure Introduced (p : Plan) (m : Manifest) (hook : Hook) (names args : String) : Prop where
  prototype : (header p).filter (shows hook) =
    if p.settings.hooks.enabled hook then
      [" *            " ++ hook.macroName ++ "(" ++ names ++ ");"]
    else []
  /-- What the names stand for is said behind the prototypes. -/
  documented : p.settings.hooks.enabled hook →
    ∀ d ∈ p.signature.formalDocs, s!" *            {d.1}: {d.2};" ∈ header p
  call : (gather (invoking hook.macroName) (body p)).flatMap (Stmt.lines 0) =
    if p.settings.hooks.enabled hook then [⟨0, hook.macroName ++ "(" ++ args ++ ");"⟩] else []
  names_eq : argumentsIn names = (m.handed hook).map (·.1)
  args_eq : argumentsIn args = (m.handed hook).map (·.2)
  length_eq : (argumentsIn names).length = (argumentsIn args).length
  loopFlag : LoopFlagLast hook (argumentsIn names) ∧ LoopFlagLast hook (argumentsIn args)
  docs : p.signature.formalDocs.map (·.1) = (argumentsIn names).filter (· ≠ "loopFlag")

/-- The documentation of hooks is part of the header if a hook is switched on. -/
theorem mem_header_of_mem_hookDocs {p : Plan} {hook : Hook}
    (enabled : p.settings.hooks.enabled hook) {line : String} (mem : line ∈ hookDocs p) :
    line ∈ header p := by
  have any : p.settings.hooks.any := List.any_eq_true.mpr ⟨hook, hook.mem_all, enabled⟩
  simp only [header, any, if_true, List.mem_append]
  exact .inl (.inl (.inr (.inl (List.mem_cons_of_mem _ mem))))

theorem mem_header_of_mem_prototypes {p : Plan} {prototype : Prototype}
    (mem : prototype ∈ prototypes p) : prototype.line ∈ header p := by
  have line : prototype.line ∈ hookDocs p := by
    simp only [hookDocs, List.mem_append]
    exact .inl (.inl (.inr (List.mem_map_of_mem mem)))
  obtain ⟨hook, active, rfl⟩ := List.mem_map.mp mem
  exact mem_header_of_mem_hookDocs ((Hooks.mem_active _ hook).mp active) line

/-- What the names in prototypes stand for is said behind them. -/
theorem mem_header_of_mem_formalDocs {p : Plan} {hook : Hook}
    (enabled : p.settings.hooks.enabled hook) {d : String × String}
    (mem : d ∈ p.signature.formalDocs) : s!" *            {d.1}: {d.2};" ∈ header p := by
  have docs : s!" *            {d.1}: {d.2};" ∈ parameterDocs p :=
    List.mem_append_left _ (List.mem_map.mpr ⟨d, mem, rfl⟩)
  have some : (parameterDocs p).isEmpty = false := by
    simpa using List.ne_nil_of_mem docs
  refine mem_header_of_mem_hookDocs enabled ?_
  simp only [hookDocs, some, List.mem_append]
  exact .inl (.inr (List.mem_cons_of_mem _ docs))

/-- Every hook is introduced with what it is called on. -/
theorem exists_introduced {source : String} {m : Manifest} {p : Plan}
    (read : Manifest.read source = .ok m) (planned : Plan.ofManifest m = .ok p) (hook : Hook) :
    ∃ names args, Introduced p m hook names args := by
  have arranged := Plan.arranges_of_ofManifest planned
  obtain ⟨names_eq, args_eq⟩ := Manifest.argumentsIn_handed read hook
  obtain ⟨loopFlag, named⟩ := Manifest.column_handed read hook
  refine ⟨_, _,
    { prototype := ?_
      documented := fun enabled d mem => mem_header_of_mem_formalDocs enabled mem
      call := ?_
      names_eq, args_eq
      length_eq := by rw [names_eq, args_eq, List.length_map, List.length_map]
      loopFlag := by rwa [names_eq, args_eq]
      docs := ?_ }⟩
  · rw [filter_header read planned, prototypeOf, Signature.formalNames_eq arranged]
    rfl
  · rw [invoking_body read planned, hookCalls]
    split
    · simp only [List.flatMap_cons, List.flatMap_nil, Stmt.lines, Code.Call.text,
        Signature.text_arguments arranged, List.append_nil, String.append_assoc,
        String.reduceAppend]
      rfl
    · rfl
  · rw [names_eq, named, Signature.formalDocs_names, Signature.handed_eq arranged]

theorem exists_introduced_sampleManifest :
    ∃ m p, Manifest.read Plan.sampleManifest = .ok m ∧ Plan.ofManifest m = .ok p ∧
      p.settings.hooks.enabled .loopPreamble ∧
      ∃ names args, Introduced p m .loopPreamble names args := by
  obtain ⟨m, p, read, planned, -, enabled⟩ := Plan.sampleManifest_planned_loop
  exact ⟨m, p, read, planned, enabled, exists_introduced read planned .loopPreamble⟩

end KernelHost.Host
