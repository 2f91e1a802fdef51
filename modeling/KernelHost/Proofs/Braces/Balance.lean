import KernelHost.Proofs.Braces.Sections
import KernelHost.Proofs.Failure.Checks
import KernelHost.Proofs.Validation.Tolerance

/-!
# Braces of the program

A host program closes every brace that it opens, and nothing that it does not, if the texts that it
takes over from the manifest as they stand have no braces.  Names and numbers have none in any case.
-/

namespace KernelHost

open Code (Each Line Stmt linesText)

/-! ## Names and numbers -/

theorem Braceless.of_isIdentifier {name : String} (identifier : Text.isIdentifier name) :
    Braceless name :=
  .of_isWord (.of_isIdentifier identifier)

namespace Text

theorem ne_brace_of_isDigit {c : Char} (digit : c.isDigit) : c ≠ '\x7b' ∧ c ≠ '\x7d' := by
  constructor <;> rintro rfl <;> simp [Char.isDigit] at digit

theorem ne_brace_of_exponent {cs : List Char} {e : Int} (scale : Exponent cs e) :
    ∀ c ∈ cs, c ≠ '\x7b' ∧ c ≠ '\x7d' := by
  cases scale with
  | plain marked digits | positive marked digits | negative marked digits =>
      have inDigits := fun c mem => ne_brace_of_isDigit (digits.digits c mem)
      rcases marked with rfl | rfl <;> simpa using inDigits

theorem ne_brace_of_unsigned {cs : List Char} {n : Nat} {e : Int} (shape : Unsigned cs n e) :
    ∀ c ∈ cs, c ≠ '\x7b' ∧ c ≠ '\x7d' := by
  cases shape with
  | digits digits => exact fun c mem => ne_brace_of_isDigit (digits.digits c mem)
  | @point whole part tail n e digits scale =>
      have inDigits := fun c mem => ne_brace_of_isDigit (digits.digits c mem)
      obtain ⟨inWhole, inPart⟩ := List.forall_mem_append.mp inDigits
      have inTail : ∀ c ∈ tail, c ≠ '\x7b' ∧ c ≠ '\x7d' := by
        rcases scale with ⟨rfl, -⟩ | scale
        · simp
        · exact ne_brace_of_exponent scale
      simp only [List.forall_mem_append, List.forall_mem_cons]
      exact ⟨⟨inWhole, by decide, inPart⟩, inTail⟩
  | scientific digits scale =>
      have inDigits := fun c mem => ne_brace_of_isDigit (digits.digits c mem)
      exact List.forall_mem_append.mpr ⟨inDigits, ne_brace_of_exponent scale⟩

theorem braceless_of_realNumeral? {s : String} {d : Decimal}
    (read : realNumeral? s = some (.decimal d)) : Braceless s := by
  obtain ⟨rest, sign, shape⟩ := unsigned_of_realNumeral? read
  have behind := ne_brace_of_unsigned shape
  unfold Braceless
  generalize s.toList = cs at sign ⊢
  generalize d.negative = negative at sign
  cases sign with
  | absent => exact behind
  | plus | minus => exact List.forall_mem_cons.mpr ⟨by decide, behind⟩

end Text

/-! ## Manifests -/

namespace Manifest

/-- The texts that go into the program as they stand have no braces. -/
structure FreeTextsBraceless (m : Manifest) : Prop where
  types : ∀ k ∈ m.kernels, ∀ v ∈ k.vars, Braceless v.type
  literals : ∀ k ∈ m.kernels, ∀ v ∈ k.vars, ∀ text ∈ v.literal, Braceless text
  globalSizes : ∀ k ∈ m.kernels, Braceless k.range.globalSizes
  localSizes : ∀ k ∈ m.kernels, ∀ sizes ∈ k.range.localSizes, Braceless sizes
  path : Braceless m.settings.program.path
  hookHeader : Braceless m.settings.hookHeader

instance (m : Manifest) : Decidable m.FreeTextsBraceless :=
  decidable_of_iff
    ((∀ k ∈ m.kernels, Braceless k.range.globalSizes ∧
      (∀ sizes ∈ k.range.localSizes, Braceless sizes) ∧
      ∀ v ∈ k.vars, Braceless v.type ∧ ∀ text ∈ v.literal, Braceless text) ∧
      Braceless m.settings.program.path ∧ Braceless m.settings.hookHeader)
    ⟨fun ⟨kernels, path, hookHeader⟩ =>
      { types := fun k k_mem v mem => ((kernels k k_mem).2.2 v mem).1
        literals := fun k k_mem v mem => ((kernels k k_mem).2.2 v mem).2
        globalSizes := fun k mem => (kernels k mem).1
        localSizes := fun k mem => (kernels k mem).2.1
        path, hookHeader },
      fun free => ⟨fun k mem => ⟨free.globalSizes k mem, free.localSizes k mem,
        fun v v_mem => ⟨free.types k mem v v_mem, free.literals k mem v v_mem⟩⟩,
        free.path, free.hookHeader⟩⟩

variable {source : String} {m : Manifest} (read : Manifest.read source = .ok m)

include read

theorem isIdentifier_kernel_of_read {k : Kernel} (mem : k ∈ m.kernels) :
    Text.isIdentifier k.name := by
  simp only [Manifest.read, Checked.bind_eq_ok, Checked.pure_eq_ok] at read
  obtain ⟨root, -, m, readRoot, _, -, rfl⟩ := read
  exact forall_mem_of_forall₂ (p := fun _ => True) (declaredBy_of_ofRoot readRoot).kernels
    (fun _ _ declared _ => declared.isIdentifier_name) (fun _ _ => trivial) k mem

/-- A manifest that was read has no braces elsewhere. -/
theorem plain_of_read (free : m.FreeTextsBraceless) : m.Plain where
  path := free.path
  hookHeader := free.hookHeader
  kernels := by
    have named := forall_vars_of_read (P := fun v =>
      (v.onHost → Braceless v.name) ∧ (∀ name ∈ v.generator, Braceless name) ∧
        ∀ t ∈ v.tolerance, Braceless t.text) ?_ read
    · intro k k_mem
      refine
        { name := .of_isIdentifier (isIdentifier_kernel_of_read read k_mem)
          globalSizes := free.globalSizes k k_mem
          localSizes := free.localSizes k k_mem
          vars := fun v mem => ?_ }
      obtain ⟨name, generator, tolerance⟩ := named k k_mem v mem
      exact ⟨name, free.types k k_mem v mem, free.literals k k_mem v mem, generator, tolerance⟩
    · intro role e v readVariable
      have fields := Variable.readFrom_of_read readVariable
      refine ⟨fun onHost => ?_, fun name held => ?_, fun t held => ?_⟩
      · exact .of_isIdentifier (Variable.isIdentifier_of_read readVariable onHost).1
      · have generated := fields.generator
        rw [held] at generated
        exact .of_isIdentifier (Variable.isIdentifier_of_readGenerator generated)
      · have readTolerance := fields.tolerance
        rw [held] at readTolerance
        obtain ⟨_, _, -, -, reads, -⟩ := Variable.decimal_of_readTolerance readTolerance
        exact Text.braceless_of_realNumeral? reads

end Manifest

/-! ## The header -/

namespace Host

/-- The text of lines that stand in front of `main`. -/
def flushText (texts : List String) : List Char :=
  linesText (texts.map (⟨0, ·⟩))

theorem flushText_append (texts texts' : List String) :
    flushText (texts ++ texts') = flushText texts ++ flushText texts' := by
  rw [flushText, List.map_append, Code.linesText_append]
  rfl

theorem steady_flushText {texts : List String} (braceless : ∀ s ∈ texts, Braceless s) :
    Steady (flushText texts) := by
  intro n
  induction texts with
  | nil => rfl
  | cons s texts ih =>
      obtain ⟨first, rest⟩ := List.forall_mem_cons.mp braceless
      rw [flushText, List.map_cons, Code.nesting_linesText_cons, first.steady, Option.bind_some]
      exact ih rest

theorem steady_failureMacro {docs : List String} {head message : String}
    (docs_braceless : ∀ s ∈ docs, Braceless s) (head_braceless : Braceless head)
    (message_braceless : Braceless message) :
    Steady (flushText (failureMacro docs head message)) := by
  have remark : Steady (flushText (["/**"] ++ docs ++ [" */"])) := by
    refine steady_flushText ?_
    simp only [List.forall_mem_append]
    exact ⟨⟨by decide, docs_braceless⟩, by decide⟩
  have inner : Steady (flushText ["\trv = EXIT_FAILURE;\\", "\tPRINT_FAIL();\\",
      "\tfprintf(stderr, " ++ message ++ ");\\"]) := by
    refine steady_flushText ?_
    simp +decide [message_braceless]
  have front : Braceless ("#define " ++ head) := by simp +decide [head_braceless]
  have code : Steady (flushText (("#define " ++ head ++ " \x7b\\") ::
      ["\trv = EXIT_FAILURE;\\", "\tPRINT_FAIL();\\",
        "\tfprintf(stderr, " ++ message ++ ");\\"] ++ ["\x7d"])) :=
    fun n => Code.nesting_between (Code.nesting_opening front rfl) inner rfl
  have whole := remark.append code
  rw [← flushText_append] at whole
  simpa [failureMacro] using whole

theorem steady_macros : Steady (flushText macros) := by
  have empty : Steady (flushText [""]) := steady_flushText (by decide)
  have tolerance : Steady (flushText toleranceMacro) := steady_flushText (by decide)
  simp only [macros, flushText_append]
  refine (((((tolerance.append empty).append ?_).append empty).append ?_).append empty).append ?_
  all_goals
    refine steady_failureMacro ?_ (.ofList (by decide)) (.ofList (by decide))
    simp only [List.forall_mem_cons, List.not_mem_nil, false_implies, implies_true, and_true]
    and_intros <;> exact .ofList (by decide)

section Header

variable {p : Plan} (plain : p.Plain)

include plain

theorem braceless_countName {x : HookParam} (mem : x ∈ p.signature.params) :
    Braceless x.countName := by
  simp +decide [HookParam.countName, (plain.params x mem).var]

theorem braceless_prototype {prototype : Prototype} (mem : prototype ∈ prototypes p) :
    Braceless prototype.line := by
  obtain ⟨hook, -, rfl⟩ := List.mem_map.mp mem
  have name : Braceless hook.macroName := by cases hook <;> decide
  have names : ∀ s ∈ p.signature.formalNames hook.perPass, Braceless s := by
    intro s s_mem
    simp only [Signature.formalNames, List.mem_append, List.mem_flatMap, List.mem_cons] at s_mem
    rcases s_mem with ⟨x, x_mem, rfl | s_mem⟩ | s_mem
    · exact (plain.params x x_mem).var
    · split at s_mem
      · obtain rfl := List.mem_singleton.mp s_mem
        exact braceless_countName plain x_mem
      · simp at s_mem
    · split at s_mem <;> simp_all
  have literals : Braceless " *            " ∧ Braceless "(" ∧ Braceless ");" := by decide
  have line : Prototype.line ⟨hook, p.signature.formalNames hook.perPass⟩ =
      s!" *            {hook.macroName}(" ++
        ", ".intercalate (p.signature.formalNames hook.perPass) ++ ");" := rfl
  simpa [line, name, literals] using names

theorem braceless_parameterDocs : ∀ s ∈ parameterDocs p, Braceless s := by
  have described : ∀ d ∈ p.signature.formalDocs, Braceless d.1 ∧ Braceless d.2 := by
    intro d d_mem
    obtain ⟨x, x_mem, d_mem⟩ := List.mem_flatMap.mp d_mem
    have known := plain.params x x_mem
    obtain rfl | d_mem := List.mem_cons.mp d_mem
    · simp +decide [known.var, known.type]
    · split at d_mem
      · obtain rfl := List.mem_singleton.mp d_mem
        have description : Braceless "number of members in variable (unsigned int)" :=
          .ofList (by decide)
        exact ⟨braceless_countName plain x_mem, description⟩
      · simp at d_mem
  have flag : Braceless " *            loopFlag: loop condition variable (bool)." :=
    .ofList (by decide)
  intro s mem
  simp only [parameterDocs, List.mem_append, List.mem_map] at mem
  rcases mem with ⟨d, d_mem, rfl⟩ | mem
  · obtain ⟨name, description⟩ := described d d_mem
    simp +decide [name, description]
  · split at mem <;> simp_all

theorem braceless_hookDocs : ∀ s ∈ hookDocs p, Braceless s := by
  have opening : ∀ s ∈ ["/**", " * @brief Header where the hook macro functions are located.",
      " *        Function headers:"], Braceless s := by
    decide
  have docs : ∀ s ∈ if (parameterDocs p).isEmpty then [] else
      " *        where:" :: parameterDocs p, Braceless s := by
    split
    · simp
    · exact List.forall_mem_cons.mpr ⟨by decide, braceless_parameterDocs plain⟩
  simp only [hookDocs, List.forall_mem_append, List.forall_mem_map]
  exact ⟨⟨⟨opening, fun _ mem => braceless_prototype plain mem⟩, docs⟩, by decide⟩

theorem steady_header : Steady (flushText (header p)) := by
  have target : ∀ s ∈ banner ++ ["", s!"#define CL_TARGET_OPENCL_VERSION {p.settings.api.target}",
      ""], Braceless s := by
    cases p.settings.api <;> decide
  have included : ∀ s ∈ includes.map (fun file => s!"#include <{file}>") ++
      ["", "#include \"common.h\""], Braceless s := by
    decide
  have hooks : ∀ s ∈ if p.settings.hooks.any then
      "" :: hookDocs p ++ ["#include " ++ Code.quoted p.settings.hookHeader] else [],
      Braceless s := by
    split
    · simpa +decide [or_imp, forall_and, plain.hookHeader] using braceless_hookDocs plain
    · simp
  have front : Steady (flushText (banner ++
      ["", s!"#define CL_TARGET_OPENCL_VERSION {p.settings.api.target}", ""] ++
      (includes.map (fun file => s!"#include <{file}>") ++ ["", "#include \"common.h\""]) ++
      (if p.settings.hooks.any then
        "" :: hookDocs p ++ ["#include " ++ Code.quoted p.settings.hookHeader] else []) ++
      [""])) := by
    refine steady_flushText ?_
    rw [List.forall_mem_append, List.forall_mem_append, List.forall_mem_append]
    exact ⟨⟨⟨target, included⟩, hooks⟩, by decide⟩
  have whole := front.append steady_macros
  rw [← flushText_append] at whole
  simpa [header] using whole

end Header

/-! ## The program -/

/-- The sections of `main`, in order. -/
def sections (p : Plan) : List (List Stmt) :=
  [declarations p, hostVariables p, hookCall p .preamble, setup p, run p, verdict p, cleanup p]

theorem flatten_sections (p : Plan) : (sections p).flatten = body p := by
  simp [sections, body]

/-- The braces of a host program are in balance as a whole, in the header, in each section of
`main`, and in each statement; and the last line closes `main`. -/
structure Braced (p : Plan) : Prop where
  whole : Balanced (Program.ofPlan p).text.toList
  /-- The program is the header and the sections of `main` between its braces. -/
  text : (Program.ofPlan p).text.toList =
    flushText (header p) ++ "\nint main(void) \x7b\n".toList ++
      (sections p).flatMap (fun ss => linesText (Stmt.block 1 ss)) ++ "\x7d\n".toList
  header : Balanced (flushText (header p))
  sections : ∀ ss ∈ sections p, Balanced (linesText (Stmt.block 1 ss))
  /-- Whatever a statement opens, it closes. -/
  statements : ∀ s ∈ Stmt.allWithin (body p), ∀ depth, Balanced (linesText (s.lines depth))

theorem toList_intercalate_newline {texts : List String} (filled : texts ≠ []) :
    ("\n".intercalate texts ++ "\n").toList = texts.flatMap (·.toList ++ ['\n']) := by
  induction texts with
  | nil => exact absurd rfl filled
  | cons s texts ih =>
      cases texts with
      | nil => simp
      | cons t texts =>
          rw [String.intercalate_cons_cons, List.flatMap_cons, ← ih (by simp)]
          simp

theorem linesText_block_body (p : Plan) : linesText (Stmt.block 1 (body p)) =
    (sections p).flatMap fun ss => linesText (Stmt.block 1 ss) := by
  have blocks (rows : List (List Stmt)) :
      Stmt.block 1 rows.flatten = rows.flatMap (Stmt.block 1) := by
    induction rows with
    | nil => rfl
    | cons ss rows ih => simp [ih]
  rw [← flatten_sections, blocks, linesText, List.flatMap_assoc]
  rfl

theorem toList_text (p : Plan) : (Program.ofPlan p).text.toList =
    flushText (header p) ++ "\nint main(void) \x7b\n".toList ++
      (sections p).flatMap (fun ss => linesText (Stmt.block 1 ss)) ++ "\x7d\n".toList := by
  have written : (Program.ofPlan p).text.toList = linesText (Program.ofPlan p).lines := by
    rw [Program.text, toList_intercalate_newline (by simp [Program.lines]), List.flatMap_map]
    rfl
  have opening : linesText [⟨0, ""⟩, ⟨0, "int main(void) \x7b"⟩] =
      "\nint main(void) \x7b\n".toList := by
    decide
  have closing : linesText [⟨0, "\x7d"⟩] = "\x7d\n".toList := by decide
  rw [written, Program.lines, Code.linesText_append, Code.linesText_append, Code.linesText_append,
    opening, closing, ← linesText_block_body]
  rfl

theorem braced_of_plain {p : Plan} (plain : p.Plain) : Braced p := by
  have front := steady_header plain
  have tidy := tidy_body plain
  have inner : Steady ((sections p).flatMap fun ss => linesText (Stmt.block 1 ss)) := by
    rw [← linesText_block_body]
    exact Stmt.steady_block 1 _ tidy
  refine
    { whole := Steady.balanced fun n => ?_
      text := toList_text p
      header := front.balanced
      sections := fun ss mem => ?_
      statements := fun s mem depth => ?_ }
  · have opens : nesting n "\nint main(void) \x7b\n".toList = some (n + 1) := rfl
    have closes : nesting (n + 1) "\x7d\n".toList = some n := rfl
    rw [toList_text]
    simp only [nesting_append, front n, opens, inner (n + 1), closes, Option.bind_some]
  · have part : Each Stmt.Tidy ss := by
      rw [← flatten_sections, ← List.flatMap_id, Each.flatMap_iff] at tidy
      exact tidy ss mem
    exact (Stmt.steady_block 1 ss part).balanced
  · have inside (t : Stmt) (t_mem : t ∈ s.within) : t.Tidy :=
      tidy t (Stmt.mem_allWithin_of_mem_within (Stmt.inside_of_mem_allWithin _ mem) t_mem)
    exact (Stmt.steady_lines depth s inside).balanced

end Host

/-- The host program of a manifest without braces in its free texts has balanced braces. -/
theorem braced_of_planned {source : String} {m : Manifest} {p : Plan}
    (read : Manifest.read source = .ok m) (planned : Plan.ofManifest m = .ok p)
    (free : m.FreeTextsBraceless) : Host.Braced p :=
  Host.braced_of_plain
    ((Plan.arranges_of_ofManifest planned).plain (Manifest.plain_of_read read free))

set_option maxRecDepth 100000 in
theorem braced_of_planned_sampleManifest :
    ∃ m p, Manifest.read Plan.sampleManifest = .ok m ∧ Plan.ofManifest m = .ok p ∧
      m.FreeTextsBraceless ∧ Host.Braced p := by
  obtain ⟨m, p, read, planned, free⟩ := Plan.exists_planned Plan.sampleManifest
    (fun m _ => decide m.FreeTextsBraceless) (by decide +kernel)
  have free := of_decide_eq_true free
  exact ⟨m, p, read, planned, free, braced_of_planned read planned free⟩

end KernelHost
