import KernelHost.Proofs.Braces.Nesting
import KernelHost.Proofs.Code.Called
import KernelHost.Proofs.Plan.Arguments
import KernelHost.Proofs.Plan.Checks
import KernelHost.Proofs.Validation.Message

/-!
# Texts without braces

What a manifest gives as text and as names finds its way into the plan and from there into
expressions.  None of these has a brace if the texts and names of the manifest have none.
-/

namespace KernelHost

open Code (Call Callee Expr Var)

/-! ## Expressions -/

namespace Code

@[simp]
theorem braceless_toString {s : String} : Braceless (toString s) ↔ Braceless s :=
  .rfl

theorem braceless_escape (s : String) :
    (∀ c ∈ escape s.toList, c ≠ '\x7b' ∧ c ≠ '\x7d') ↔ Braceless s := by
  have escaped (c : Char) : (∀ d ∈ escapeChar c, d ≠ '\x7b' ∧ d ≠ '\x7d') ↔
      c ≠ '\x7b' ∧ c ≠ '\x7d' := by
    unfold escapeChar
    split <;> simp
  unfold Braceless
  induction s.toList with
  | nil => simp
  | cons c cs ih =>
      simp only [escape_cons, List.forall_mem_append, List.forall_mem_cons, ih, escaped]

@[simp]
theorem braceless_quoted {s : String} : Braceless (quoted s) ↔ Braceless s := by
  rw [← braceless_escape s]
  simp [Braceless, quoted, or_imp, forall_and]

/-- The names of variables that belong to no part of the manifest. -/
@[simp]
theorem braceless_fixed :
    Braceless Var.exitCode.text ∧ Braceless Var.i.text ∧ Braceless Var.j.text ∧
      Braceless Var.callStatus.text ∧ Braceless Var.platformsLen.text ∧
      Braceless Var.devicesLen.text ∧ Braceless Var.platforms.text ∧ Braceless Var.devices.text ∧
      Braceless Var.context.text ∧ Braceless Var.programFile.text ∧
      Braceless Var.programSize.text ∧ Braceless Var.programContent.text ∧
      Braceless Var.programStatus.text ∧ Braceless Var.program.text ∧
      Braceless Var.loopFlag.text ∧ Braceless Var.invalidDataFound.text ∧
      Braceless Var.iterations.text ∧ Braceless Var.timeBefore.text ∧
      Braceless Var.timeAfter.text ∧ Braceless Var.execTime.text := by
  decide

/-- The names of variables that stand for a part of the manifest. -/
@[simp]
theorem braceless_derived :
    (∀ n, Braceless (Var.tierDone n).text) ∧
      (∀ s, Braceless (Var.queue s).text ↔ Braceless s) ∧
      (∀ s, Braceless (Var.kernel s).text ↔ Braceless s) ∧
      (∀ s, Braceless (Var.workDim s).text ↔ Braceless s) ∧
      (∀ s, Braceless (Var.globalSize s).text ↔ Braceless s) ∧
      (∀ s, Braceless (Var.localSize s).text ↔ Braceless s) ∧
      (∀ s, Braceless (Var.host s).text ↔ Braceless s) ∧
      (∀ s, Braceless (Var.reference s).text ↔ Braceless s) ∧
      (∀ s, Braceless (Var.tolerance s).text ↔ Braceless s) ∧
      ∀ s, Braceless (Var.buffer s).text ↔ Braceless s := by
  simp +decide [Var.text]

/-- Nothing that is called has braces in its name, but for generators. -/
@[simp]
theorem braceless_callee {c : Callee} (generator : ∀ name, c ≠ .generator name) :
    Braceless c.text := by
  cases c with
  | generator name => exact absurd rfl (generator name)
  | hook h => cases h <;> decide
  | _ => decide

@[simp]
theorem braceless_generator {name : String} :
    Braceless (Callee.generator name).text ↔ Braceless name :=
  .rfl

@[simp]
theorem braceless_sign {op : Operator} : Braceless op.sign := by
  cases op <;> decide

@[simp]
theorem braceless_formatText {pieces : List Piece} :
    Braceless (formatText pieces) ↔ ∀ piece ∈ pieces, Braceless piece.render := by
  rw [formatText]
  induction pieces with
  | nil => simp +decide
  | cons piece pieces ih => simp_all

@[simp]
theorem braceless_piece :
    (∀ s, Braceless (Piece.text s).render ↔ Braceless s) ∧
      ∀ s, Braceless (Piece.conversion s).render ↔ Braceless s := by
  simp +decide [Piece.render]

@[simp]
theorem braceless_expr :
    (∀ v, Braceless (Expr.var v).text ↔ Braceless v.text) ∧
      (∀ s, Braceless (Expr.constant s).text ↔ Braceless s) ∧
      (∀ n, Braceless (Expr.number n).text) ∧
      (∀ n, Braceless (Expr.unsigned n).text) ∧
      (∀ pieces, Braceless (Expr.literal pieces).text ↔ Braceless (formatText pieces)) ∧
      (∀ s, Braceless (Expr.plain s).text ↔ Braceless s) ∧
      (∀ s, Braceless (Expr.quoted s).text ↔ Braceless s) ∧
      (∀ s, Braceless (Expr.verbatim s).text ↔ Braceless s) ∧
      (∀ s, Braceless (Expr.sizeOf s).text ↔ Braceless s) ∧
      (∀ s e, Braceless (Expr.cast s e).text ↔ Braceless s ∧ Braceless e.text) ∧
      (∀ e, Braceless (Expr.address e).text ↔ Braceless e.text) ∧
      (∀ e, Braceless (Expr.not e).text ↔ Braceless e.text) ∧
      (∀ e, Braceless (Expr.paren e).text ↔ Braceless e.text) ∧
      (∀ e f, Braceless (Expr.index e f).text ↔ Braceless e.text ∧ Braceless f.text) ∧
      (∀ e f, Braceless (Expr.lane e f).text ↔ Braceless e.text ∧ Braceless f.text) ∧
      (∀ e s, Braceless (Expr.field e s).text ↔ Braceless e.text ∧ Braceless s) ∧
      (∀ op e f, Braceless (Expr.binary op e f).text ↔ Braceless e.text ∧ Braceless f.text) ∧
      (∀ e f g, Braceless (Expr.outside e f g).text ↔
        Braceless e.text ∧ Braceless f.text ∧ Braceless g.text) ∧
      Braceless Expr.null.text ∧
      ∀ n s, Braceless (Expr.bytesOf n s).text ↔ Braceless s := by
  simp +decide [Expr.text, Expr.plain, Expr.bytesOf, and_assoc]

@[simp]
theorem braceless_call {call : Call} :
    Braceless call.text ↔ Braceless call.callee.text ∧ ∀ e ∈ call.args, Braceless e.text := by
  rw [Call.text]
  simp +decide

end Code

/-! ## Manifests -/

/-- The texts that a manifest gives for a variable have no braces. -/
structure Variable.Plain (v : Variable) : Prop where
  name : v.onHost → Braceless v.name
  type : Braceless v.type
  literal : ∀ text ∈ v.literal, Braceless text
  generator : ∀ name ∈ v.generator, Braceless name
  tolerance : ∀ t ∈ v.tolerance, Braceless t.text

/-- The texts that a manifest gives for a kernel have no braces. -/
structure Kernel.Plain (k : Kernel) : Prop where
  name : Braceless k.name
  globalSizes : Braceless k.range.globalSizes
  localSizes : ∀ sizes ∈ k.range.localSizes, Braceless sizes
  vars : ∀ v ∈ k.vars, v.Plain

/-- The texts of a manifest have no braces. -/
structure Manifest.Plain (m : Manifest) : Prop where
  path : Braceless m.settings.program.path
  hookHeader : Braceless m.settings.hookHeader
  kernels : ∀ k ∈ m.kernels, k.Plain

theorem Kernel.Plain.ident {k : Kernel} (plain : k.Plain) : Braceless k.ident := by
  have upper (c d : Char) (brace : d = '\x7b' ∨ d = '\x7d') (apart : c ≠ d) :
      c.toUpper ≠ d := by
    unfold Char.toUpper
    split
    · intro same
      have := congrArg Char.val same
      rcases brace with rfl | rfl <;> grind
    · exact apart
  have name := plain.name
  unfold Braceless at name ⊢
  rw [Kernel.ident, Text.capitalized]
  split
  · simp
  · rename_i c cs chars
    rw [chars, List.forall_mem_cons] at name
    rw [String.toList_ofList, List.forall_mem_cons]
    exact ⟨⟨upper c _ (.inl rfl) name.1.1, upper c _ (.inr rfl) name.1.2⟩, name.2⟩

/-- The text that contents come from has no braces. -/
def Contents.Plain : Contents → Prop
  | .literal text => Braceless text
  | .generator name => Braceless name
  | .outside => True

theorem Variable.Plain.contents {v : Variable} (plain : v.Plain) : v.contents.Plain := by
  unfold Variable.contents
  split
  · rename_i text _ given
    exact plain.literal _ given
  · rename_i name _ given
    exact plain.generator _ given
  · trivial

theorem braceless_conversion (type : String) : Braceless (CType.conversion type) :=
  (by decide : ∀ name ∈ Validation.valueConversions, Braceless name) _
    (Validation.conversion_mem type)

/-! ## Plans -/

/-- The texts of a variable in its place have no braces. -/
structure Placed.Plain (w : Placed) : Prop where
  decl : w.decl.Plain
  kernel : w.kernel.Plain
  initial : w.layout.initial.Plain
  reference : ∀ contents ∈ w.layout.reference, contents.Plain
  format : Braceless w.layout.format

/-- The texts that an argument is bound with have no braces. -/
structure Argument.Plain (a : Argument) : Prop where
  label : Braceless a.label
  size : Braceless a.binding.size.text
  address : Braceless a.binding.address.text

/-- The texts that hooks are handed a variable with have no braces. -/
structure HookParam.Plain (x : HookParam) : Prop where
  var : Braceless x.var.text
  type : Braceless x.type

/-- The texts that a buffer is made from have no braces. -/
structure Buffer.Plain (b : Buffer) : Prop where
  host : Braceless b.host
  type : Braceless b.type
  queue : Braceless b.queue

/-- The texts of a comparison have no braces. -/
structure Check.Plain (c : Check) : Prop where
  output : Braceless c.output
  format : Braceless c.format
  test : Braceless c.test.text
  expected : Braceless c.expected.text
  actual : Braceless c.actual.text

/-- The texts of a plan have no braces. -/
structure Plan.Plain (p : Plan) : Prop where
  path : Braceless p.settings.program.path
  hookHeader : Braceless p.settings.hookHeader
  kernels : ∀ k ∈ p.kernels, k.kernel.Plain
  placed : ∀ w ∈ p.placed, w.Plain
  arguments : ∀ k ∈ p.kernels, ∀ a ∈ k.arguments, a.Plain
  params : ∀ x ∈ p.signature.params, x.Plain
  buffers : ∀ b ∈ p.buffers, b.Plain
  checks : ∀ c ∈ p.checks, c.Plain

namespace Buffer.Plain

variable {b : Buffer} (plain : b.Plain)

include plain

theorem handle : Braceless b.handle.text := by
  simpa [Buffer.handle] using plain.host

theorem size : Braceless b.size.text := by
  simpa [Buffer.size] using plain.type

theorem hostAddress : Braceless b.hostAddress.text := by
  unfold Buffer.hostAddress
  split <;> simpa using plain.host

end Buffer.Plain

namespace Placed.Plain

variable {w : Placed} (plain : w.Plain)

include plain

theorem buffer {template : Template} {b : Buffer} (made : w.buffer? template = some b) :
    b.Plain := by
  obtain ⟨_, _, _, traffic, -, rfl⟩ := Placed.buffer?_eq_some_iff.mp made
  have onHost : w.decl.onHost := by
    cases role : w.decl.role <;> simp_all [Variable.onHost, Buffer.traffic?]
  exact ⟨plain.decl.name onHost, plain.decl.type, plain.kernel.ident⟩

theorem argument (template : Template) : (w.toArgument template).Plain := by
  have type := plain.decl.type
  cases made : w.buffer? template with
  | some b =>
      have host := (plain.buffer made).host
      constructor <;> cases role : w.decl.role <;>
        simp +decide [Placed.toArgument, Placed.binding, role, made, Binding.size, Binding.address,
          Buffer.handle, host, type]
  | none =>
      have name := plain.decl.name
      constructor <;> cases role : w.decl.role <;>
        simp_all +decide [Variable.onHost, Placed.toArgument, Placed.binding, Binding.size,
          Binding.address]

theorem params (role : w.layout.role = w.decl.role) : ∀ x ∈ Signature.paramsOf w, x.Plain := by
  have type : Braceless
      (if w.layout.storage.isArray then w.decl.type ++ " *" else w.decl.type) := by
    split <;> simp +decide [plain.decl.type]
  intro x mem
  simp only [Signature.paramsOf] at mem
  split at mem
  · simp at mem
  · rename_i known
    have name := plain.decl.name (by simpa [Variable.onHost, role] using known)
    obtain rfl | mem := List.mem_cons.mp mem
    · exact ⟨by simpa using name, type⟩
    · split at mem
      · obtain rfl := List.mem_singleton.mp mem
        exact ⟨by simpa using name, type⟩
      · simp at mem

theorem check {c : Check} (made : w.check? = some c) : c.Plain := by
  have compares := Placed.comparedBy_of_check? made
  have name := plain.decl.name (by simp [Variable.onHost, compares.role])
  have format : Braceless c.format := by
    rw [compares.format]
    exact plain.format
  have access (var : Var) (named : Braceless var.text) : Braceless (c.access var).text := by
    unfold Check.access Check.elementIndex? Check.laneIndex?
    cases c.elements <;> cases c.lanes <;> simp [named]
  have expected : Braceless c.expected.text :=
    access (.reference c.output) (by simp [compares.output, name])
  have actual : Braceless c.actual.text :=
    access (.host c.output) (by simp [compares.output, name])
  refine ⟨compares.output ▸ name, format, ?_, expected, actual⟩
  rw [Check.test, compares.comparison]
  cases w.decl.tolerance <;>
    simp [Comparison.condition, expected, actual, name]

end Placed.Plain

theorem Plan.Arranges.plain {m : Manifest} {p : Plan} (arranged : p.Arranges m)
    (plain : m.Plain) : p.Plain := by
  have kernels (k : PlannedKernel) (mem : k ∈ p.kernels) : k.kernel.Plain := by
    refine plain.kernels _ ?_
    rw [← arranged.kernels]
    exact List.mem_map_of_mem mem
  have inKernel (k : PlannedKernel) (k_mem : k ∈ p.kernels) (w : Placed) (w_mem : w ∈ k.placed) :
      w.Plain := by
    have decl : w.decl.Plain := by
      refine (kernels k k_mem).vars _ ?_
      rw [← arranged.decls k k_mem]
      exact List.mem_map_of_mem w_mem
    have stands := arranged.stands k k_mem w w_mem
    have fits := stands.layout
    refine ⟨decl, ?_, ?_, ?_, ?_⟩
    · rw [stands.kernel]
      exact kernels k k_mem
    · rw [fits.initial]
      split
      · exact decl.contents
      · trivial
    · rw [fits.reference]
      split
      · rintro _ ⟨⟩
        exact decl.contents
      · simp
    · rw [fits.format]
      exact braceless_conversion _
  have placed (w : Placed) (mem : w ∈ p.placed) : w.layout.role = w.decl.role ∧ w.Plain := by
    obtain ⟨k, k_mem, w_mem⟩ := List.mem_flatMap.mp mem
    exact ⟨(arranged.stands k k_mem w w_mem).layout.role, inKernel k k_mem w w_mem⟩
  refine
    { path := by rw [arranged.settings]; exact plain.path
      hookHeader := by rw [arranged.settings]; exact plain.hookHeader
      kernels
      placed := fun w mem => (placed w mem).2
      arguments := fun k k_mem a a_mem => ?_
      params := fun x mem => ?_
      buffers := fun b mem => ?_
      checks := fun c mem => ?_ }
  · rw [arranged.arguments k k_mem, (argumentsOf_perm _ _).mem_iff] at a_mem
    obtain ⟨w, w_mem, rfl⟩ := List.mem_map.mp a_mem
    exact (inKernel k k_mem w w_mem).argument _
  · rw [arranged.signature] at mem
    obtain ⟨w, w_mem, mem⟩ := List.mem_flatMap.mp mem
    obtain ⟨role, plain⟩ := placed w w_mem
    exact plain.params role x mem
  · rw [arranged.buffers] at mem
    obtain ⟨w, w_mem, made⟩ := List.mem_filterMap.mp mem
    exact (placed w w_mem).2.buffer made
  · rw [arranged.checks] at mem
    obtain ⟨w, w_mem, made⟩ := List.mem_filterMap.mp mem
    exact (placed w w_mem).2.check made

end KernelHost
