import KernelHost.Proofs.Freshness.Harmless
import KernelHost.Proofs.Plan.Shape
import Mathlib.Data.List.Nodup
import Mathlib.Tactic.SplitIfs

/-!
# Wired plans

What the set-up makes of a plan: every variable is declared as it is laid out, every buffer of the
plan has a region of its own, of its size, and what is passed to a kernel is what its arguments say.
None of this depends on what is on the host, so hooks cannot break it.
-/

namespace KernelHost.Host

open Code (Expr Stmt Var)

variable {α : Type} {p : Plan}

/-! ## Variables and buffers -/

/-- How a variable is kept. -/
def extentOf (v : Placed) : Extent where
  type := v.decl.type
  count := if v.layout.storage.isArray then some v.layout.storage.count else none

theorem size_of_buffer? {v : Placed} {template : Template} {b : Buffer}
    (made : v.buffer? template = some b) :
    b.host = v.decl.name ∧ b.queue = v.kernel.ident ∧ b.size = (extentOf v).size ∧
      b.hostAddress = (extentOf v).address v.decl.name := by
  obtain ⟨_, _, _, -, -, rfl⟩ := Placed.buffer?_eq_some_iff.mp made
  cases storage : v.layout.storage <;>
    simp [Buffer.size, Buffer.hostAddress, extentOf, Extent.size, Extent.address, storage,
      Storage.isArray, Storage.count]

/-- A buffer is the buffer of a variable, for the kernel of that variable. -/
theorem exists_of_mem_buffers (wellFormed : p.WellFormed) {b : Buffer} (mem : b ∈ p.buffers) :
    ∃ v ∈ p.hostPlaced, v.buffer? p.template = some b := by
  rw [wellFormed.buffers_eq] at mem
  exact List.mem_filterMap.mp mem

theorem mem_buffers (wellFormed : p.WellFormed) {v : Placed} {b : Buffer} (mem : v ∈ p.hostPlaced)
    (made : v.buffer? p.template = some b) : b ∈ p.buffers := by
  rw [wellFormed.buffers_eq]
  exact List.mem_filterMap.mpr ⟨v, mem, made⟩

theorem buffer_eq_of_host_eq (wellFormed : p.WellFormed) {b c : Buffer} (b_mem : b ∈ p.buffers)
    (c_mem : c ∈ p.buffers) (same : b.host = c.host) : b = c :=
  List.inj_on_of_nodup_map wellFormed.hosts_nodup b_mem c_mem same

/-! ## Links -/

/-- What is passed to kernels: the arguments of all of them, with the identifiers of the kernels. -/
def links (p : Plan) : List (String × Argument) :=
  p.kernels.flatMap fun k => k.arguments.map (k.kernel.ident, ·)

theorem mem_links (wellFormed : p.WellFormed) {l : String × Argument} :
    l ∈ links p ↔ ∃ k ∈ p.kernels, ∃ v ∈ k.placed,
      l = (k.kernel.ident, v.toArgument p.template) := by
  simp only [links, List.mem_flatMap, List.mem_map]
  refine exists_congr fun k => and_congr_right fun k_mem => ?_
  simp only [wellFormed.arguments k k_mem, argumentsOf, List.mem_mergeSort, List.mem_map]
  constructor
  · rintro ⟨_, ⟨v, mem, rfl⟩, rfl⟩
    exact ⟨v, mem, rfl⟩
  · rintro ⟨v, mem, rfl⟩
    exact ⟨_, ⟨v, mem, rfl⟩, rfl⟩

/-- Links are told apart by the identifiers of kernels and the indices of arguments. -/
theorem link_eq (wellFormed : p.WellFormed) {l m : String × Argument} (l_mem : l ∈ links p)
    (m_mem : m ∈ links p) (ident : l.1 = m.1) (index : l.2.index = m.2.index) : l = m := by
  obtain ⟨k, k_mem, v, v_mem, rfl⟩ := (mem_links wellFormed).mp l_mem
  obtain ⟨k', k'_mem, v', v'_mem, rfl⟩ := (mem_links wellFormed).mp m_mem
  obtain rfl := List.inj_on_of_nodup_map wellFormed.idents_nodup k_mem k'_mem ident
  obtain rfl := List.inj_on_of_nodup_map (wellFormed.arguments_nodup k k_mem) v_mem v'_mem index
  rfl

/-- The argument of a variable: scratch memory, its buffer, or its value. -/
theorem binding_toArgument (v : Placed) (template : Template) :
    (v.toArgument template).binding =
      match v.decl.role, v.buffer? template with
      | .scratch, _ => .scratch v.layout.storage.count v.decl.type
      | _, some b => .handle b.host
      | _, none => .value v.decl.name v.decl.type := by
  cases role : v.decl.role <;> cases made : v.buffer? template <;>
    simp [Placed.toArgument, Placed.binding, role, made]

/-- A value is passed for a variable that is a single one. -/
theorem link_value (wellFormed : p.WellFormed) {l : String × Argument} (mem : l ∈ links p)
    {host type : String} (value : l.2.binding = .value host type) :
    ∃ v ∈ p.hostPlaced, host = v.decl.name ∧ extentOf v = ⟨type, none⟩ := by
  obtain ⟨k, k_mem, v, v_mem, rfl⟩ := (mem_links wellFormed).mp mem
  have onHost : v.decl.onHost := by
    rw [binding_toArgument] at value
    cases role : v.decl.role <;> simp_all [Variable.onHost]
  have isSome := Placed.isSome_buffer?_iff onHost p.template
  rw [binding_toArgument] at value
  refine ⟨v, Plan.mem_hostPlaced.mpr ⟨k, k_mem, v_mem, onHost⟩, ?_⟩
  cases made : v.buffer? p.template with
  | some b => cases role : v.decl.role <;> simp [made, role] at value
  | none =>
      simp only [made, Option.isSome_none, Bool.false_eq_true, false_iff, not_or,
        Bool.not_eq_true] at isSome
      cases role : v.decl.role <;> simp_all [extentOf]

/-- A buffer is passed to the kernel whose queue carries its transfers. -/
theorem link_handle (wellFormed : p.WellFormed) {l : String × Argument} (mem : l ∈ links p)
    {host : String} (handle : l.2.binding = .handle host) :
    ∃ b ∈ p.buffers, b.host = host ∧ b.queue = l.1 := by
  obtain ⟨k, k_mem, v, v_mem, rfl⟩ := (mem_links wellFormed).mp mem
  rw [binding_toArgument] at handle
  have onHost : v.decl.onHost := by
    cases role : v.decl.role <;> simp_all [Variable.onHost]
  have placed : v ∈ p.hostPlaced := Plan.mem_hostPlaced.mpr ⟨k, k_mem, v_mem, onHost⟩
  cases made : v.buffer? p.template with
  | none => cases role : v.decl.role <;> simp [made, role] at handle
  | some b =>
      have same : b.host = host := by
        cases role : v.decl.role <;> simp_all
      refine ⟨b, mem_buffers wellFormed placed made, same, ?_⟩
      rw [(size_of_buffer? made).2.1, (wellFormed.stands k k_mem v v_mem).kernel]

/-! ## Conditions on the wiring -/

/-- The variables are declared as they are laid out. -/
def Extended (p : Plan) (w : Wiring α) : Prop :=
  ∀ v ∈ p.hostPlaced, w.extent v.decl.name = some (extentOf v)

/-- Each of some buffers has a region of its own, of its size. -/
structure Backs (bs : List Buffer) (w : Wiring α) : Prop where
  /-- It has a region of its size. -/
  region : ∀ b ∈ bs, ∃ n r, w.handle b.host = some n ∧ w.region n = some r ∧ r.size = b.size
  /-- No other buffer has the same one. -/
  apart : ∀ b ∈ bs, ∀ c ∈ bs, w.handle b.host = w.handle c.host → b.host = c.host

/-- No kernel is passed a buffer of another one. -/
def Owned (p : Plan) (w : Wiring α) : Prop :=
  ∀ k ∈ p.kernels, ∀ index n, w.passed k.kernel.ident index = some (.buffer n) →
    ∃ b ∈ p.buffers, b.queue = k.kernel.ident ∧ w.handle b.host = some n

/-- What is passed for a link is what it says, unless it is a value. -/
def Linked (w : Wiring α) (l : String × Argument) : Prop :=
  match l.2.binding with
  | .value _ _ => True
  | .handle host => w.passed l.1 l.2.index = (w.handle host).map .buffer
  | .scratch _ _ => w.passed l.1 l.2.index = some .scratch

/-- A plan is wired. -/
structure Wired (p : Plan) (w : Wiring α) : Prop where
  /-- The variables are declared. -/
  extended : Extended p w
  backs : Backs p.buffers w
  /-- No kernel is passed a buffer of another one. -/
  owned : Owned p w
  /-- Buffers and scratch memory are passed. -/
  linked : ∀ l ∈ links p, Linked w l

theorem Wiring.held_eq {w : Wiring α} {name : String} {n : Nat} (handle : w.handle name = some n) :
    w.held name = (w.region n).map (·.contents) := by
  rw [held, handle, Option.bind_some]

/-! ## Conditions on the data -/

/-- What is passed for a link, if it is a value, is what is on the host. -/
def Valued (a : Data α) (l : String × Argument) : Prop :=
  ∀ host type, l.2.binding = .value host type →
    a.wiring.passed l.1 l.2.index = some (.value (a.host host))

/-- A buffer holds what its variable holds. -/
def Synced (a : Data α) (b : Buffer) : Prop :=
  a.wiring.held b.host = some (a.host b.host)

/-- A kernel finds fresh data if its values are passed and its buffers hold what they should. -/
theorem Data.fresh_of_wired (wellFormed : p.WellFormed) {a : Data α} (wired : Wired p a.wiring)
    {k : PlannedKernel} (mem : k ∈ p.kernels) (valued : ∀ l ∈ links p, Valued a l)
    (synced : ∀ b ∈ p.buffers, b.queue = k.kernel.ident → Synced a b) : a.Fresh k := by
  intro v v_mem onHost
  have link : (k.kernel.ident, v.toArgument p.template) ∈ links p :=
    (mem_links wellFormed).mpr ⟨k, mem, v, v_mem, rfl⟩
  have index : (v.toArgument p.template).index = v.decl.argument := rfl
  have placed : v ∈ p.hostPlaced := Plan.mem_hostPlaced.mpr ⟨k, mem, v_mem, onHost⟩
  have binding := binding_toArgument v p.template
  cases made : v.buffer? p.template with
  | none =>
      have value : (v.toArgument p.template).binding = .value v.decl.name v.decl.type := by
        rw [binding, made]
        cases role : v.decl.role <;> simp_all [Variable.onHost]
      have passed := valued _ link _ _ value
      rw [index] at passed
      simp [Wiring.delivered, passed]
  | some b =>
      have b_mem := mem_buffers wellFormed placed made
      obtain ⟨host, queue, -, -⟩ := size_of_buffer? made
      have handle : (v.toArgument p.template).binding = .handle b.host := by
        rw [binding, made]
        cases role : v.decl.role <;> simp_all [Variable.onHost]
      obtain ⟨n, r, held, region, -⟩ := wired.backs.region b b_mem
      have passed := wired.linked _ link
      simp only [Linked, handle, index, held, Option.map_some] at passed
      have same : Synced a b :=
        synced b b_mem (by rw [queue, (wellFormed.stands k mem v v_mem).kernel])
      rw [Synced, Wiring.held_eq held, host] at same
      simpa [Wiring.delivered, passed] using same

end KernelHost.Host
