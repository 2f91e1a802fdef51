import KernelHost.Proofs.Freshness.Wired

/-!
# What moves do

Each operation of the runtime does what it is there for, and keeps what the others did: a transfer
synchronizes one buffer with its variable, a binding brings one argument up to date, and a launch
leaves the buffers of other kernels alone.
-/

namespace KernelHost.Host

open Code (Call Expr Stmt Var)

variable {α : Type} {p : Plan} {a : Data α} {w : Wiring α}

/-! ## Regions that change their contents -/

/-- The buffers of a wiring hold other contents, and nothing else is changed. -/
structure Refills (w w' : Wiring α) : Prop where
  /-- The variables are kept as before. -/
  extent : w'.extent = w.extent
  /-- The handles stand for the same regions. -/
  handle : w'.handle = w.handle
  /-- The same is passed to kernels. -/
  passed : w'.passed = w.passed
  /-- A region may have other contents, but it has the same size. -/
  region : ∀ n r, w.region n = some r → ∃ x, w'.region n = some { r with contents := x }

theorem Wired.refill {w' : Wiring α} (wired : Wired p w) (refills : Refills w w') : Wired p w' where
  extended v mem := by
    rw [refills.extent]
    exact wired.extended v mem
  backs :=
    { region := fun b mem => by
        obtain ⟨n, r, held, region, size⟩ := wired.backs.region b mem
        obtain ⟨x, region'⟩ := refills.region n r region
        exact ⟨n, _, by rw [refills.handle, held], region', size⟩
      apart := by
        rw [refills.handle]
        exact wired.backs.apart }
  owned k mem index n := by
    rw [refills.passed, refills.handle]
    exact wired.owned k mem index n
  linked l mem := by
    have linked := wired.linked l mem
    rw [Linked] at linked ⊢
    rwa [refills.passed, refills.handle]

theorem Valued.refill {w' : Wiring α} {l : String × Argument} (valued : Valued a l)
    (refills : Refills a.wiring w') : Valued { a with wiring := w' } l := by
  intro host type value
  rw [refills.passed]
  exact valued host type value

theorem refills_put {n : Nat} {r : Region α} {x : α} (region : w.region n = some r) :
    Refills w (w.put n (some { r with contents := x })) where
  extent := rfl
  handle := rfl
  passed := rfl
  region m s found := by
    by_cases same : m = n
    · subst same
      obtain rfl := Option.some.inj (region.symm.trans found)
      exact ⟨x, by simp [Wiring.put]⟩
    · exact ⟨s.contents, by simp [Wiring.put, same, found]⟩

/-! ## Transfers -/

theorem whole?_eq {name : String} {e : Extent} (extent : a.wiring.extent name = some e) :
    a.whole? e.size (e.address name) = some name := by
  cases count : e.count <;> simp [Data.whole?, Extent.address, count, extent]

/-- The address and the size of a buffer denote its variable. -/
theorem whole?_of_mem_buffers (wellFormed : p.WellFormed) (extended : Extended p a.wiring)
    {b : Buffer} (mem : b ∈ p.buffers) : a.whole? b.size b.hostAddress = some b.host := by
  obtain ⟨v, v_mem, made⟩ := exists_of_mem_buffers wellFormed mem
  obtain ⟨host, -, size, address⟩ := size_of_buffer? made
  rw [size, address, host]
  exact whole?_eq (extended v v_mem)

/-- What a transfer is called on. -/
def transferArgs (b : Buffer) : List Expr :=
  [.var (.queue b.queue), .var b.handle, .constant "CL_TRUE", .number 0, b.size, b.hostAddress,
    .number 0, .null, .null]

/-- A transfer is between a buffer and its variable. -/
theorem moved?_eq (wellFormed : p.WellFormed) (wired : Wired p a.wiring) {b : Buffer}
    (mem : b ∈ p.buffers) :
    ∃ n r, a.wiring.handle b.host = some n ∧ a.wiring.region n = some r ∧
      a.moved? (transferArgs b) = some (n, r, b.host) := by
  obtain ⟨n, r, held, region, size⟩ := wired.backs.region b mem
  refine ⟨n, r, held, region, ?_⟩
  have whole := whole?_of_mem_buffers wellFormed wired.extended mem
  simp only [Data.moved?, transferArgs, Buffer.handle, if_true]
  simp [held, region, whole, size]

/-- An upload synchronizes its buffer, and no other buffer gets out of step. -/
theorem Data.Uploads.spec (wellFormed : p.WellFormed) (wired : Wired p a.wiring) {b : Buffer}
    (mem : b ∈ p.buffers) {a' : Data α} (done : a.Uploads (transferArgs b) a') :
    Wired p a'.wiring ∧ (∀ l, Valued a l → Valued a' l) ∧ Synced a' b ∧
      ∀ c ∈ p.buffers, Synced a c → Synced a' c := by
  obtain ⟨n, r, held, region, moved⟩ := moved?_eq wellFormed wired mem
  rw [Data.Uploads, moved] at done
  have refills := refills_put (x := a.host b.host) region
  have synced : Synced a' b := by
    rw [done, Synced, Wiring.held_eq (w := Wiring.put ..) held]
    simp [Wiring.put]
  refine ⟨done ▸ wired.refill refills, fun l valued => done ▸ valued.refill refills, synced,
    fun c c_mem before => ?_⟩
  by_cases same : c.host = b.host
  · rw [buffer_eq_of_host_eq wellFormed c_mem mem same]
    exact synced
  · obtain ⟨m, s, held', region', -⟩ := wired.backs.region c c_mem
    have apart : m ≠ n := by
      rintro rfl
      exact same (wired.backs.apart c c_mem b mem (held'.trans held.symm))
    rw [Synced, Wiring.held_eq held'] at before
    rw [done, Synced, Wiring.held_eq (w := Wiring.put ..) held']
    simpa [Wiring.put, apart] using before

/-- A download synchronizes its buffer, and no other buffer gets out of step. -/
theorem Data.Downloads.spec (wellFormed : p.WellFormed) (wired : Wired p a.wiring) {b : Buffer}
    (mem : b ∈ p.buffers) {a' : Data α} (done : a.Downloads (transferArgs b) a') :
    Wired p a'.wiring ∧ Synced a' b ∧ ∀ c, Synced a c → Synced a' c := by
  obtain ⟨n, r, held, region, moved⟩ := moved?_eq wellFormed wired mem
  rw [Data.Downloads, moved] at done
  have contents : a.wiring.held b.host = some r.contents := by
    simp [Wiring.held_eq held, region]
  refine ⟨done ▸ wired, by simp [done, Synced, contents], fun c before => ?_⟩
  by_cases same : c.host = b.host
  · simp [done, Synced, same, contents]
  · simpa [done, Synced, Function.update_of_ne same] using before

/-! ## Bindings -/

/-- What is passed for a link. -/
theorem captured_link (wellFormed : p.WellFormed) (extended : Extended p a.wiring)
    {l : String × Argument} (mem : l ∈ links p) :
    a.captured l.2.binding.size l.2.binding.address =
      match l.2.binding with
      | .value host _ => some (.value (a.host host))
      | .handle host => (a.wiring.handle host).map .buffer
      | .scratch _ _ => some .scratch := by
  cases binding : l.2.binding with
  | value host type =>
      obtain ⟨v, v_mem, rfl, kept⟩ := link_value wellFormed mem binding
      have extent := extended v v_mem
      simp [Binding.size, Binding.address, Data.captured, extent, kept]
  | handle host => simp [Binding.size, Binding.address, Data.captured]
  | scratch count type => simp [Binding.address, Data.captured, Expr.null]

/-- The data behind the binding of a link. -/
def Data.bindLink (a : Data α) (l : String × Argument) : Data α :=
  { a with
    wiring := a.wiring.pass l.1 l.2.index (a.captured l.2.binding.size l.2.binding.address) }

section Bindings

variable {l : String × Argument}

@[simp]
theorem host_bindLink : (a.bindLink l).host = a.host := rfl

theorem passed_bindLink_self :
    (a.bindLink l).wiring.passed l.1 l.2.index =
      a.captured l.2.binding.size l.2.binding.address := by
  simp [Data.bindLink, Wiring.pass]

theorem passed_bindLink_of_ne {ident : String} {index : Nat}
    (ne : ¬ (ident = l.1 ∧ index = l.2.index)) :
    (a.bindLink l).wiring.passed ident index = a.wiring.passed ident index := by
  by_cases same : ident = l.1
  · subst same
    have other : index ≠ l.2.index := fun equal => ne ⟨rfl, equal⟩
    simp [Data.bindLink, Wiring.pass, other]
  · simp [Data.bindLink, Wiring.pass, same]

/-- The binding of a link brings it up to date. -/
theorem linked_bindLink_self (wellFormed : p.WellFormed) (extended : Extended p a.wiring)
    (mem : l ∈ links p) : Linked (a.bindLink l).wiring l ∧ Valued (a.bindLink l) l := by
  have captured := captured_link wellFormed extended mem
  rw [← passed_bindLink_self] at captured
  constructor
  · rw [Linked]
    split <;> simp_all [Data.bindLink, Wiring.pass]
  · intro host type value
    simpa [value] using captured

/-- The binding of a link keeps what is passed for other ones. -/
theorem linked_bindLink (wellFormed : p.WellFormed) (extended : Extended p a.wiring)
    (mem : l ∈ links p) {m : String × Argument} (m_mem : m ∈ links p) :
    (Linked a.wiring m → Linked (a.bindLink l).wiring m) ∧
      (Valued a m → Valued (a.bindLink l) m) := by
  by_cases same : m.1 = l.1 ∧ m.2.index = l.2.index
  · rw [link_eq wellFormed m_mem mem same.1 same.2]
    have self := linked_bindLink_self wellFormed extended mem
    exact ⟨fun _ => self.1, fun _ => self.2⟩
  · have passed := passed_bindLink_of_ne (a := a) same
    refine ⟨fun linked => ?_, fun valued host type value => ?_⟩
    · rw [Linked] at linked ⊢
      rwa [passed]
    · rw [passed]
      exact valued host type value

/-- The binding of a link passes no buffer to a kernel of another one. -/
theorem owned_bindLink (wellFormed : p.WellFormed) (extended : Extended p a.wiring)
    (owned : Owned p a.wiring) (mem : l ∈ links p) : Owned p (a.bindLink l).wiring := by
  intro k k_mem index n passed
  by_cases same : k.kernel.ident = l.1 ∧ index = l.2.index
  · obtain ⟨ident, rfl⟩ := same
    rw [ident, passed_bindLink_self, captured_link wellFormed extended mem] at passed
    cases binding : l.2.binding with
    | handle host =>
        simp only [binding, Option.map_eq_some_iff, Passed.buffer.injEq, exists_eq_right] at passed
        obtain ⟨b, b_mem, rfl, queue⟩ := link_handle wellFormed mem binding
        exact ⟨b, b_mem, queue.trans ident.symm, passed⟩
    | _ => simp [binding] at passed
  · rw [passed_bindLink_of_ne same] at passed
    exact owned k k_mem index n passed

end Bindings

/-! ## Launches -/

/-- A launch leaves the buffers of other kernels alone. -/
theorem Data.Makes.launch (wellFormed : p.WellFormed) (wired : Wired p a.wiring)
    {k : PlannedKernel} (mem : k ∈ p.kernels) {call : Call} {a' : Data α}
    (callee : call.callee = .clEnqueueNDRangeKernel)
    (kernel : ∃ queue rest, call.args = queue :: .var (.kernel k.kernel.ident) :: rest)
    (done : a.Makes call a') :
    Wired p a'.wiring ∧ (∀ l, Valued a l → Valued a' l) ∧
      ∀ c ∈ p.buffers, c.queue ≠ k.kernel.ident → Synced a c → Synced a' c := by
  obtain ⟨queue, rest, args⟩ := kernel
  have launched : a.Launches call.args a' := by
    rwa [Data.Makes, callee] at done
  rw [args] at launched
  obtain ⟨region, rfl, changed⟩ := launched
  have refills : Refills a.wiring (a.wiring.restock region) :=
    { extent := rfl
      handle := rfl
      passed := rfl
      region := fun n r found => by
        obtain same | ⟨-, s, x, found', filled⟩ := changed n
        · exact ⟨r.contents, same.trans found⟩
        · obtain rfl := Option.some.inj (found.symm.trans found')
          exact ⟨x, filled⟩ }
  refine ⟨wired.refill refills, fun l valued => valued.refill refills,
    fun c c_mem other before => ?_⟩
  obtain ⟨n, r, held, -, -⟩ := wired.backs.region c c_mem
  have same : region n = a.wiring.region n := by
    obtain same | ⟨⟨index, passed⟩, -⟩ := changed n
    · exact same
    · obtain ⟨b, b_mem, queue, held'⟩ := wired.owned k mem index n passed
      have host := wired.backs.apart c c_mem b b_mem (held.trans held'.symm)
      exact absurd (buffer_eq_of_host_eq wellFormed c_mem b_mem host ▸ queue) other
  rw [Synced, Wiring.held_eq held, ← same] at before
  rw [Synced, Wiring.held_eq (w := a.wiring.restock region) held]
  exact before

end KernelHost.Host
