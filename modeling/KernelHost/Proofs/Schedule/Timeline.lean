import KernelHost.Proofs.Schedule.Wiring
import Mathlib.Logic.Function.Basic
import Mathlib.Logic.Relation

/-!
# Timelines of launches

The host enqueues the launches in their order, pass after pass, each on the queue of its kernel.  A
launch may start once all events that it waits for are complete, and completes its own event when
it finishes.  Starts and completions interleave freely otherwise, and the queues may still be busy
with one pass while the host enqueues the next.  Still each kernel starts behind all kernels with
smaller keys, and waits for no others.
-/

namespace KernelHost.Schedule

variable {kernels : List Kernel} {s : Schedule} {l : Launch}

/-- The event of a launch, which is complete when the launch has finished. -/
structure Event where
  /-- The pass that the launch is enqueued in. -/
  pass : Nat
  /-- The place of the launch among those of the pass. -/
  place : Nat
  deriving DecidableEq, Repr

/-- What the host has enqueued and what the queues have done. -/
structure Timeline where
  /-- The pass that the host is in. -/
  pass : Nat := 0
  /-- The number of launches of the pass that are enqueued. -/
  queued : Nat := 0
  /-- The events in the slots of the completion lists. -/
  slot : Nat × Nat → Option Event := fun _ => none
  /-- The contents of the slots that a launch waits for, read when it was enqueued. -/
  waits : Event → Option (List (Option Event)) := fun _ => none
  /-- The launches that have started. -/
  started : List Event := []
  /-- The launches that have finished. -/
  finished : List Event := []

namespace Timeline

/-- The event of the next launch. -/
def next (a : Timeline) : Event :=
  ⟨a.pass, a.queued⟩

/-- The contents of all slots of the list that a launch waits for. -/
def awaited (s : Schedule) (a : Timeline) (l : Launch) : List (Option Event) :=
  l.wait.elim [] fun tier => (List.range (s.listLength tier)).map fun slot => a.slot (tier, slot)

/-- A slot holds an event that is complete. -/
def Complete (a : Timeline) (w : Option Event) : Prop :=
  ∃ e ∈ a.finished, w = some e

/-- A launch is enqueued, has not started and waits for nothing anymore. -/
def MayStart (a : Timeline) (e : Event) : Prop :=
  e ∉ a.started ∧ ∃ ws, a.waits e = some ws ∧ ∀ w ∈ ws, a.Complete w

/-- A launch waits for an event. -/
def WaitsFor (a : Timeline) (e f : Event) : Prop :=
  ∃ ws, a.waits e = some ws ∧ some f ∈ ws

/-- The next launch is enqueued: it waits for what is in its list now, and its event is put into the
slot that it completes. -/
def enqueue (s : Schedule) (a : Timeline) (l : Launch) : Timeline :=
  { a with
    queued := a.queued + 1
    slot := l.signal.elim a.slot fun x => Function.update a.slot x (some a.next)
    waits := Function.update a.waits a.next (some (a.awaited s l)) }

/-- A launch starts. -/
def start (a : Timeline) (e : Event) : Timeline :=
  { a with started := e :: a.started }

/-- A launch finishes. -/
def finish (a : Timeline) (e : Event) : Timeline :=
  { a with finished := e :: a.finished }

/-- The host empties the slots and begins the next pass. -/
def again (a : Timeline) : Timeline :=
  { a with pass := a.pass + 1, queued := 0, slot := fun _ => none }

end Timeline

/-- What can happen next. -/
inductive Advances (s : Schedule) : Timeline → Timeline → Prop
  | enqueue {a l} (next : s.launches[a.queued]? = some l) : Advances s a (a.enqueue s l)
  | start {a e} (ready : a.MayStart e) : Advances s a (a.start e)
  | finish {a e} (running : e ∈ a.started) (unfinished : e ∉ a.finished) :
      Advances s a (a.finish e)
  | again {a} (enqueued : a.queued = s.launches.length) : Advances s a a.again

/-- A launch is one of a kernel. -/
def Event.Runs (s : Schedule) (e : Event) (i : Nat) : Prop :=
  ∃ l, s.launches[e.place]? = some l ∧ l.kernel = i

/-- A kernel has finished in a pass. -/
def Timeline.Finished (s : Schedule) (a : Timeline) (pass i : Nat) : Prop :=
  ∃ e ∈ a.finished, e.pass = pass ∧ e.Runs s i

/-- Kernels run in the order of their keys, and wait for nothing else. -/
structure Orderly (kernels : List Kernel) (s : Schedule) (a : Timeline) : Prop where
  /-- Each kernel is launched once in each pass. -/
  once : ∀ {i}, i < kernels.length → ∀ pass, ∃! e : Event, e.pass = pass ∧ e.Runs s i
  /-- Kernels with smaller keys have finished when a kernel starts. -/
  finished : ∀ {e i j x y}, a.MayStart e → e.Runs s j → keyOf kernels i = some x →
    keyOf kernels j = some y → x < y → a.Finished s e.pass i
  /-- The slots that the next launch waits for hold events of earlier launches of the same pass. -/
  assigned : ∀ {l tier slot}, s.launches[a.queued]? = some l → l.wait = some tier →
    slot < s.listLength tier → ∃ place < a.queued, ∃ l', s.launches[place]? = some l' ∧
      l'.signal = some (tier, slot) ∧ a.slot (tier, slot) = some ⟨a.pass, place⟩
  /-- Kernels wait, at once or by others that they wait for, only for those with smaller keys in the
  same pass. -/
  apart : ∀ {e f i j}, Relation.TransGen a.WaitsFor e f → e.Runs s j → f.Runs s i →
    f.pass = e.pass ∧ ∃ x y, keyOf kernels i = some x ∧ keyOf kernels j = some y ∧ x < y
  /-- A kernel may start when those with smaller keys have finished. -/
  prompt : ∀ {e j}, (a.waits e).isSome → e ∉ a.started → e.Runs s j →
    (∀ i x y, keyOf kernels i = some x → keyOf kernels j = some y → x < y →
      a.Finished s e.pass i) → a.MayStart e

/-! ## What holds at any time -/

/-- Slots, waits, starts and completions are those of the launches enqueued so far. -/
structure Timeline.Consistent (s : Schedule) (a : Timeline) : Prop where
  /-- The launches that are enqueued in this pass have put their events into their slots. -/
  slot : ∀ {place l x}, s.launches[place]? = some l → l.signal = some x → place < a.queued →
    a.slot x = some ⟨a.pass, place⟩
  /-- The host has enqueued the launches that wait. -/
  enqueued : ∀ {e ws}, a.waits e = some ws → e.pass < a.pass ∨ e.pass = a.pass ∧ e.place < a.queued
  /-- Launches wait for exactly those of the same pass that are one tier before them. -/
  waits : ∀ {e ws}, a.waits e = some ws → ∃ l, s.launches[e.place]? = some l ∧
    ∀ w, w ∈ ws ↔ ∃ place l', s.launches[place]? = some l' ∧ tierIndex l' + 1 = tierIndex l ∧
      w = some ⟨e.pass, place⟩
  /-- What has started waits for nothing anymore. -/
  started : ∀ e ∈ a.started, ∃ ws, a.waits e = some ws ∧ ∀ w ∈ ws, a.Complete w
  /-- What has finished has started. -/
  finished : ∀ e ∈ a.finished, e ∈ a.started

namespace Timeline.Consistent

variable {a : Timeline} {e : Event}

/-- The next launch is to wait for the launches one tier before it. -/
theorem mem_awaited (consistent : a.Consistent s) (next : s.launches[a.queued]? = some l)
    (w : Option Event) :
    w ∈ a.awaited s l ↔ ∃ place l', s.launches[place]? = some l' ∧
      tierIndex l' + 1 = tierIndex l ∧ w = some ⟨a.pass, place⟩ := by
  rw [awaited]
  cases wait : l.wait with
  | none =>
      have first : tierIndex l = 0 := by simp [tierIndex, wait]
      simp [first]
  | some tier =>
      have behind : tierIndex l = tier + 1 := wait_eq_some.mp wait
      simp only [Option.elim_some, List.mem_map, List.mem_range, behind, Nat.add_right_cancel_iff]
      constructor
      · rintro ⟨slot, inside, rfl⟩
        obtain ⟨place, lt, l', at_place, signal⟩ := exists_signal next behind inside
        have index := (kernel_of_signal (List.mem_of_getElem? at_place) signal).1
        exact ⟨place, l', at_place, index, consistent.slot at_place signal lt⟩
      · rintro ⟨place, l', at_place, rfl, rfl⟩
        have before : tierIndex l' < tierIndex l := by omega
        obtain ⟨slot, inside, signal⟩ :=
          exists_slot (List.mem_of_getElem? at_place) (List.mem_of_getElem? next) before
        exact ⟨slot, inside, consistent.slot at_place signal (place_lt at_place next before)⟩

theorem ne_next (consistent : a.Consistent s) {ws : List (Option Event)}
    (waits : a.waits e = some ws) : e ≠ a.next := by
  rintro rfl
  have := consistent.enqueued waits
  simp only [next] at this
  omega

theorem initial : ({} : Timeline).Consistent s where
  slot _ _ inside := absurd inside (Nat.not_lt_zero _)
  enqueued waits := by simp at waits
  waits waits := by simp at waits
  started _ mem := by simp at mem
  finished _ mem := by simp at mem

theorem enqueue (arranged : ofKernels kernels = .ok s) (consistent : a.Consistent s)
    (next : s.launches[a.queued]? = some l) : (a.enqueue s l).Consistent s where
  slot := by
    intro place l' x at_place signal inside
    obtain before | rfl := Nat.lt_succ_iff_lt_or_eq.mp inside
    · have kept := consistent.slot at_place signal before
      cases signal' : l.signal with
      | none => simpa [Timeline.enqueue, signal'] using kept
      | some x' =>
          have other : x ≠ x' := by
            rintro rfl
            have := place_eq_of_signal_eq arranged at_place next signal signal'
            omega
          simpa [Timeline.enqueue, signal', Function.update_of_ne other] using kept
    · obtain rfl := Option.some.inj (next.symm.trans at_place)
      simp [Timeline.enqueue, signal, Timeline.next]
  enqueued := by
    intro e ws waits
    by_cases eq : e = a.next
    · subst eq
      exact .inr ⟨rfl, Nat.lt_succ_self _⟩
    · simp only [Timeline.enqueue, Function.update_of_ne eq] at waits
      have := consistent.enqueued waits
      simp only [Timeline.enqueue]
      omega
  waits := by
    intro e ws waits
    by_cases eq : e = a.next
    · subst eq
      simp only [Timeline.enqueue, Function.update_self, Option.some.injEq] at waits
      subst waits
      exact ⟨l, next, consistent.mem_awaited next⟩
    · simp only [Timeline.enqueue, Function.update_of_ne eq] at waits
      exact consistent.waits waits
  started e mem := by
    obtain ⟨ws, waits, complete⟩ := consistent.started e mem
    refine ⟨ws, ?_, complete⟩
    simpa only [Timeline.enqueue, Function.update_of_ne (consistent.ne_next waits)] using waits
  finished := consistent.finished

theorem start (consistent : a.Consistent s) (ready : a.MayStart e) :
    (a.start e).Consistent s where
  slot := consistent.slot
  enqueued := consistent.enqueued
  waits := consistent.waits
  started f mem := by
    obtain rfl | mem := List.mem_cons.mp mem
    · exact ready.2
    · exact consistent.started f mem
  finished f mem := List.mem_cons_of_mem _ (consistent.finished f mem)

theorem finish (consistent : a.Consistent s) (running : e ∈ a.started) :
    (a.finish e).Consistent s where
  slot := consistent.slot
  enqueued := consistent.enqueued
  waits := consistent.waits
  started f mem := by
    obtain ⟨ws, waits, complete⟩ := consistent.started f mem
    refine ⟨ws, waits, fun w w_mem => ?_⟩
    obtain ⟨g, g_mem, eq⟩ := complete w w_mem
    exact ⟨g, List.mem_cons_of_mem _ g_mem, eq⟩
  finished f mem := by
    obtain rfl | mem := List.mem_cons.mp mem
    · exact running
    · exact consistent.finished f mem

theorem again (consistent : a.Consistent s) : a.again.Consistent s where
  slot _ _ inside := absurd inside (Nat.not_lt_zero _)
  enqueued waits := by
    have := consistent.enqueued waits
    left
    simp only [Timeline.again]
    omega
  waits := consistent.waits
  started := consistent.started
  finished := consistent.finished

theorem of_reachable (arranged : ofKernels kernels = .ok s)
    (reachable : Relation.ReflTransGen (Advances s) {} a) : a.Consistent s := by
  induction reachable with
  | refl => exact initial
  | tail _ step ih =>
      cases step with
      | enqueue next => exact ih.enqueue arranged next
      | start ready => exact ih.start ready
      | finish running _ => exact ih.finish running
      | again _ => exact ih.again

/-- When all that a launch waits for is complete, the launches of all tiers before it have
finished. -/
theorem mem_finished (arranged : ofKernels kernels = .ok s) (consistent : a.Consistent s)
    {ws : List (Option Event)} (waits : a.waits e = some ws) (complete : ∀ w ∈ ws, a.Complete w)
    {l' : Launch} {place : Nat} (at_e : s.launches[e.place]? = some l)
    (at_place : s.launches[place]? = some l') (before : tierIndex l' < tierIndex l) :
    ⟨e.pass, place⟩ ∈ a.finished := by
  -- the tier before `l` has a launch, which waited for all tiers before its own
  induction index : tierIndex l generalizing e l ws with
  | zero => omega
  | succ t ih =>
      obtain ⟨l₀, at_e', mem_ws⟩ := consistent.waits waits
      obtain rfl := Option.some.inj (at_e.symm.trans at_e')
      have finished {p : Nat} {m : Launch} (at_p : s.launches[p]? = some m)
          (one_before : tierIndex m = t) : ⟨e.pass, p⟩ ∈ a.finished := by
        obtain ⟨f, f_mem, eq⟩ := complete _ ((mem_ws _).mpr ⟨p, m, at_p, by omega, rfl⟩)
        rwa [Option.some.inj eq]
      obtain lt | eq := Nat.lt_or_eq_of_le (Nat.le_of_lt_succ (index ▸ before))
      · obtain ⟨m, m_mem, one_before⟩ :=
          exists_launch_before arranged (List.mem_of_getElem? at_e) (t := t) (by omega)
        obtain ⟨p, at_p⟩ := List.mem_iff_getElem?.mp m_mem
        obtain ⟨ws', waits', complete'⟩ :=
          consistent.started _ (consistent.finished _ (finished at_p one_before))
        exact ih (e := ⟨e.pass, p⟩) waits' complete' at_p (by omega) one_before
      · exact finished at_place eq

/-- A launch waits for launches of tiers before it, in the same pass. -/
theorem of_waitsFor (consistent : a.Consistent s) {e f : Event}
    (waits : Relation.TransGen a.WaitsFor e f) :
    f.pass = e.pass ∧ ∃ l l', s.launches[e.place]? = some l ∧ s.launches[f.place]? = some l' ∧
      tierIndex l' < tierIndex l := by
  have once {e f : Event} (waits : a.WaitsFor e f) :
      f.pass = e.pass ∧ ∃ l l', s.launches[e.place]? = some l ∧ s.launches[f.place]? = some l' ∧
        tierIndex l' < tierIndex l := by
    obtain ⟨ws, waits, mem⟩ := waits
    obtain ⟨l, at_e, mem_ws⟩ := consistent.waits waits
    obtain ⟨place, l', at_place, before, eq⟩ := (mem_ws _).mp mem
    obtain rfl := Option.some.inj eq
    exact ⟨rfl, l, l', at_e, at_place, by omega⟩
  induction waits with
  | single waits => exact once waits
  | tail _ waits ih =>
      obtain ⟨pass, l, m, at_e, at_f, before⟩ := ih
      obtain ⟨pass', m', l', at_f', at_g, before'⟩ := once waits
      obtain rfl := Option.some.inj (at_f.symm.trans at_f')
      exact ⟨pass'.trans pass, l, l', at_e, at_g, Nat.lt_trans before' before⟩

/-- Kernels with smaller keys have finished when a kernel starts. -/
theorem finished_of_mayStart (arranged : ofKernels kernels = .ok s) (consistent : a.Consistent s)
    {i j : Nat} {x y : Int} (ready : a.MayStart e) (runs : e.Runs s j)
    (key_i : keyOf kernels i = some x) (key_j : keyOf kernels j = some y) (lt : x < y) :
    a.Finished s e.pass i := by
  obtain ⟨-, ws, waits, complete⟩ := ready
  obtain ⟨l, at_e, rfl⟩ := runs
  obtain ⟨k, kernel, -⟩ := Option.bind_eq_some_iff.mp key_i
  obtain ⟨place, l', at_place, rfl⟩ := exists_launch_of_mem arranged kernel
  have before := tierIndex_lt arranged (List.mem_of_getElem? at_place)
    (List.mem_of_getElem? at_e) key_i key_j lt
  exact ⟨⟨e.pass, place⟩, consistent.mem_finished arranged waits complete at_e at_place before,
    rfl, l', at_place, rfl⟩

/-- The slots that the next launch waits for have been filled in this pass. -/
theorem slot_of_wait (consistent : a.Consistent s) {tier slot : Nat}
    (next : s.launches[a.queued]? = some l) (wait : l.wait = some tier)
    (inside : slot < s.listLength tier) :
    ∃ place < a.queued, ∃ l', s.launches[place]? = some l' ∧ l'.signal = some (tier, slot) ∧
      a.slot (tier, slot) = some ⟨a.pass, place⟩ := by
  obtain ⟨place, lt, l', at_place, signal⟩ := exists_signal next (wait_eq_some.mp wait) inside
  exact ⟨place, lt, l', at_place, signal, consistent.slot at_place signal lt⟩

/-- Kernels wait for those with smaller keys only. -/
theorem keyOf_lt_of_waitsFor (arranged : ofKernels kernels = .ok s) (consistent : a.Consistent s)
    {e f : Event} {i j : Nat} (waits : Relation.TransGen a.WaitsFor e f) (runs : e.Runs s j)
    (runs' : f.Runs s i) :
    f.pass = e.pass ∧ ∃ x y, keyOf kernels i = some x ∧ keyOf kernels j = some y ∧ x < y := by
  obtain ⟨l, at_e, rfl⟩ := runs
  obtain ⟨l', at_f, rfl⟩ := runs'
  obtain ⟨pass, m, m', at_e', at_f', before⟩ := consistent.of_waitsFor waits
  obtain rfl := Option.some.inj (at_e.symm.trans at_e')
  obtain rfl := Option.some.inj (at_f.symm.trans at_f')
  have lt := keyOf_lt arranged (List.mem_of_getElem? at_f) (List.mem_of_getElem? at_e) before
  exact ⟨pass, lt⟩

/-- A kernel may start when those with smaller keys have finished. -/
theorem mayStart_of_finished (arranged : ofKernels kernels = .ok s) (consistent : a.Consistent s)
    {j : Nat} (enqueued : (a.waits e).isSome) (unstarted : e ∉ a.started) (runs : e.Runs s j)
    (finished : ∀ i x y, keyOf kernels i = some x → keyOf kernels j = some y → x < y →
      a.Finished s e.pass i) : a.MayStart e := by
  obtain ⟨l, at_e, rfl⟩ := runs
  obtain ⟨ws, waits⟩ := Option.isSome_iff_exists.mp enqueued
  refine ⟨unstarted, ws, waits, fun w mem => ?_⟩
  obtain ⟨m, at_e', mem_ws⟩ := consistent.waits waits
  obtain rfl := Option.some.inj (at_e.symm.trans at_e')
  obtain ⟨place, l', at_place, before, rfl⟩ := (mem_ws w).mp mem
  obtain ⟨x, y, key, key', lt⟩ := keyOf_lt arranged (List.mem_of_getElem? at_place)
    (List.mem_of_getElem? at_e) (by omega)
  obtain ⟨⟨pass, place'⟩, f_mem, rfl, l'', at_place', kernel⟩ := finished _ x y key key' lt
  obtain rfl := place_eq_of_kernel_eq arranged at_place' at_place kernel
  exact ⟨_, f_mem, rfl⟩

end Timeline.Consistent

/-- Each kernel is launched once in each pass. -/
theorem existsUnique_runs (arranged : ofKernels kernels = .ok s) {i : Nat}
    (inside : i < kernels.length) (pass : Nat) : ∃! e : Event, e.pass = pass ∧ e.Runs s i := by
  obtain ⟨place, l, at_place, kernel⟩ :=
    exists_launch_of_mem arranged (List.getElem?_eq_getElem inside)
  refine ⟨⟨pass, place⟩, ⟨rfl, l, at_place, kernel⟩, ?_⟩
  rintro ⟨pass', place'⟩ ⟨rfl, l', at_place', kernel'⟩
  have place_eq := place_eq_of_kernel_eq arranged at_place' at_place (kernel'.trans kernel.symm)
  exact congrArg _ place_eq

/-- At any time, kernels run in the order of their keys. -/
theorem orderly_of_reachable (arranged : ofKernels kernels = .ok s) {a : Timeline}
    (reachable : Relation.ReflTransGen (Advances s) {} a) : Orderly kernels s a := by
  have consistent := Timeline.Consistent.of_reachable arranged reachable
  exact
    { once := fun inside pass => existsUnique_runs arranged inside pass
      finished := consistent.finished_of_mayStart arranged
      assigned := consistent.slot_of_wait
      apart := consistent.keyOf_lt_of_waitsFor arranged
      prompt := consistent.mayStart_of_finished arranged }

/-- A kernel with a key. -/
def sampleKernel (key : Int) : Kernel :=
  { name := "f", order := some key, range := ⟨1, "1", none, ⟨0, 0⟩⟩, vars := [], span := ⟨0, 0⟩ }

/-- Three kernels, of which the first one runs behind the others. -/
def sampleKernels : List Kernel :=
  [sampleKernel 2, sampleKernel 1, sampleKernel 1]

/-- The schedule of the three kernels. -/
def sampleSchedule : Schedule :=
  ⟨[⟨some 1, [1, 2]⟩, ⟨some 2, [0]⟩]⟩

theorem ofKernels_sampleKernels : ofKernels sampleKernels = .ok sampleSchedule := by
  have keyed : keys sampleKernels = [1, 2] := by
    have distinct : (sampleKernels.filterMap (·.order)).eraseDups = [2, 1] := by decide
    rw [keys, distinct]
    simp [List.mergeSort]
  have tiers : tiersOf sampleKernels = sampleSchedule.tiers := by
    simp only [tiersOf, keyed]
    decide
  exact congrArg (fun tiers => (Except.ok ⟨tiers⟩ : Checked Schedule)) tiers

theorem orderly_of_reachable_sampleKernels :
    ∃ (s : Schedule) (a : Timeline) (e : Event), ofKernels sampleKernels = .ok s ∧
      Relation.ReflTransGen (Advances s) {} a ∧ a.MayStart e ∧ e.Runs s 0 ∧
        a.Finished s e.pass 1 ∧ a.Finished s e.pass 2 ∧ Orderly sampleKernels s a := by
  let enqueued : Timeline :=
    (((({} : Timeline).enqueue sampleSchedule ⟨1, none, some (0, 0)⟩).enqueue sampleSchedule
      ⟨2, none, some (0, 1)⟩).enqueue sampleSchedule ⟨0, some 0, none⟩)
  let a : Timeline :=
    (((enqueued.start ⟨0, 1⟩).start ⟨0, 0⟩).finish ⟨0, 0⟩).finish ⟨0, 1⟩
  have reachable : Relation.ReflTransGen (Advances sampleSchedule) {} a := by
    refine .tail (.tail (.tail (.tail (.tail (.tail (.tail .refl (.enqueue ?_)) (.enqueue ?_))
      (.enqueue ?_)) (.start ?_)) (.start ?_)) (.finish ?_ ?_)) (.finish ?_ ?_)
    · rfl
    · rfl
    · rfl
    · exact ⟨by decide, [], rfl, by simp⟩
    · exact ⟨by decide, [], rfl, by simp⟩
    all_goals decide
  have ready : a.MayStart ⟨0, 2⟩ := by
    refine ⟨by decide, [some ⟨0, 0⟩, some ⟨0, 1⟩], rfl, fun w mem => ?_⟩
    obtain rfl | rfl : w = some ⟨0, 0⟩ ∨ w = some ⟨0, 1⟩ := by simpa using mem
    · exact ⟨⟨0, 0⟩, by decide, rfl⟩
    · exact ⟨⟨0, 1⟩, by decide, rfl⟩
  have runs : Event.Runs sampleSchedule ⟨0, 2⟩ 0 := ⟨_, rfl, rfl⟩
  have orderly := orderly_of_reachable ofKernels_sampleKernels reachable
  exact ⟨sampleSchedule, a, ⟨0, 2⟩, ofKernels_sampleKernels, reachable, ready, runs,
    orderly.finished ready runs rfl rfl (by decide : (1 : Int) < 2),
    orderly.finished ready runs rfl rfl (by decide : (1 : Int) < 2), orderly⟩

end KernelHost.Schedule
