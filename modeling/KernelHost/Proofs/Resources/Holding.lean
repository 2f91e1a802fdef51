import KernelHost.Proofs.Resources.Ledger
import Mathlib.Data.List.Perm.Basic
import Mathlib.Tactic.Common

/-!
# Handles and what they hold

After each deed some resources still have to be released.  The program keeps each of them in one of
its handles: `Holds` says that the handles of a list hold exactly the resources that are left, each
of them once.  Where nothing is left to hold, everything is settled.
-/

namespace KernelHost.Host

open Code (Callee Expr Var)

/-! ## What is owed -/

/-- The resources that are left to release after some deeds, the latest of which comes first. -/
inductive Owes : List Deed → List Resource → Prop
  | nil : Owes [] []
  | acquire {deeds : List Deed} {live : List Resource} {r : Resource} (owes : Owes deeds live)
      (new : .acquire r ∉ deeds) : Owes (.acquire r :: deeds) (r :: live)
  | release {deeds : List Deed} {live left : List Resource} {r : Resource}
      (owes : Owes deeds live) (held : live.Perm (r :: left)) :
      Owes (.release r.releaser (.resource r) :: deeds) left

namespace Owes

variable {deeds : List Deed} {live : List Resource}

/-- Every acquisition is released or left, and not both. -/
theorem count_eq (owes : Owes deeds live) (r : Resource) :
    deeds.countP (·.releases r) + live.count r = deeds.count (.acquire r) := by
  induction owes with
  | nil => rfl
  | @acquire deeds live s _ _ ih =>
      by_cases same : s = r <;> simp [same] <;> omega
  | @release deeds live left s _ held ih =>
      have count := held.count_eq r
      by_cases same : s = r <;> simp [same] at count ⊢ <;> omega

theorem acquired_once (owes : Owes deeds live) (r : Resource) :
    deeds.count (.acquire r) ≤ 1 := by
  induction owes with
  | nil => simp
  | @acquire deeds live s _ new ih =>
      by_cases same : s = r
      · subst same
        simp [List.count_eq_zero_of_not_mem new]
      · simpa [List.count_cons, same] using ih
  | release _ _ ih => simpa [List.count_cons] using ih

/-- What is left was acquired. -/
theorem acquired (owes : Owes deeds live) {r : Resource} (mem : r ∈ live) :
    .acquire r ∈ deeds := by
  have count := owes.count_eq r
  have one := List.count_pos_iff.mpr mem
  exact List.count_pos_iff.mp (by omega)

theorem acquired_before (owes : Owes deeds live) {behind before : List Deed} {callee : Callee}
    {what : Content} (split : deeds = behind ++ .release callee what :: before) :
    ∃ r, what = .resource r ∧ callee = r.releaser ∧ .acquire r ∈ before := by
  induction owes generalizing behind with
  | nil => simp at split
  | acquire _ _ ih =>
      cases behind with
      | nil => simp at split
      | cons d behind => exact ih (List.cons.inj split).2
  | @release deeds live left r owes held ih =>
      cases behind with
      | nil =>
          obtain ⟨head, rfl⟩ := List.cons.inj split
          obtain ⟨rfl, rfl⟩ := Deed.release.inj head
          exact ⟨r, rfl, rfl, owes.acquired (held.mem_iff.mpr List.mem_cons_self)⟩
      | cons d behind => exact ih (List.cons.inj split).2

/-- Where nothing is left, everything is settled. -/
theorem settled (owes : Owes deeds []) : Settled deeds where
  acquired_once := owes.acquired_once
  released_once r mem := by
    have count := owes.count_eq r
    have once := owes.acquired_once r
    have one := List.count_pos_iff.mpr mem
    simp only [List.count_nil] at count
    omega
  acquired_before _ _ _ _ split := owes.acquired_before split

end Owes

/-! ## Handles -/

/-- A handle of the program. -/
structure Handle where
  /-- Where it is kept. -/
  place : Place
  /-- The call that releases what it stands for. -/
  releaser : Callee
  deriving DecidableEq

/-- The handle in a variable. -/
def Handle.ofVar (callee : Callee) (v : Var) : Handle :=
  ⟨.var v, callee⟩

/-- The resource that a handle stands for, if it is not null. -/
def Books.held? (b : Books) (h : Handle) : Option Resource :=
  (b.content h.place).resource?

attribute [local simp] Content.resource? Books.held?

/-- The handles of a list hold everything that is left to release. -/
structure Holds (hs : List Handle) (b : Books) : Prop where
  /-- They hold exactly what is left, each resource once. -/
  owes : ∃ live, Owes b.deeds live ∧ live.Perm (hs.filterMap b.held?)
  /-- Each of them is null or holds a resource for its own call. -/
  suited : ∀ h ∈ hs, b.content h.place = .null ∨
    ∃ r, b.content h.place = .resource r ∧ r.releaser = h.releaser

namespace Holds

variable {hs ks : List Handle} {h : Handle} {b c : Books}

theorem settled (holds : Holds [] b) : Settled b.deeds := by
  obtain ⟨live, owes, perm⟩ := holds.owes
  obtain rfl := List.Perm.nil_eq perm.symm
  exact owes.settled

theorem of_perm (holds : Holds hs b) (perm : hs.Perm ks) : Holds ks b := by
  obtain ⟨live, owes, same⟩ := holds.owes
  exact ⟨⟨live, owes, same.trans (perm.filterMap _)⟩,
    fun h mem => holds.suited h (perm.mem_iff.mpr mem)⟩

/-- Where the handles stay as they are and nothing happens, the same is held. -/
theorem congr (holds : Holds hs b) (deeds : c.deeds = b.deeds)
    (content : ∀ h ∈ hs, c.content h.place = b.content h.place) : Holds hs c := by
  obtain ⟨live, owes, same⟩ := holds.owes
  refine ⟨⟨live, deeds ▸ owes, ?_⟩, fun h mem => ?_⟩
  · have held : hs.filterMap c.held? = hs.filterMap b.held? :=
      List.filterMap_congr fun h mem => by simp [content h mem]
    rwa [held]
  · rw [content h mem]
    exact holds.suited h mem

/-- A condition that asks whether a handle is null is answered as the handle is. -/
theorem null_iff_of_truth {a : Ledger} (holds : Holds hs a.books) (mem : h ∈ hs)
    (kept : h.place.kept) {e : Expr} (located : a.place? e = some h.place) {given : Bool}
    (known : ∀ t ∈ a.truth e, given = t) : a.books.content h.place = .null ↔ given = false := by
  rw [Ledger.truth_of_place located kept] at known
  rcases holds.suited h mem with null | ⟨r, held, -⟩
  · simpa [null] using known
  · simpa [held] using known

/-- A null handle may be left out. -/
theorem drop (holds : Holds (h :: hs) b) (null : b.content h.place = .null) : Holds hs b := by
  obtain ⟨live, owes, same⟩ := holds.owes
  refine ⟨⟨live, owes, ?_⟩, fun k mem => holds.suited k (List.mem_cons_of_mem _ mem)⟩
  simpa [null] using same

/-- A null handle may be added. -/
theorem add (holds : Holds hs b) (null : b.content h.place = .null) : Holds (h :: hs) b := by
  obtain ⟨live, owes, same⟩ := holds.owes
  refine ⟨⟨live, owes, ?_⟩, ?_⟩
  · simpa [null] using same
  · rintro k (_ | ⟨_, mem⟩)
    · exact .inl null
    · exact holds.suited k mem

theorem drop_all (holds : Holds (ks ++ hs) b) (null : ∀ k ∈ ks, b.content k.place = .null) :
    Holds hs b := by
  induction ks with
  | nil => exact holds
  | cons k ks ih =>
      exact ih (drop holds (null k List.mem_cons_self))
        fun k mem => null k (List.mem_cons_of_mem _ mem)

theorem add_all (holds : Holds hs b) (null : ∀ k ∈ ks, b.content k.place = .null) :
    Holds (ks ++ hs) b := by
  induction ks with
  | nil => exact holds
  | cons k ks ih =>
      exact (ih fun k mem => null k (List.mem_cons_of_mem _ mem)).add (null k List.mem_cons_self)

/-- A new resource is held by the handle that it is put in. -/
theorem gain (holds : Holds hs b) (kept : h.place.kept) (apart : h.place ∉ hs.map (·.place))
    (gains : Books.Gains h.place h.releaser b c) : Holds (h :: hs) c := by
  obtain ⟨r, suits, new, rfl⟩ := gains
  obtain ⟨live, owes, same⟩ := holds.owes
  have self : (b.acquire h.place r).content h.place = .resource r :=
    Books.content_put_self b h.place _ kept
  have others : ∀ k ∈ hs, (b.acquire h.place r).content k.place = b.content k.place :=
    fun k mem => Books.content_put_of_ne b _ fun equal => apart (equal ▸ List.mem_map_of_mem mem)
  refine ⟨⟨r :: live, owes.acquire new, ?_⟩, ?_⟩
  · have held : hs.filterMap (b.acquire h.place r).held? = hs.filterMap b.held? :=
      List.filterMap_congr fun k mem => by simp [others k mem]
    have first : (b.acquire h.place r).held? h = some r := by
      simp [self]
    rw [List.filterMap_cons_some first, held]
    exact same.cons r
  · rintro k (_ | ⟨_, mem⟩)
    · exact .inr ⟨r, self, suits⟩
    · rw [others k mem]
      exact holds.suited k mem

/-- A handle that is not null is released. -/
theorem release (holds : Holds (h :: hs) b) (held : b.content h.place ≠ .null) :
    Holds hs (b.release h.releaser (some h.place)) := by
  obtain ⟨live, owes, same⟩ := holds.owes
  obtain ⟨r, content, suits⟩ := (holds.suited h List.mem_cons_self).resolve_left held
  have first : b.held? h = some r := by simp [content]
  rw [List.filterMap_cons_some first] at same
  refine ⟨⟨hs.filterMap b.held?, ?_, .refl _⟩,
    fun k mem => holds.suited k (List.mem_cons_of_mem _ mem)⟩
  have released := owes.release same
  simpa [Books.release, content, suits] using released

end Holds

end KernelHost.Host
