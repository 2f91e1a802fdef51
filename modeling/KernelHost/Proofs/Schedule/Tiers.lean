import KernelHost.Plan.Schedule
import KernelHost.Proofs.Checked
import KernelHost.Proofs.Schedule.Slots
import Mathlib.Data.List.Nodup
import Mathlib.Data.Int.Order.Basic
import Mathlib.Tactic.Common

/-!
# Tiers

The tiers of arranged kernels: each tier has the kernels with its key, the keys ascend from tier to
tier, and every kernel is launched once.
-/

namespace KernelHost.Schedule

variable {kernels : List Kernel} {s : Schedule}

/-! ## Keys -/

theorem nodup_eraseDups (as : List Int) : as.eraseDups.Nodup := by
  induction length : as.length using Nat.strongRecOn generalizing as with
  | ind n ih =>
      cases as with
      | nil => simp
      | cons a as =>
          rw [List.eraseDups_cons, List.nodup_cons]
          refine ⟨by simp, ih _ ?_ _ rfl⟩
          have shorter := List.length_filter_le (fun b => !b == a) as
          rw [← length, List.length_cons]
          omega

theorem mem_keys {key : Int} : key ∈ keys kernels ↔ ∃ k ∈ kernels, k.order = some key := by
  simp [keys, List.mem_filterMap]

/-- The keys ascend. -/
theorem keys_pairwise (kernels : List Kernel) : (keys kernels).Pairwise (· < ·) := by
  have sorted : (keys kernels).Pairwise (· ≤ ·) := by
    have pairwise : (keys kernels).Pairwise fun a b => decide (a ≤ b) :=
      List.pairwise_mergeSort (fun a b c => by simpa using Int.le_trans)
        (fun a b => by simpa using Int.le_total a b) _
    exact pairwise.imp fun le => by simpa using le
  have nodup : (keys kernels).Nodup :=
    (List.mergeSort_perm ..).nodup_iff.mpr (nodup_eraseDups _)
  exact (sorted.and nodup).imp fun ⟨le, ne⟩ => lt_of_le_of_ne le ne

/-! ## Kernels with a key -/

theorem mem_indicesOf {key : Option Int} {i : Nat} :
    i ∈ indicesOf kernels key ↔ ∃ k, kernels[i]? = some k ∧ k.order = key := by
  simp only [indicesOf, List.mem_map, List.mem_filter, Prod.exists, List.mem_zipIdx_iff_getElem?,
    beq_iff_eq]
  constructor
  · rintro ⟨k, _, ⟨found, order⟩, rfl⟩
    exact ⟨k, found, order⟩
  · rintro ⟨k, found, order⟩
    exact ⟨k, i, ⟨found, order⟩, rfl⟩

theorem indicesOf_nodup (kernels : List Kernel) (key : Option Int) :
    (indicesOf kernels key).Nodup := by
  have indices : (kernels.zipIdx.map (·.2)).Nodup := by
    rw [map_snd_zipIdx]
    exact List.nodup_range
  exact indices.sublist (List.filter_sublist.map _)

/-! ## Arranged kernels -/

/-- Kernels that are arranged all have a key, or none of them has one. -/
theorem ofKernels_eq_ok (arranged : ofKernels kernels = .ok s) :
    s.tiers = tiersOf kernels ∧
      ((∀ k ∈ kernels, k.order = none) ∨ ∀ k ∈ kernels, k.order.isSome) := by
  rw [ofKernels] at arranged
  cases found : kernels.find? (·.order.isSome) with
  | none =>
      simp only [found, Checked.pure_eq_ok] at arranged
      refine ⟨by rw [← arranged], .inl fun k mem => ?_⟩
      simpa using List.find?_eq_none.mp found k mem
  | some ordered =>
      simp only [found, Checked.bind_eq_ok, Checked.ofProblems_eq_ok, Checked.pure_eq_ok]
        at arranged
      obtain ⟨-, none, rfl⟩ := arranged
      refine ⟨rfl, .inr fun k mem => ?_⟩
      have ordered : kernels.filter (·.order.isNone) = [] := by
        simpa [unordered] using none
      have := List.filter_eq_nil_iff.mp ordered k mem
      simpa [Option.isSome_iff_ne_none] using this

/-- Kernels can be arranged if all of them have a key, or none has one. -/
theorem exists_ofKernels_iff (kernels : List Kernel) :
    (∃ s, ofKernels kernels = .ok s) ↔
      (∀ k ∈ kernels, k.order = none) ∨ ∀ k ∈ kernels, k.order.isSome := by
  refine ⟨fun ⟨_, arranged⟩ => (ofKernels_eq_ok arranged).2, fun alike => ?_⟩
  rw [ofKernels]
  cases found : kernels.find? (·.order.isSome) with
  | none => exact ⟨_, rfl⟩
  | some ordered =>
      have keyed := List.find?_some found
      have mem := List.mem_of_find?_eq_some found
      have all : ∀ k ∈ kernels, k.order.isSome := by
        refine alike.resolve_left fun none => ?_
        simp [none ordered mem] at keyed
      have none : unordered kernels ordered = [] := by
        simpa [unordered, Option.isSome_iff_ne_none] using all
      dsimp only
      rw [none]
      exact ⟨⟨tiersOf kernels⟩, rfl⟩

/-- The key of a tier comes before that of another one. -/
def Tier.Before (a b : Tier) : Prop :=
  ∃ x y, a.key = some x ∧ b.key = some y ∧ x < y

section Arranged

variable (arranged : ofKernels kernels = .ok s)

include arranged

/-- The tiers are one tier without a key, or one for each key. -/
theorem tiers_cases :
    s.tiers = [] ∨ s.tiers = [⟨none, indicesOf kernels none⟩] ∨
      s.tiers = (keys kernels).map fun key => ⟨some key, indicesOf kernels (some key)⟩ := by
  rw [(ofKernels_eq_ok arranged).1, tiersOf]
  split_ifs <;> simp

/-- The keys of the tiers ascend. -/
theorem tiers_pairwise : s.tiers.Pairwise Tier.Before := by
  rcases tiers_cases arranged with tiers | tiers | tiers <;> rw [tiers]
  · exact .nil
  · exact List.pairwise_singleton ..
  · exact List.pairwise_map.mpr ((keys_pairwise kernels).imp fun lt => ⟨_, _, rfl, rfl, lt⟩)

theorem tier_kernels {tier : Tier} (mem : tier ∈ s.tiers) :
    tier.kernels = indicesOf kernels tier.key := by
  rcases tiers_cases arranged with tiers | tiers | tiers <;> rw [tiers] at mem
  · simp at mem
  · rw [List.mem_singleton.mp mem]
  · obtain ⟨key, -, rfl⟩ := List.mem_map.mp mem
    rfl

/-- The list of a tier has a slot for some of the kernels. -/
theorem listLength_le (tier : Nat) : s.listLength tier ≤ kernels.length := by
  rw [listLength]
  cases found : s.tiers[tier]? with
  | none => exact Nat.zero_le _
  | some t =>
      have filtered := List.length_filter_le (fun x : Kernel × Nat => x.1.order == t.key)
        kernels.zipIdx
      rw [List.length_zipIdx] at filtered
      rw [Option.elim_some, tier_kernels arranged (List.mem_of_getElem? found), indicesOf,
        List.length_map]
      exact filtered

/-- Every kernel is in the tier of its key. -/
theorem exists_tier {k : Kernel} (mem : k ∈ kernels) : ∃ tier ∈ s.tiers, tier.key = k.order := by
  obtain ⟨tiers, unordered | ordered⟩ := ofKernels_eq_ok arranged
  · have all : kernels.all (·.order.isNone) := by simpa using unordered
    have ne : kernels ≠ [] := List.ne_nil_of_mem mem
    refine ⟨⟨none, indicesOf kernels none⟩, ?_, (unordered k mem).symm⟩
    simp [tiers, tiersOf, ne, all]
  · obtain ⟨key, order⟩ := Option.isSome_iff_exists.mp (ordered k mem)
    have ne : kernels ≠ [] := List.ne_nil_of_mem mem
    have keyed : kernels.all (·.order.isNone) = false :=
      List.all_eq_false.mpr ⟨k, mem, by simp [order]⟩
    refine ⟨⟨some key, indicesOf kernels (some key)⟩, ?_, order.symm⟩
    simp only [tiers, tiersOf, List.isEmpty_iff, ne, keyed, if_false, Bool.false_eq_true]
    exact List.mem_map.mpr ⟨key, mem_keys.mpr ⟨k, mem, order⟩, rfl⟩

/-- The key of a tier is that of a kernel. -/
theorem exists_kernel {tier : Tier} (mem : tier ∈ s.tiers) {key : Int}
    (tier_key : tier.key = some key) : ∃ k ∈ kernels, k.order = some key := by
  rcases tiers_cases arranged with tiers | tiers | tiers <;> rw [tiers] at mem
  · simp at mem
  · rw [List.mem_singleton.mp mem] at tier_key
    simp at tier_key
  · obtain ⟨key', known, rfl⟩ := List.mem_map.mp mem
    rw [← Option.some.inj tier_key]
    exact mem_keys.mp known

/-- Every kernel is in one tier, once. -/
theorem tiers_kernels_nodup : (s.tiers.flatMap (·.kernels)).Nodup := by
  refine List.nodup_flatMap.mpr ⟨fun tier mem => ?_, ?_⟩
  · rw [tier_kernels arranged mem]
    exact indicesOf_nodup ..
  · refine (tiers_pairwise arranged).imp_of_mem fun {a b} a_mem b_mem before => ?_
    obtain ⟨x, y, a_key, b_key, lt⟩ := before
    simp only [Function.onFun, tier_kernels arranged a_mem, tier_kernels arranged b_mem]
    intro i in_a in_b
    obtain ⟨k, found, order⟩ := mem_indicesOf.mp in_a
    obtain ⟨l, found', order'⟩ := mem_indicesOf.mp in_b
    obtain rfl := Option.some.inj (found.symm.trans found')
    rw [a_key] at order
    rw [b_key] at order'
    obtain rfl := Option.some.inj (order.symm.trans order')
    exact lt_irrefl _ lt

end Arranged

/-! ## Launches -/

theorem launchesOf_kernels (s : Schedule) (tier : Tier) (index : Nat) :
    (s.launchesOf tier index).map (·.kernel) = tier.kernels := by
  simp [launchesOf, Function.comp_def]

/-- The kernels are launched tier by tier. -/
theorem launches_kernels (s : Schedule) :
    s.launches.map (·.kernel) = s.tiers.flatMap (·.kernels) := by
  have byTier : s.launches.map (·.kernel) = s.tiers.zipIdx.flatMap fun x => x.1.kernels := by
    rw [launches, List.map_flatMap]
    exact List.flatMap_congr fun x _ => launchesOf_kernels s x.1 x.2
  rw [byTier, ← List.flatMap_map, List.zipIdx_map_fst]

/-- Every kernel is launched once. -/
theorem launches_kernels_nodup (arranged : ofKernels kernels = .ok s) :
    (s.launches.map (·.kernel)).Nodup := by
  rw [launches_kernels]
  exact tiers_kernels_nodup arranged

end KernelHost.Schedule
