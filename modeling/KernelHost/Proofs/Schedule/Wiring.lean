import KernelHost.Proofs.Schedule.Tiers

/-!
# Waits and signals

How launches are wired: which tier each belongs to, that it comes behind all launches of the tiers
before, and that it waits for the slots of exactly the launches of the tier before it.
-/

namespace KernelHost.Schedule

variable {kernels : List Kernel} {s : Schedule} {l l' : Launch} {place place' : Nat}

/-! ## The tier of a launch -/

/-- The index of the tier that a launch belongs to. -/
def tierIndex (l : Launch) : Nat :=
  l.wait.elim 0 (· + 1)

theorem wait_eq_some {tier : Nat} : l.wait = some tier ↔ tierIndex l = tier + 1 := by
  rw [tierIndex]
  cases l.wait <;> simp

theorem tierIndex_mk (kernel t : Nat) (signal : Option (Nat × Nat)) :
    tierIndex ⟨kernel, if 0 < t then some (t - 1) else none, signal⟩ = t := by
  rw [tierIndex]
  split_ifs with positive
  · exact Nat.sub_add_cancel positive
  · exact (Nat.eq_zero_of_not_pos positive).symm

/-- The launches, by their tiers and their slots. -/
theorem mem_launches :
    l ∈ s.launches ↔ ∃ t tier slot kernel, s.tiers[t]? = some tier ∧
      tier.kernels[slot]? = some kernel ∧
      l = { kernel
            wait := if 0 < t then some (t - 1) else none
            signal := if t < s.boundaries then some (t, slot) else none } := by
  simp only [launches, launchesOf, List.mem_flatMap, List.mem_map, Prod.exists,
    List.mem_zipIdx_iff_getElem?]
  constructor
  · rintro ⟨tier, t, found, kernel, slot, place, rfl⟩
    exact ⟨t, tier, slot, kernel, found, place, rfl⟩
  · rintro ⟨t, tier, slot, kernel, found, place, rfl⟩
    exact ⟨tier, t, found, kernel, slot, place, rfl⟩

/-- A launch is one of a kernel of its tier, and completes the slot of that kernel unless the tier
is the last one. -/
theorem tier_of_mem_launches (mem : l ∈ s.launches) :
    ∃ tier slot, s.tiers[tierIndex l]? = some tier ∧ tier.kernels[slot]? = some l.kernel ∧
      l.signal = if tierIndex l < s.boundaries then some (tierIndex l, slot) else none := by
  obtain ⟨t, tier, slot, kernel, found, inTier, rfl⟩ := mem_launches.mp mem
  rw [tierIndex_mk]
  exact ⟨tier, slot, found, inTier, rfl⟩

theorem tierIndex_lt_length (mem : l ∈ s.launches) : tierIndex l < s.tiers.length := by
  obtain ⟨_, _, found, -⟩ := tier_of_mem_launches mem
  exact (List.getElem?_eq_some_iff.mp found).1

/-- Every kernel of a tier is launched in it. -/
theorem exists_launch {t slot kernel : Nat} {tier : Tier} (found : s.tiers[t]? = some tier)
    (inTier : tier.kernels[slot]? = some kernel) :
    ∃ l ∈ s.launches, tierIndex l = t ∧ l.kernel = kernel ∧
      l.signal = if t < s.boundaries then some (t, slot) else none :=
  ⟨_, mem_launches.mpr ⟨t, tier, slot, kernel, found, inTier, rfl⟩, tierIndex_mk .., rfl, rfl⟩

/-- The launches come tier by tier. -/
theorem tierIndex_pairwise (s : Schedule) :
    s.launches.Pairwise fun l l' => tierIndex l ≤ tierIndex l' := by
  have inTier {tier : Tier} {t : Nat} {l : Launch} (mem : l ∈ s.launchesOf tier t) :
      tierIndex l = t := by
    obtain ⟨_, -, rfl⟩ := List.mem_map.mp mem
    exact tierIndex_mk ..
  have ascending : s.tiers.zipIdx.Pairwise fun x y => x.2 < y.2 := by
    have indices : (s.tiers.zipIdx.map (·.2)).Pairwise (· < ·) := by
      rw [map_snd_zipIdx]
      exact List.pairwise_lt_range
    exact List.pairwise_map.mp indices
  refine List.pairwise_flatMap.mpr ⟨fun x _ => ?_, ascending.imp fun lt l mem l' mem' => ?_⟩
  · exact List.pairwise_of_forall_mem_list fun l mem l' mem' =>
      Nat.le_of_eq ((inTier mem).trans (inTier mem').symm)
  · rw [inTier mem, inTier mem']
    exact Nat.le_of_lt lt

/-- The launches of a tier come before those of the tiers behind it. -/
theorem place_lt (at_place : s.launches[place]? = some l)
    (at_place' : s.launches[place']? = some l') (lt : tierIndex l < tierIndex l') : place < place' := by
  by_contra not_lt
  obtain ⟨inside, rfl⟩ := List.getElem?_eq_some_iff.mp at_place
  obtain ⟨inside', rfl⟩ := List.getElem?_eq_some_iff.mp at_place'
  obtain eq | gt := Nat.eq_or_lt_of_le (Nat.le_of_not_lt not_lt)
  · subst eq
    exact Nat.lt_irrefl _ lt
  · have le := List.pairwise_iff_getElem.mp (tierIndex_pairwise s) place' place inside' inside gt
    exact Nat.not_lt_of_le le lt

/-! ## Slots -/

/-- A launch that another tier comes behind completes a slot. -/
theorem exists_slot (mem : l ∈ s.launches) (mem' : l' ∈ s.launches)
    (lt : tierIndex l < tierIndex l') :
    ∃ slot < s.listLength (tierIndex l), l.signal = some (tierIndex l, slot) := by
  obtain ⟨tier, slot, found, inTier, signal⟩ := tier_of_mem_launches mem
  have inside : tierIndex l < s.boundaries := by
    have := tierIndex_lt_length mem'
    rw [boundaries]
    omega
  rw [if_pos inside] at signal
  refine ⟨slot, ?_, signal⟩
  rw [s.listLength_eq found]
  exact (List.getElem?_eq_some_iff.mp inTier).1

/-- A launch completes a slot of its own tier, that of its kernel. -/
theorem kernel_of_signal {t slot : Nat} (mem : l ∈ s.launches)
    (signal : l.signal = some (t, slot)) :
    tierIndex l = t ∧ ∃ tier, s.tiers[t]? = some tier ∧ tier.kernels[slot]? = some l.kernel := by
  obtain ⟨tier, slot', found, inTier, eq⟩ := tier_of_mem_launches mem
  rw [signal] at eq
  split_ifs at eq
  obtain ⟨rfl, rfl⟩ := Prod.mk.inj (Option.some.inj eq)
  exact ⟨rfl, tier, found, inTier⟩

/-- There is a list between the tier that a launch waits for and its own. -/
theorem lt_boundaries_of_wait {t : Nat} (mem : l ∈ s.launches) (wait : l.wait = some t) :
    t < s.boundaries := by
  have inside := tierIndex_lt_length mem
  rw [wait_eq_some.mp wait] at inside
  rw [boundaries]
  omega

/-- A launch completes a slot of a list. -/
theorem lt_listLength_of_signal {t slot : Nat} (mem : l ∈ s.launches)
    (signal : l.signal = some (t, slot)) : t < s.boundaries ∧ slot < s.listLength t := by
  obtain ⟨tier, slot', found, inTier, eq⟩ := tier_of_mem_launches mem
  rw [signal] at eq
  split_ifs at eq with inside
  obtain ⟨rfl, rfl⟩ := Prod.mk.inj (Option.some.inj eq)
  rw [s.listLength_eq found]
  exact ⟨inside, (List.getElem?_eq_some_iff.mp inTier).1⟩

/-- Each slot that a launch waits for is completed by a launch before it. -/
theorem exists_signal {t slot : Nat} (at_place' : s.launches[place']? = some l')
    (behind : tierIndex l' = t + 1) (inside : slot < s.listLength t) :
    ∃ place < place', ∃ l, s.launches[place]? = some l ∧ l.signal = some (t, slot) := by
  have length := tierIndex_lt_length (List.mem_of_getElem? at_place')
  have before : t < s.boundaries := by
    rw [boundaries]
    omega
  obtain ⟨tier, found⟩ : ∃ tier, s.tiers[t]? = some tier :=
    ⟨_, List.getElem?_eq_getElem (by omega)⟩
  rw [s.listLength_eq found] at inside
  obtain ⟨l, mem, index, -, signal⟩ := exists_launch found (List.getElem?_eq_getElem inside)
  obtain ⟨place, at_place⟩ := List.mem_iff_getElem?.mp mem
  refine ⟨place, place_lt at_place at_place' (by omega), l, at_place, ?_⟩
  rw [signal, if_pos before]

/-! ## Kernels and keys -/

/-- The key of the kernel with an index. -/
def keyOf (kernels : List Kernel) (i : Nat) : Option Int :=
  (kernels[i]?).bind (·.order)

section Arranged

variable (arranged : ofKernels kernels = .ok s)

include arranged

/-- Launches of one kernel are one launch. -/
theorem place_eq_of_kernel_eq (at_place : s.launches[place]? = some l)
    (at_place' : s.launches[place']? = some l') (same : l.kernel = l'.kernel) : place = place' := by
  have inside : place < (s.launches.map (·.kernel)).length := by
    simpa using (List.getElem?_eq_some_iff.mp at_place).1
  refine (List.getElem?_inj inside (launches_kernels_nodup arranged)).mp ?_
  rw [List.getElem?_map, List.getElem?_map, at_place, at_place', Option.map_some, Option.map_some,
    same]

/-- A slot is completed by one launch. -/
theorem place_eq_of_signal_eq {slot : Nat × Nat} (at_place : s.launches[place]? = some l)
    (at_place' : s.launches[place']? = some l') (signal : l.signal = some slot)
    (signal' : l'.signal = some slot) : place = place' := by
  obtain ⟨-, tier, found, inTier⟩ := kernel_of_signal (List.mem_of_getElem? at_place) signal
  obtain ⟨-, tier', found', inTier'⟩ := kernel_of_signal (List.mem_of_getElem? at_place') signal'
  obtain rfl := Option.some.inj (found.symm.trans found')
  have same := Option.some.inj (inTier.symm.trans inTier')
  exact place_eq_of_kernel_eq arranged at_place at_place' same

/-- Every kernel is launched. -/
theorem exists_launch_of_mem {i : Nat} {k : Kernel} (found : kernels[i]? = some k) :
    ∃ (place : Nat) (l : Launch), s.launches[place]? = some l ∧ l.kernel = i := by
  obtain ⟨tier, mem, key⟩ := exists_tier arranged (List.mem_of_getElem? found)
  obtain ⟨t, found_tier⟩ := List.mem_iff_getElem?.mp mem
  have inTier : i ∈ tier.kernels := by
    rw [tier_kernels arranged mem]
    exact mem_indicesOf.mpr ⟨k, found, key.symm⟩
  obtain ⟨slot, at_slot⟩ := List.mem_iff_getElem?.mp inTier
  obtain ⟨l, launched, -, kernel, -⟩ := exists_launch found_tier at_slot
  obtain ⟨place, at_place⟩ := List.mem_iff_getElem?.mp launched
  exact ⟨place, l, at_place, kernel⟩

/-- The key of a launch is that of its tier. -/
theorem keyOf_eq (mem : l ∈ s.launches) :
    ∃ tier, s.tiers[tierIndex l]? = some tier ∧ keyOf kernels l.kernel = tier.key := by
  obtain ⟨tier, slot, found, inTier, -⟩ := tier_of_mem_launches mem
  have kernel : l.kernel ∈ tier.kernels := List.mem_of_getElem? inTier
  rw [tier_kernels arranged (List.mem_of_getElem? found)] at kernel
  obtain ⟨k, at_kernel, order⟩ := mem_indicesOf.mp kernel
  exact ⟨tier, found, by rw [keyOf, at_kernel, ← order, Option.bind_some]⟩

/-- The launches of different tiers have different keys, in the order of the tiers. -/
theorem keyOf_lt (mem : l ∈ s.launches) (mem' : l' ∈ s.launches)
    (lt : tierIndex l < tierIndex l') :
    ∃ x y, keyOf kernels l.kernel = some x ∧ keyOf kernels l'.kernel = some y ∧ x < y := by
  obtain ⟨tier, found, key⟩ := keyOf_eq arranged mem
  obtain ⟨tier', found', key'⟩ := keyOf_eq arranged mem'
  obtain ⟨inside, rfl⟩ := List.getElem?_eq_some_iff.mp found
  obtain ⟨inside', rfl⟩ := List.getElem?_eq_some_iff.mp found'
  rw [key, key']
  exact List.pairwise_iff_getElem.mp (tiers_pairwise arranged) _ _ inside inside' lt

/-- The kernels with smaller keys are launched in tiers before. -/
theorem tierIndex_lt {x y : Int} (mem : l ∈ s.launches) (mem' : l' ∈ s.launches)
    (key : keyOf kernels l.kernel = some x) (key' : keyOf kernels l'.kernel = some y) (lt : x < y) :
    tierIndex l < tierIndex l' := by
  by_contra not_lt
  obtain eq | gt := Nat.eq_or_lt_of_le (Nat.le_of_not_lt not_lt)
  · obtain ⟨tier, found, tier_key⟩ := keyOf_eq arranged mem
    obtain ⟨tier', found', tier_key'⟩ := keyOf_eq arranged mem'
    rw [eq] at found'
    obtain rfl := Option.some.inj (found.symm.trans found')
    rw [key, ← tier_key', key'] at tier_key
    exact lt_irrefl x ((Option.some.inj tier_key) ▸ lt)
  · obtain ⟨y', x', key_y, key_x, gt⟩ := keyOf_lt arranged mem' mem gt
    rw [key'] at key_y
    rw [key] at key_x
    obtain rfl := Option.some.inj key_y
    obtain rfl := Option.some.inj key_x
    exact lt_asymm lt gt

/-- Every tier before that of a launch has launches. -/
theorem exists_launch_before {t : Nat} (mem : l' ∈ s.launches) (lt : t < tierIndex l') :
    ∃ l ∈ s.launches, tierIndex l = t := by
  have inside' := tierIndex_lt_length mem
  have inside : t < s.tiers.length := Nat.lt_trans lt inside'
  obtain ⟨x, -, key, -⟩ :=
    List.pairwise_iff_getElem.mp (tiers_pairwise arranged) t _ inside inside' lt
  obtain ⟨k, kernel, order⟩ := exists_kernel arranged (List.getElem_mem inside) key
  obtain ⟨i, at_kernel⟩ := List.mem_iff_getElem?.mp kernel
  have inTier : i ∈ s.tiers[t].kernels := by
    rw [tier_kernels arranged (List.getElem_mem inside), key]
    exact mem_indicesOf.mpr ⟨k, at_kernel, order⟩
  obtain ⟨slot, at_slot⟩ := List.mem_iff_getElem?.mp inTier
  obtain ⟨l, launched, index, -⟩ := exists_launch (List.getElem?_eq_getElem inside) at_slot
  exact ⟨l, launched, index⟩

end Arranged

end KernelHost.Schedule
