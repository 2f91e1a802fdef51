import KernelHost.Proofs.Schedule.Timeline
import Mathlib.Data.Finset.Card
import Mathlib.Data.Finset.Sort

/-!
# The order of launches

The kernels of a schedule are launched in the stable order of their keys, and what a launch waits
for and signals follows from the keys alone: the number of smaller keys is its tier, and the number
of earlier kernels with its key is its slot.  So kernels with different keys are launched in the
same way however they are declared.
-/

namespace KernelHost.Schedule

variable {kernels kernels' : List Kernel} {s s' : Schedule}

/-! ## Orders and places, read off the keys -/

/-- Whether a kernel need not come behind another one; kernels without a key come first. -/
def inOrder (kernels : List Kernel) (i j : Nat) : Bool :=
  match keyOf kernels i, keyOf kernels j with
  | none, _ => true
  | some _, none => false
  | some x, some y => x ≤ y

/-- The different keys of kernels. -/
def keySet (kernels : List Kernel) : Finset Int :=
  (kernels.filterMap (·.order)).toFinset

/-- The number of keys below that of a kernel. -/
def rank (kernels : List Kernel) (i : Nat) : Nat :=
  (keyOf kernels i).elim 0 fun key => ((keySet kernels).filter (· < key)).card

/-- The number of kernels with the key of a kernel that are declared before it. -/
def placeInTier (kernels : List Kernel) (i : Nat) : Nat :=
  ((List.range i).filter fun j => keyOf kernels j = keyOf kernels i).length

/-- How a kernel is launched among others. -/
def launchOf (kernels : List Kernel) (i : Nat) : Launch where
  kernel := i
  wait := if rank kernels i = 0 then none else some (rank kernels i - 1)
  signal :=
    if rank kernels i < (keySet kernels).card - 1 then
      some (rank kernels i, placeInTier kernels i)
    else none

theorem inOrder_trans (kernels : List Kernel) (i j k : Nat) :
    inOrder kernels i j → inOrder kernels j k → inOrder kernels i k := by
  unfold inOrder
  cases keyOf kernels i <;> cases keyOf kernels j <;> cases keyOf kernels k <;> simp
  exact Int.le_trans

theorem inOrder_total (kernels : List Kernel) (i j : Nat) :
    inOrder kernels i j || inOrder kernels j i := by
  unfold inOrder
  cases keyOf kernels i <;> cases keyOf kernels j <;> simp
  exact Int.le_total ..

/-- Kernels that need not come behind each other have one key. -/
theorem keyOf_eq_of_inOrder {i j : Nat} :
    inOrder kernels i j → inOrder kernels j i → keyOf kernels i = keyOf kernels j := by
  unfold inOrder
  cases keyOf kernels i <;> cases keyOf kernels j <;> simp
  exact Int.le_antisymm

/-- A stable order of the kernels: by their keys, and by their declarations where keys are alike. -/
def Steady (kernels : List Kernel) (i j : Nat) : Prop :=
  inOrder kernels i j ∧ (inOrder kernels j i → i ≤ j)

/-- Sorting the indices by the keys of their kernels leaves those with one key in their order. -/
theorem steady_mergeSort (kernels : List Kernel) (n : Nat) :
    ((List.range n).mergeSort (inOrder kernels)).Pairwise (Steady kernels) := by
  have sorted := List.pairwise_mergeSort
    (List.zipIdxLE_trans (inOrder_trans kernels)) (List.zipIdxLE_total (inOrder_total kernels))
    (List.range n).zipIdx
  rw [← List.mergeSort_zipIdx]
  refine List.pairwise_map.mpr (sorted.imp_of_mem fun {a b} a_mem b_mem before => ?_)
  have index {x : Nat × Nat}
      (mem : x ∈ (List.range n).zipIdx.mergeSort (List.zipIdxLE (inOrder kernels))) :
      x.1 = x.2 := by
    have found := List.mem_zipIdx_iff_getElem?.mp (List.mem_mergeSort.mp mem)
    obtain ⟨_, here⟩ := List.getElem?_eq_some_iff.mp found
    simpa using here.symm
  rw [List.zipIdxLE] at before
  split_ifs at before with forth back
  · refine ⟨forth, fun _ => ?_⟩
    rw [index a_mem, index b_mem]
    exact of_decide_eq_true before
  · exact ⟨forth, fun other => absurd other back⟩

/-- Lists of the same kernels in a stable order are one list. -/
theorem eq_of_steady {is js : List Nat} (first : is.Pairwise (Steady kernels))
    (second : js.Pairwise (Steady kernels)) (perm : is.Perm js) : is = js :=
  List.Perm.eq_of_pairwise
    (fun _ _ _ _ forth back => Nat.le_antisymm (forth.2 back.1) (back.2 forth.1))
    first second perm

/-! ## Ranks and places -/

/-- The members of an ascending list below one of them are those in front of it. -/
theorem length_filter_lt {α : Type} [LinearOrder α] {as : List α} (ascending : as.Pairwise (· < ·))
    {a : α} {n : Nat} (found : as[n]? = some a) : (as.filter (· < a)).length = n := by
  induction as generalizing n with
  | nil => simp at found
  | cons b as ih =>
      obtain ⟨below, ascending⟩ := List.pairwise_cons.mp ascending
      cases n with
      | zero =>
          obtain rfl : b = a := by simpa using found
          have none : as.filter (· < b) = [] :=
            List.filter_eq_nil_iff.mpr fun c mem => by simpa using (below c mem).le
          simp [none]
      | succ n =>
          have found : as[n]? = some a := by simpa using found
          have first : b < a := below a (List.mem_of_getElem? found)
          simp [first, ih ascending found]

theorem filter_lt_range {i n : Nat} (inside : i ≤ n) :
    (List.range n).filter (· < i) = List.range i := by
  refine (List.pairwise_lt_range.filter _).eq_of_mem_iff List.pairwise_lt_range fun j => ?_
  simp only [List.mem_filter, List.mem_range, decide_eq_true_eq]
  omega

theorem indicesOf_eq (kernels : List Kernel) (key : Option Int) :
    indicesOf kernels key =
      (List.range kernels.length).filter fun i => keyOf kernels i = key := by
  have same : (kernels.zipIdx.filter fun x => x.1.order == key) =
      kernels.zipIdx.filter ((fun i => decide (keyOf kernels i = key)) ∘ (·.2)) := by
    refine List.filter_congr fun x mem => ?_
    have found := List.mem_zipIdx_iff_getElem?.mp mem
    simp [keyOf, found, Bool.beq_eq_decide_eq]
  rw [← map_snd_zipIdx, List.filter_map, ← same]
  rfl

/-- A kernel is behind as many kernels of its tier as are declared before it. -/
theorem placeInTier_eq {i slot : Nat} {key : Option Int}
    (found : (indicesOf kernels key)[slot]? = some i) : placeInTier kernels i = slot := by
  have mem := List.mem_of_getElem? found
  rw [indicesOf_eq] at found mem
  obtain ⟨inside, same⟩ := List.mem_filter.mp mem
  have ascending := (List.pairwise_lt_range (n := kernels.length)).filter
    fun i => decide (keyOf kernels i = key)
  rw [placeInTier, of_decide_eq_true same, ← length_filter_lt ascending found, List.filter_comm,
    filter_lt_range (List.mem_range.mp inside).le]

theorem keys_toFinset (kernels : List Kernel) : (keys kernels).toFinset = keySet kernels := by
  ext key
  simp [mem_keys, keySet, List.mem_filterMap]

theorem length_keys (kernels : List Kernel) : (keys kernels).length = (keySet kernels).card := by
  rw [← keys_toFinset, List.toFinset_card_of_nodup]
  exact (keys_pairwise kernels).imp ne_of_lt

section Arranged

variable (arranged : ofKernels kernels = .ok s)

include arranged

/-- The index of a tier is the number of keys below its key. -/
theorem rank_eq {t i : Nat} {tier : Tier} (found : s.tiers[t]? = some tier)
    (key : keyOf kernels i = tier.key) : rank kernels i = t := by
  rcases tiers_cases arranged with tiers | tiers | tiers <;> rw [tiers] at found
  · simp at found
  · obtain ⟨rfl, rfl⟩ : t = 0 ∧ tier = ⟨none, indicesOf kernels none⟩ := by
      cases t <;> simp_all
    rw [rank, key]
    rfl
  · rw [List.getElem?_map] at found
    obtain ⟨x, known, rfl⟩ := Option.map_eq_some_iff.mp found
    have distinct : ((keys kernels).filter (· < x)).Nodup :=
      ((keys_pairwise kernels).imp ne_of_lt).filter _
    rw [rank, key, Option.elim_some, ← length_filter_lt (keys_pairwise kernels) known,
      ← List.toFinset_card_of_nodup distinct, List.toFinset_filter, keys_toFinset]
    simp

theorem boundaries_eq : s.boundaries = (keySet kernels).card - 1 := by
  obtain ⟨tiers, _⟩ := ofKernels_eq_ok arranged
  rw [boundaries, tiers, tiersOf]
  split_ifs with empty unordered
  · simp_all [keySet]
  · have none : kernels.filterMap (·.order) = [] := by
      simpa [List.filterMap_eq_nil_iff] using unordered
    simp [keySet, none]
  · rw [List.length_map, length_keys]

/-- A launch is decided by the keys. -/
theorem eq_launchOf {l : Launch} (mem : l ∈ s.launches) : l = launchOf kernels l.kernel := by
  obtain ⟨tier, slot, found, inTier, signal⟩ := tier_of_mem_launches mem
  obtain ⟨tier', found', key⟩ := keyOf_eq arranged mem
  obtain rfl := Option.some.inj (found.symm.trans found')
  have rank := rank_eq arranged found key
  rw [tier_kernels arranged (List.mem_of_getElem? found)] at inTier
  have place := placeInTier_eq inTier
  obtain ⟨kernel, wait, _⟩ := l
  dsimp only at *
  rw [launchOf, signal, ← boundaries_eq arranged, rank, place]
  cases wait <;> simp [tierIndex]

/-- The tiers are the kernels of one rank. -/
theorem mem_tier_iff {t i : Nat} :
    (∃ tier, s.tiers[t]? = some tier ∧ i ∈ tier.kernels) ↔
      i < kernels.length ∧ rank kernels i = t := by
  constructor
  · rintro ⟨tier, found, mem⟩
    rw [tier_kernels arranged (List.mem_of_getElem? found)] at mem
    obtain ⟨k, kernel, order⟩ := mem_indicesOf.mp mem
    refine ⟨(List.getElem?_eq_some_iff.mp kernel).1, rank_eq arranged found ?_⟩
    rw [keyOf, kernel, ← order, Option.bind_some]
  · rintro ⟨inside, rfl⟩
    obtain ⟨place, l, at_place, rfl⟩ :=
      exists_launch_of_mem arranged (List.getElem?_eq_getElem inside)
    have mem := List.mem_of_getElem? at_place
    obtain ⟨tier, slot, found, inTier, -⟩ := tier_of_mem_launches mem
    obtain ⟨tier', found', key⟩ := keyOf_eq arranged mem
    obtain rfl := Option.some.inj (found.symm.trans found')
    exact ⟨tier, by rw [rank_eq arranged found key, found], List.mem_of_getElem? inTier⟩

theorem launches_kernels_perm : (s.launches.map (·.kernel)).Perm (List.range kernels.length) := by
  refine (List.perm_ext_iff_of_nodup (launches_kernels_nodup arranged) List.nodup_range).mpr
    fun i => ?_
  rw [launches_kernels, List.mem_range, List.mem_flatMap]
  constructor
  · rintro ⟨tier, mem, inTier⟩
    obtain ⟨t, found⟩ := List.mem_iff_getElem?.mp mem
    exact ((mem_tier_iff arranged).mp ⟨tier, found, inTier⟩).1
  · intro inside
    obtain ⟨tier, found, inTier⟩ := (mem_tier_iff arranged).mpr ⟨inside, rfl⟩
    exact ⟨tier, List.mem_of_getElem? found, inTier⟩

/-- The kernels are launched in a stable order. -/
theorem launches_kernels_steady : (s.launches.map (·.kernel)).Pairwise (Steady kernels) := by
  have keyed {tier : Tier} (mem : tier ∈ s.tiers) {i : Nat} (inTier : i ∈ tier.kernels) :
      keyOf kernels i = tier.key := by
    rw [tier_kernels arranged mem, indicesOf_eq] at inTier
    exact of_decide_eq_true (List.mem_filter.mp inTier).2
  rw [launches_kernels]
  refine List.pairwise_flatMap.mpr ⟨fun tier mem => ?_, ?_⟩
  · have ascending : tier.kernels.Pairwise (· < ·) := by
      rw [tier_kernels arranged mem, indicesOf_eq]
      exact List.pairwise_lt_range.filter _
    refine ascending.imp_of_mem fun {i j} i_mem j_mem before => ⟨?_, fun _ => before.le⟩
    unfold inOrder
    rw [keyed mem i_mem, keyed mem j_mem]
    cases tier.key <;> simp
  · refine (tiers_pairwise arranged).imp_of_mem fun {a b} a_mem b_mem before i i_mem j j_mem => ?_
    obtain ⟨x, y, a_key, b_key, lt⟩ := before
    have i_key := (keyed a_mem i_mem).trans a_key
    have j_key := (keyed b_mem j_mem).trans b_key
    refine ⟨by simp [inOrder, i_key, j_key, lt.le], fun back => ?_⟩
    simp [inOrder, i_key, j_key] at back
    exact absurd lt back.not_gt

/-- The launches are those of the kernels in their stable order. -/
theorem launches_eq :
    s.launches =
      ((List.range kernels.length).mergeSort (inOrder kernels)).map (launchOf kernels) := by
  have sorted : s.launches.map (·.kernel) =
      (List.range kernels.length).mergeSort (inOrder kernels) :=
    eq_of_steady (launches_kernels_steady arranged) (steady_mergeSort ..)
      ((launches_kernels_perm arranged).trans (List.mergeSort_perm ..).symm)
  rw [← sorted, List.map_map]
  conv_lhs => rw [← List.map_id s.launches]
  exact List.map_congr_left fun l mem => eq_launchOf arranged mem

end Arranged

/-! ## Slots -/

theorem nodup_slots (s : Schedule) : s.slots.Nodup := by
  refine List.nodup_flatMap.mpr ⟨fun tier _ => ?_, ?_⟩
  · exact List.nodup_range.map fun _ _ same => (Prod.mk.inj same).2
  · refine List.nodup_range.imp fun {t u} apart => List.disjoint_left.mpr ?_
    intro slot here there
    obtain ⟨_, -, rfl⟩ := List.mem_map.mp here
    obtain ⟨_, -, same⟩ := List.mem_map.mp there
    exact apart (Prod.mk.inj same).1.symm

/-- Each slot of a list is completed by one launch, and no other slot by any. -/
theorem countP_signal (s : Schedule) (t slot : Nat) :
    s.launches.countP (·.signal = some (t, slot)) =
      if t < s.boundaries ∧ slot < s.listLength t then 1 else 0 := by
  have counted := List.count_filterMap (l := s.launches) (f := Launch.signal) (b := (t, slot))
  rw [signals_launches, s.nodup_slots.count] at counted
  simpa [slots, Bool.beq_eq_decide_eq] using counted.symm

/-! ## Declarations in another order -/

section Distinct

variable (distinct : (kernels.map (·.order)).Nodup)

include distinct

/-- Kernels with different keys are told apart by them. -/
theorem eq_of_keyOf_eq {i j : Nat} (inside : i < kernels.length) (inside' : j < kernels.length)
    (same : keyOf kernels i = keyOf kernels j) : i = j := by
  refine (List.getElem?_inj (by simpa using inside) distinct).mp ?_
  simpa [keyOf, List.getElem?_eq_getElem, inside, inside'] using same

/-- No tier has a second place. -/
theorem placeInTier_eq_zero {i : Nat} (inside : i < kernels.length) :
    placeInTier kernels i = 0 := by
  have none : ((List.range i).filter fun j => keyOf kernels j = keyOf kernels i) = [] := by
    refine List.filter_eq_nil_iff.mpr fun j mem => ?_
    have before := List.mem_range.mp mem
    rw [decide_eq_true_eq]
    intro same
    exact before.ne (eq_of_keyOf_eq distinct (before.trans inside) inside same)
  rw [placeInTier, none, List.length_nil]

/-! ### Other indices for the same kernels -/

section Renamed

variable (perm : kernels'.Perm kernels) {origin : Nat → Nat}
  (renames : ∀ i < kernels'.length, kernels[origin i]? = kernels'[i]?)

include renames

omit distinct in
theorem keyOf_origin {i : Nat} (inside : i < kernels'.length) :
    keyOf kernels (origin i) = keyOf kernels' i := by
  rw [keyOf, renames i inside, keyOf]

omit distinct in
theorem origin_lt {i : Nat} (inside : i < kernels'.length) : origin i < kernels.length := by
  have here := renames i inside
  rw [List.getElem?_eq_getElem inside] at here
  exact (List.getElem?_eq_some_iff.mp here).1

include perm

theorem map_origin_perm :
    ((List.range kernels'.length).map origin).Perm (List.range kernels.length) := by
  have distinct' : (kernels'.map (·.order)).Nodup := (perm.map _).nodup_iff.mpr distinct
  have nodup : ((List.range kernels'.length).map origin).Nodup := by
    refine List.nodup_range.map_on fun i i_mem j j_mem same => ?_
    have inside := List.mem_range.mp i_mem
    have inside' := List.mem_range.mp j_mem
    refine eq_of_keyOf_eq distinct' inside inside' ?_
    rw [← keyOf_origin renames inside, ← keyOf_origin renames inside', same]
  refine (List.perm_ext_iff_of_nodup nodup List.nodup_range).mpr fun i => ?_
  simp only [List.mem_map, List.mem_range]
  constructor
  · rintro ⟨j, inside, rfl⟩
    exact origin_lt renames inside
  · intro inside
    obtain ⟨j, at_j⟩ := List.mem_iff_getElem?.mp (perm.mem_iff.mpr (List.getElem_mem inside))
    have inside' := (List.getElem?_eq_some_iff.mp at_j).1
    refine ⟨j, inside', eq_of_keyOf_eq distinct (origin_lt renames inside') inside ?_⟩
    rw [keyOf_origin renames inside', keyOf, keyOf, at_j, List.getElem?_eq_getElem inside]

/-- The stable order of the other indices is that of the indices they stand for. -/
theorem map_origin_mergeSort :
    ((List.range kernels'.length).mergeSort (inOrder kernels')).map origin =
      (List.range kernels.length).mergeSort (inOrder kernels) := by
  refine eq_of_steady (List.pairwise_map.mpr ?_) (steady_mergeSort ..) ?_
  · refine (steady_mergeSort ..).imp_of_mem fun {i j} i_mem j_mem before => ?_
    have inside := List.mem_range.mp (List.mem_mergeSort.mp i_mem)
    have inside' := List.mem_range.mp (List.mem_mergeSort.mp j_mem)
    have forth : inOrder kernels (origin i) (origin j) := by
      rw [inOrder, keyOf_origin renames inside, keyOf_origin renames inside']
      exact before.1
    refine ⟨forth, fun back => Nat.le_of_eq ?_⟩
    exact eq_of_keyOf_eq distinct (origin_lt renames inside) (origin_lt renames inside')
      (keyOf_eq_of_inOrder forth back)
  · exact ((List.mergeSort_perm ..).map origin).trans
      ((map_origin_perm distinct perm renames).trans (List.mergeSort_perm ..).symm)

theorem launchOf_origin {i : Nat} (inside : i < kernels'.length) :
    launchOf kernels (origin i) = { launchOf kernels' i with kernel := origin i } := by
  have distinct' : (kernels'.map (·.order)).Nodup := (perm.map _).nodup_iff.mpr distinct
  have keySet_eq : keySet kernels' = keySet kernels :=
    List.toFinset_eq_of_perm _ _ (perm.filterMap _)
  have rank_eq : rank kernels (origin i) = rank kernels' i := by
    rw [rank, rank, keyOf_origin renames inside, keySet_eq]
  rw [launchOf, launchOf, rank_eq, keySet_eq, placeInTier_eq_zero distinct' inside,
    placeInTier_eq_zero distinct (origin_lt renames inside)]

end Renamed

omit distinct in
theorem exists_origin (perm : kernels'.Perm kernels) :
    ∃ origin : Nat → Nat, ∀ i < kernels'.length, kernels[origin i]? = kernels'[i]? := by
  have found (i : Nat) : ∃ j : Nat, i < kernels'.length → kernels[j]? = kernels'[i]? := by
    by_cases inside : i < kernels'.length
    · obtain ⟨j, at_j⟩ := List.mem_iff_getElem?.mp (perm.mem_iff.mp (List.getElem_mem inside))
      exact ⟨j, fun _ => by rw [at_j, List.getElem?_eq_getElem inside]⟩
    · exact ⟨0, fun h => absurd h inside⟩
  exact Classical.skolem.mp found

/-- The kernels declared in another order are launched in the same way, but for their indices. -/
theorem exists_launches_eq_of_perm (arranged : ofKernels kernels = .ok s)
    (perm : kernels'.Perm kernels) :
    ∃ (s' : Schedule) (origin : Nat → Nat), ofKernels kernels' = .ok s' ∧
      (∀ i < kernels'.length, kernels[origin i]? = kernels'[i]?) ∧
      s.launches = s'.launches.map fun l => { l with kernel := origin l.kernel } := by
  obtain ⟨s', arranged'⟩ : ∃ s', ofKernels kernels' = .ok s' := by
    rw [exists_ofKernels_iff]
    simpa only [perm.mem_iff] using (exists_ofKernels_iff kernels).mp ⟨s, arranged⟩
  obtain ⟨origin, renames⟩ := exists_origin perm
  refine ⟨s', origin, arranged', renames, ?_⟩
  rw [launches_eq arranged, launches_eq arranged', ← map_origin_mergeSort distinct perm renames,
    List.map_map, List.map_map]
  exact List.map_congr_left fun i mem => launchOf_origin distinct perm renames
    (List.mem_range.mp (List.mem_mergeSort.mp mem))

end Distinct

/-! ## The whole order -/

/-- How a schedule follows from the keys of its kernels. -/
structure Follows (s : Schedule) (kernels : List Kernel) : Prop where
  /-- Each kernel is launched once, in the stable order of the keys. -/
  sorted : s.launches.map (·.kernel) = (List.range kernels.length).mergeSort (inOrder kernels)
  /-- There is a list between each key and the next. -/
  boundaries : s.boundaries = (keySet kernels).card - 1
  /-- A tier has the kernels with as many smaller keys as there are tiers in front of it. -/
  tiers : ∀ t i, (∃ tier, s.tiers[t]? = some tier ∧ i ∈ tier.kernels) ↔
    i < kernels.length ∧ rank kernels i = t
  /-- A launch waits for the list of the tier before its own, and completes a slot of its own. -/
  launches : ∀ l ∈ s.launches, l = launchOf kernels l.kernel
  /-- Each slot of a list is completed once, and nothing else is. -/
  slots : ∀ t slot, s.launches.countP (·.signal = some (t, slot)) =
    if t < s.boundaries ∧ slot < s.listLength t then 1 else 0

/-- Arranged kernels are launched as their keys ask for, and kernels with different keys in the same
way in whatever order they are declared. -/
theorem follows_of_ofKernels (arranged : ofKernels kernels = .ok s) :
    s.Follows kernels ∧
      ((kernels.map (·.order)).Nodup → ∀ kernels', kernels'.Perm kernels →
        ∃ (s' : Schedule) (origin : Nat → Nat), ofKernels kernels' = .ok s' ∧
          (∀ i < kernels'.length, kernels[origin i]? = kernels'[i]?) ∧
          s.launches = s'.launches.map fun l => { l with kernel := origin l.kernel }) := by
  refine ⟨?_, fun distinct kernels' perm => exists_launches_eq_of_perm distinct arranged perm⟩
  exact
    { sorted := by
        rw [launches_eq arranged, List.map_map]
        exact List.map_id _
      boundaries := boundaries_eq arranged
      tiers := fun _ _ => mem_tier_iff arranged
      launches := fun _ mem => eq_launchOf arranged mem
      slots := countP_signal s }

theorem follows_of_ofKernels_swapped :
    ∃ s, ofKernels [sampleKernel 2, sampleKernel 1] = .ok s ∧
      s.Follows [sampleKernel 2, sampleKernel 1] ∧
      ([sampleKernel 2, sampleKernel 1].map (·.order)).Nodup ∧
      ∃ (s' : Schedule) (origin : Nat → Nat),
        ofKernels [sampleKernel 1, sampleKernel 2] = .ok s' ∧
        (∀ i < 2, [sampleKernel 2, sampleKernel 1][origin i]? =
          [sampleKernel 1, sampleKernel 2][i]?) ∧
        s.launches = s'.launches.map fun l => { l with kernel := origin l.kernel } := by
  have keyed : ∀ k ∈ [sampleKernel 2, sampleKernel 1], k.order.isSome := by decide
  obtain ⟨s, arranged⟩ := (exists_ofKernels_iff _).mpr (.inr keyed)
  have distinct : ([sampleKernel 2, sampleKernel 1].map (·.order)).Nodup := by decide
  obtain ⟨follows, renamed⟩ := follows_of_ofKernels arranged
  exact ⟨s, arranged, follows, distinct, renamed distinct _ (.swap ..)⟩

end KernelHost.Schedule
