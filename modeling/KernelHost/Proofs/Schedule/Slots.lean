import KernelHost.Plan.Schedule
import Mathlib.Data.List.Basic

/-!
# Slots of completion lists

The launches of a schedule, tier by tier.  Those of each tier but the last complete the slots of its
list, each slot once and in order.
-/

namespace KernelHost.Schedule

variable (s : Schedule)

/-- The slots of all completion lists. -/
def slots : List (Nat × Nat) :=
  (List.range s.boundaries).flatMap fun tier =>
    (List.range (s.listLength tier)).map (tier, ·)

theorem listLength_eq {tier : Tier} {index : Nat} (found : s.tiers[index]? = some tier) :
    s.listLength index = tier.kernels.length := by
  simp [listLength, found]

/-- The indices of a list in order. -/
theorem map_snd_zipIdx {α : Type} (as : List α) : as.zipIdx.map (·.2) = List.range as.length := by
  rw [List.zipIdx_map_snd, List.range_eq_range']

theorem signals_launchesOf (tier : Tier) (index : Nat) :
    (s.launchesOf tier index).filterMap (·.signal) =
      if index < s.boundaries then (List.range tier.kernels.length).map (index, ·) else [] := by
  split_ifs with inside
  · rw [← map_snd_zipIdx, List.map_map]
    simp [launchesOf, inside, List.filterMap_map, Function.comp_def]
  · simp [launchesOf, inside]

/-- The launches complete the slots of all lists, each of them once. -/
theorem signals_launches : s.launches.filterMap (·.signal) = s.slots := by
  have byTier : s.launches.filterMap (·.signal) =
      (List.range s.tiers.length).flatMap fun index =>
        if index < s.boundaries then (List.range (s.listLength index)).map (index, ·) else [] := by
    rw [launches, List.filterMap_flatMap, ← map_snd_zipIdx, List.flatMap_map]
    refine List.flatMap_congr fun x mem => ?_
    rw [signals_launchesOf, s.listLength_eq (List.mem_zipIdx_iff_getElem?.mp mem)]
  rw [byTier, slots]
  obtain ⟨none, boundaries⟩ | boundaries : (s.tiers.length = 0 ∧ s.boundaries = 0) ∨
      s.tiers.length = s.boundaries + 1 := by
    rw [Schedule.boundaries]
    omega
  · simp [none, boundaries]
  · rw [boundaries, List.range_succ, List.flatMap_append]
    simp only [List.flatMap_singleton, Nat.lt_irrefl, if_false, List.append_nil]
    refine List.flatMap_congr fun tier mem => ?_
    rw [if_pos (List.mem_range.mp mem)]

end KernelHost.Schedule
