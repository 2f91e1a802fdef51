import KernelHost.Proofs.Plan.Acceptance
import KernelHost.Proofs.Text.Digits

/-!
# Names of vector types

A vector type is named by `cl_`, the stem of a scalar type, and the number of lanes.  Looking up a
name finds the types that are named like that, and it passes over zeros in front of the number; all
other names with `cl_` at the beginning and a digit at the end are refused.
-/

namespace KernelHost

namespace VectorType

/-- The vector types of the kernel language. -/
structure Registered (v : VectorType) : Prop where
  lane : v.lane ∈ laneTypes
  lanes : v.lanes ∈ laneCounts

/-- A vector type as it is written with zeros in front of the number of its lanes.  In the kernel
language it is written without zeros. -/
def spelling (v : VectorType) (zeros : Nat) : String :=
  "cl_" ++ v.lane.stem ++ String.ofList (List.replicate zeros '0') ++ toString v.lanes

/-- A name begins with `cl_` and ends in a digit. -/
def MarkedAndCounted (type : String) : Prop :=
  ∃ (stem : String) (digit : Char), digit.isDigit ∧ type = "cl_" ++ stem ++ String.singleton digit

theorem afterMark?_eq_some_iff {type : String} {rest : List Char} :
    afterMark? type = some rest ↔ type.toList = 'c' :: 'l' :: '_' :: rest := by
  unfold afterMark?
  split
  · rename_i more marked
    simp [marked]
  · rename_i unmarked
    simp only [reduceCtorEq, false_iff]
    exact unmarked rest

theorem isVectorLike_iff {type : String} : isVectorLike type ↔ MarkedAndCounted type := by
  rw [isVectorLike, MarkedAndCounted]
  constructor
  · intro like
    split at like
    · rename_i rest marked
      rw [afterMark?_eq_some_iff] at marked
      rcases rest.eq_nil_or_concat with rfl | ⟨front, d, rfl⟩
      · simp at like
      · refine ⟨.ofList front, d, by simpa using like, ?_⟩
        rw [← String.toList_inj, marked]
        simp
    · cases like
  · rintro ⟨stem, d, digit, rfl⟩
    have marked : afterMark? ("cl_" ++ stem ++ String.singleton d) = some (stem.toList ++ [d]) :=
      afterMark?_eq_some_iff.mpr (by simp)
    rw [marked]
    simpa using digit

/-- The scalar types are told apart by their stems, in which there are no digits. -/
theorem find?_stem_eq_some_iff {stem : String} {lane : LaneType} :
    laneTypes.find? (·.stem == stem) = some lane ↔ lane ∈ laneTypes ∧ lane.stem = stem := by
  have nodup : (laneTypes.map (·.stem)).Nodup := by decide
  constructor
  · intro found
    exact ⟨List.mem_of_find?_eq_some found, by simpa using List.find?_some found⟩
  · rintro ⟨mem, rfl⟩
    cases found : laneTypes.find? (·.stem == lane.stem) with
    | none => simpa using List.find?_eq_none.mp found lane mem
    | some other =>
        have same : other.stem = lane.stem := by simpa using List.find?_some found
        rw [List.inj_on_of_nodup_map nodup (List.mem_of_find?_eq_some found) mem same]

theorem not_isDigit_of_mem_stem {lane : LaneType} (mem : lane ∈ laneTypes) :
    ∀ c ∈ lane.stem.toList, !c.isDigit := by
  have all : laneTypes.all fun lane => lane.stem.toList.all (!·.isDigit) := by decide
  exact List.all_eq_true.mp (List.all_eq_true.mp all lane mem)

theorem toList_spelling (v : VectorType) (zeros : Nat) :
    (v.spelling zeros).toList = 'c' :: 'l' :: '_' :: (v.lane.stem.toList ++
      (List.replicate zeros '0' ++ Nat.toDigits 10 v.lanes)) := by
  simp [spelling]

/-- Looking up a name finds a vector type exactly if the type is written so, with zeros or without
them. -/
theorem ofName?_eq_some_iff {type : String} {v : VectorType} :
    ofName? type = some v ↔ v.Registered ∧ ∃ zeros, type = v.spelling zeros := by
  simp only [ofName?, Option.bind_eq_bind, Option.bind_eq_some_iff, afterMark?_eq_some_iff,
    Option.ite_none_right_eq_some, find?_stem_eq_some_iff]
  constructor
  · rintro ⟨rest, marked, lanes, read, counted, lane, ⟨mem, stem⟩, built⟩
    obtain rfl : ⟨lanes, lane⟩ = v := by simpa using built
    obtain ⟨zeros, digits⟩ := Text.digits?_eq_some_iff.mp read
    refine ⟨⟨mem, by simpa using counted⟩, zeros, ?_⟩
    have parted := List.prefix_iff_eq_append.mp (List.takeWhile_prefix (l := rest) (!·.isDigit))
    rw [← String.toList_inj, toList_spelling, marked, stem, ← digits, String.toList_ofList, parted]
  · rintro ⟨⟨mem, counted⟩, zeros, rfl⟩
    have digits : Text.digits? (List.replicate zeros '0' ++ Nat.toDigits 10 v.lanes) =
        some v.lanes := Text.digits?_eq_some_iff.mpr ⟨zeros, rfl⟩
    have stop : ∀ c ∈ (List.replicate zeros '0' ++ Nat.toDigits 10 v.lanes).head?,
        (!c.isDigit) = false := fun c first => by
      simp [Text.isDigit_of_mem_written (List.mem_of_mem_head? first)]
    obtain ⟨stem, -⟩ := Text.takeWhile_append_stop (not_isDigit_of_mem_stem mem) stop
    refine ⟨_, toList_spelling v zeros, v.lanes, ?_, by simpa using counted, v.lane,
      ⟨mem, ?_⟩, rfl⟩
    · rw [stem, List.drop_left, digits]
    · rw [stem, String.ofList_toList]

theorem length_spelling (v : VectorType) (zeros : Nat) :
    (v.spelling zeros).length = (v.spelling 0).length + zeros := by
  simp only [← String.length_toList, toList_spelling, List.length_cons, List.length_append,
    List.length_replicate]
  omega

/-- A name is found if and only if it is one of the kernel language, unless it is written with
zeros. -/
theorem named_iff_of_zeros {type : String} :
    (∀ v, ofName? type = some v ↔ v.Registered ∧ type = v.spelling 0) ↔
      ∀ v : VectorType, v.Registered → ∀ zeros, 0 < zeros → type ≠ v.spelling zeros := by
  constructor
  · rintro named v registered zeros positive rfl
    have found := ofName?_eq_some_iff.mpr ⟨registered, zeros, rfl⟩
    have same := congrArg String.length ((named v).mp found).2
    rw [length_spelling] at same
    omega
  · intro plain v
    rw [ofName?_eq_some_iff]
    refine and_congr_right fun registered => ⟨?_, fun same => ⟨0, same⟩⟩
    rintro ⟨zeros, same⟩
    obtain rfl : zeros = 0 := by
      by_contra other
      exact plain v registered zeros (Nat.pos_of_ne_zero other) same
    exact same

/-- A name looks like one of a vector type, but no vector type is written so. -/
def Misnamed (type : String) : Prop :=
  MarkedAndCounted type ∧ ∀ v : VectorType, v.Registered → ∀ zeros, type ≠ v.spelling zeros

theorem ofName?_eq_none_iff {type : String} :
    ofName? type = none ↔ ∀ v : VectorType, v.Registered → ∀ zeros, type ≠ v.spelling zeros := by
  simp only [Option.eq_none_iff_forall_ne_some, ne_eq, ofName?_eq_some_iff, not_and, not_exists]

theorem misnamed_iff {type : String} :
    Misnamed type ↔ isVectorLike type ∧ ofName? type = none := by
  rw [Misnamed, isVectorLike_iff, ofName?_eq_none_iff]

end VectorType

instance (type : String) : Decidable (VectorType.Misnamed type) :=
  decidable_of_iff _ VectorType.misnamed_iff.symm

/-- A variable is refused for its type exactly if that is named wrongly, whatever else there is to
say about the variable; a number of elements is looked at behind the type. -/
theorem Layout.problems_ofVariable_eq (v : Variable) (copies : Nat) :
    (ofVariable v copies).problems =
      if VectorType.Misnamed v.type then [⟨.unknownVector v.type, v.span⟩]
      else (v.countOverflow? copies).toList := by
  have unknown := VectorType.misnamed_iff.trans (and_comm (a := VectorType.isVectorLike v.type))
  rw [Plan.problems_ofVariable, Variable.misfit?, Variable.unknownVector?]
  by_cases named : VectorType.Misnamed v.type
  · rw [if_pos named, if_pos (unknown.mp named)]
    rfl
  · rw [if_neg named, if_neg (mt unknown.mpr named)]
    rfl

/-- Vector types are found by their names, with zeros in front of the number of lanes or without
them; names that only look so are refused, and no other ones.  The names that are found are those of
the kernel language unless such zeros stand in a name. -/
theorem vectors_found_or_refused (type : String) (v : Variable) (copies : Nat) :
    (∀ t, VectorType.ofName? type = some t ↔
      t.Registered ∧ ∃ zeros, type = t.spelling zeros) ∧
    ((∀ t, VectorType.ofName? type = some t ↔ t.Registered ∧ type = t.spelling 0) ↔
      ∀ t : VectorType, t.Registered → ∀ zeros, 0 < zeros → type ≠ t.spelling zeros) ∧
    (Layout.ofVariable v copies).problems =
      (if VectorType.Misnamed v.type then [⟨.unknownVector v.type, v.span⟩]
      else (v.countOverflow? copies).toList) ∧
    ((∃ l, Layout.ofVariable v copies = .ok l) ↔
      ¬ VectorType.Misnamed v.type ∧ (v.onHost → v.members * copies < twoTo 64)) := by
  refine ⟨fun _ => VectorType.ofName?_eq_some_iff, VectorType.named_iff_of_zeros,
    Layout.problems_ofVariable_eq v copies, ?_⟩
  rw [← Checked.problems_eq_nil_iff, Layout.problems_ofVariable_eq]
  by_cases named : VectorType.Misnamed v.type <;>
    simp [named, Variable.countOverflow?]

/-- A manifest with an array of a type that the kernel language does not have. -/
def paddedManifest : String :=
  "<k program='p'><kernel name='f'><input name='a' type='cl_int02' nmemb='2' arg='0'/>" ++
    "<ndrange><global>1</global></ndrange></kernel></k>"

set_option maxRecDepth 100000 in
/-- The manifest is accepted with the type `cl_int2`, though no vector type is written so. -/
theorem padded_of_generate :
    ∃ g m p, generate paddedManifest = .ok g ∧ Manifest.read paddedManifest = .ok m ∧
      Plan.ofManifest m = .ok p ∧ g.program = (Host.Program.ofPlan p).text ∧
      (∃ w ∈ p.hostPlaced, w.decl.type = "cl_int02") ∧
      VectorType.ofName? "cl_int02" = some ⟨2, ⟨"int", "int", 4⟩⟩ ∧
      ∀ v : VectorType, v.Registered → v.spelling 0 ≠ "cl_int02" := by
  obtain ⟨m, p, read, planned, holds⟩ := Plan.exists_planned paddedManifest
    (fun _ p => p.hostPlaced.any (·.decl.type == "cl_int02")) (by decide +kernel)
  have two : VectorType.ofName? "cl_int02" = some ⟨2, ⟨"int", "int", 4⟩⟩ := by decide
  have generated := Plan.generate_eq_ok.mpr ⟨m, p, read, planned, rfl⟩
  refine ⟨_, m, p, generated, read, planned, rfl, by simpa using holds, two,
    fun v registered same => ?_⟩
  have found : VectorType.ofName? "cl_int02" = some v :=
    VectorType.ofName?_eq_some_iff.mpr ⟨registered, 0, same.symm⟩
  obtain rfl := Option.some.inj (found.symm.trans two)
  revert same
  decide

end KernelHost
