import KernelHost.Manifest.Check
import Mathlib.Data.List.Basic

/-!
# What is said about repetitions

A variable whose name occurs before is reported with the kernel of the declaration before it, in
words that promise the kernel of the first one.  The two are the same up to the second declaration
of a name.  An identifier that is derived again is reported with its first derivation, however often
that happens.
-/

namespace KernelHost

/-! ## Members with a condition -/

section Earlier

variable {α β γ : Type}

/-- Each member but the first is matched with the first one. -/
def againstFirst (f : α → α → β) : List α → List β
  | [] => []
  | first :: more => more.map (f first)

/-- Each member but the first is matched with the one right in front of it. -/
def againstPrevious (f : α → α → β) (as : List α) : List β :=
  List.zipWith f as as.tail

@[simp]
theorem map_againstFirst (g : β → γ) (f : α → α → β) (as : List α) :
    (againstFirst f as).map g = againstFirst (fun a b => g (f a b)) as := by
  cases as <;> simp [againstFirst]

@[simp]
theorem map_againstPrevious (g : β → γ) (f : α → α → β) (as : List α) :
    (againstPrevious f as).map g = againstPrevious (fun a b => g (f a b)) as :=
  List.map_zipWith

/-- To the members with a condition, those in front of them that lack it do not matter. -/
theorem withEarlier_go_filter (p : α → Bool) (earlier as : List α) :
    withEarlier.go (earlier.filter p) (as.filter p) =
      ((withEarlier.go earlier as).filter (p ·.1)).map fun x => (x.1, x.2.filter p) := by
  induction as generalizing earlier with
  | nil => rfl
  | cons a as ih =>
      have later := ih (a :: earlier)
      by_cases held : p a
      · rw [List.filter_cons_of_pos held] at later
        simp [withEarlier.go, held, later]
      · rw [List.filter_cons_of_neg held] at later
        simp [withEarlier.go, held, later]

theorem withEarlier_filter (p : α → Bool) (as : List α) :
    withEarlier (as.filter p) =
      ((withEarlier as).filter (p ·.1)).map fun x => (x.1, x.2.filter p) :=
  withEarlier_go_filter p [] as

theorem filterMap_nearest (f : α → α → β) (as : List α) :
    ((withEarlier as).filterMap fun x => x.2.head?.map (f · x.1)) = againstPrevious f as := by
  have behind (before : α) (earlier as : List α) :
      ((withEarlier.go (before :: earlier) as).filterMap fun x => x.2.head?.map (f · x.1)) =
        List.zipWith f (before :: as) as := by
    induction as generalizing before earlier with
    | nil => rfl
    | cons a as ih => simp [withEarlier.go, ih]
  cases as with
  | nil => rfl
  | cons a as => exact behind a [] as

theorem filterMap_farthest (f : α → α → β) (as : List α) :
    ((withEarlier as).filterMap fun x => x.2.getLast?.map (f · x.1)) = againstFirst f as := by
  have behind (first : α) (earlier as : List α) :
      ((withEarlier.go (earlier ++ [first]) as).filterMap fun x => x.2.getLast?.map (f · x.1)) =
        as.map (f first) := by
    induction as generalizing earlier with
    | nil => rfl
    | cons a as ih => simpa [withEarlier.go] using ih (a :: earlier)
  cases as with
  | nil => rfl
  | cons a as => exact behind a [] as

/-- Where nothing but a property of the earlier member matters, matching with the previous one is
matching with the first one if all but the last have the property of the first. -/
theorem zipWith_eq_map_iff {f : α → α → β} {P : α → Prop} {first : α}
    (same : ∀ before again, f before again = f first again ↔ P before) (a : α) (as : List α) :
    List.zipWith f (a :: as) as = as.map (f first) ↔ ∀ x ∈ (a :: as).dropLast, P x := by
  induction as generalizing a with
  | nil => simp
  | cons b as ih => simp [same, ih]

end Earlier

/-! ## Repeated variables and identifiers -/

namespace Problem

/-- Whether a problem is that a variable has a name which occurs before. -/
def repeats (name : String) : Problem → Bool
  | .duplicateVariable other _ => other == name
  | _ => false

/-- Whether a problem is that an identifier is derived again. -/
def rederives (name : String) : Problem → Bool
  | .ambiguousName other _ _ => other == name
  | _ => false

end Problem

/-- The report that a variable has the name of one in an earlier kernel. -/
def repetitionReport (name : String) (before again : Kernel × Variable) : Diagnostic where
  severity := .error
  message := s!"duplicate variable '{name}'"
  span := again.2.span
  notes := [s!"first declared in kernel '{before.1.name}'"]

/-- The report that an identifier is derived from something else, too. -/
def rederivationReport (name : String) (before again : Holder) : Diagnostic where
  severity := .error
  message := s!"generated name '{name}' is ambiguous"
  span := again.span
  notes := [s!"it is {before.text} and {again.text}"]
  help := some "rename the kernel or the variable"

namespace Manifest

variable (m : Manifest) (name : String)

/-- The variables of the host with a name, in the order of the text. -/
def declarations : List (Kernel × Variable) :=
  m.hostVariables.filter (·.2.name == name)

/-- What an identifier is derived for, in the order of the derivations. -/
def derivations : List Holder :=
  m.holders.filter (·.name == name)

/-- What is said about repeated variables with a name. -/
def repetitionReports : List Diagnostic :=
  (m.check.problems.filter (·.what.repeats name)).map At.error

/-- What is said about further derivations of an identifier. -/
def rederivationReports : List Diagnostic :=
  (m.check.problems.filter (·.what.rederives name)).map At.error

variable {m name}

section Kinds

variable {q : Problem → Bool}

theorem filter_repeatedKernels (kernel : ∀ again before, q (.duplicateKernel again before) = false)
    (argument : ∀ index again before, q (.argumentTwice index again before) = false) :
    m.repeatedKernels.filter (q ·.what) = [] := by
  rw [List.filter_eq_nil_iff]
  intro p mem
  simp only [repeatedKernels, repeatedArguments, List.mem_flatMap, List.mem_append,
    Option.mem_toList, Option.map_eq_some_iff, List.mem_filterMap] at mem
  obtain ⟨x, -, ⟨before, -, rfl⟩ | ⟨y, -, before, -, rfl⟩⟩ := mem
  · simp [kernel]
  · simp [argument]

theorem filter_ambiguousNames (holders : List Holder)
    (derivation : ∀ derived first again, q (.ambiguousName derived first again) = false) :
    (ambiguousNames holders).filter (q ·.what) = [] := by
  rw [List.filter_eq_nil_iff]
  intro p mem
  simp only [ambiguousNames, List.mem_filterMap, Option.map_eq_some_iff] at mem
  obtain ⟨x, -, first, -, rfl⟩ := mem
  simp [derivation]

theorem filter_takenVariables (holders : List Holder)
    (taken : ∀ declared clash, q (.variableClash declared clash) = false)
    (again : ∀ declared before, q (.duplicateVariable declared before) = false) :
    (m.takenVariables holders).filter (q ·.what) = [] := by
  rw [List.filter_eq_nil_iff]
  intro p mem
  simp only [takenVariables, List.mem_flatMap, List.mem_append, Option.mem_toList,
    Option.map_eq_some_iff] at mem
  obtain ⟨x, -, ⟨clash, -, rfl⟩ | ⟨before, -, rfl⟩⟩ := mem
  · simp [taken]
  · simp [again]

theorem filter_takenGenerators (holders : List Holder)
    (generator : ∀ taken clash, q (.generatorClash taken clash) = false) :
    (m.takenGenerators holders).filter (q ·.what) = [] := by
  rw [List.filter_eq_nil_iff]
  intro p mem
  obtain ⟨x, -, made⟩ := List.mem_filterMap.mp mem
  cases given : x.2.generator with
  | none => simp [given] at made
  | some taken =>
      cases found : m.generatorClash? holders taken with
      | none => simp [given, found] at made
      | some clash =>
          obtain rfl : ⟨.generatorClash taken clash, x.2.span⟩ = p := by
            simpa [given, found] using made
          simp [generator]

end Kinds

/-- Among the derivations of one identifier, each but the first is a problem. -/
theorem filter_rederives_ambiguousNames (holders : List Holder) :
    (ambiguousNames holders).filter (·.what.rederives name) =
      againstFirst (fun first h => ⟨.ambiguousName name first.text h.text, h.span⟩)
        (holders.filter (·.name == name)) := by
  rw [← filterMap_farthest, withEarlier_filter, List.filterMap_map, List.filterMap_filter,
    ambiguousNames, List.filter_filterMap]
  refine List.filterMap_congr fun x _ => ?_
  rw [Function.comp_apply, List.getLast?_filter]
  by_cases same : x.1.name = name
  · subst same
    cases found : x.2.reverse.find? (·.name == x.1.name) <;> simp [Problem.rederives, found]
  · cases found : x.2.reverse.find? (·.name == x.1.name) <;>
      simp [Problem.rederives, found, same]

/-- Among the declarations of one name, each but the first is a problem, which is put down to the
one before it. -/
theorem filter_repeats_takenVariables (holders : List Holder) :
    (m.takenVariables holders).filter (·.what.repeats name) =
      againstPrevious (fun before x => ⟨.duplicateVariable name before.1.name, x.2.span⟩)
        (m.declarations name) := by
  rw [declarations, ← filterMap_nearest, withEarlier_filter, List.filterMap_map,
    List.filterMap_filter, List.filterMap_eq_flatMap_toList, takenVariables, List.filter_flatMap]
  refine List.flatMap_congr fun x _ => ?_
  obtain ⟨⟨k, v⟩, earlier⟩ := x
  rw [Function.comp_apply, List.head?_filter]
  by_cases same : v.name = name
  · subst same
    cases clash : nameClash? holders v.name <;>
      cases found : earlier.find? (·.2.name == v.name) <;>
      simp [Problem.repeats, clash, found]
  · cases clash : nameClash? holders v.name <;>
      cases found : earlier.find? (·.2.name == v.name) <;>
      simp [Problem.repeats, clash, found, same]

theorem repetitionReports_eq : m.repetitionReports name =
    againstPrevious (repetitionReport name) (m.declarations name) := by
  rw [repetitionReports, check, Checked.problems_ofProblems, nameProblems, List.filter_append,
    List.filter_append, List.filter_append, filter_repeats_takenVariables,
    filter_repeatedKernels (fun _ _ => rfl) (fun _ _ _ => rfl),
    filter_ambiguousNames _ (fun _ _ _ => rfl), filter_takenGenerators _ (fun _ _ => rfl),
    List.append_nil, List.nil_append, List.nil_append, map_againstPrevious]
  rfl

theorem rederivationReports_eq : m.rederivationReports name =
    againstFirst (rederivationReport name) (m.derivations name) := by
  rw [rederivationReports, check, Checked.problems_ofProblems, nameProblems, List.filter_append,
    List.filter_append, List.filter_append, filter_rederives_ambiguousNames,
    filter_repeatedKernels (fun _ _ => rfl) (fun _ _ _ => rfl),
    filter_takenVariables _ (fun _ _ => rfl) (fun _ _ => rfl),
    filter_takenGenerators _ (fun _ _ => rfl), List.append_nil, List.append_nil, List.nil_append,
    map_againstFirst]
  rfl

theorem repetitionReport_eq_iff {before before' again : Kernel × Variable} :
    repetitionReport name before again = repetitionReport name before' again ↔
      before.1.name = before'.1.name := by
  simp only [repetitionReport, Diagnostic.mk.injEq, List.cons.injEq, and_true, true_and,
    String.append_left_inj, String.append_right_inj]
  exact .rfl

/-- Among the reports on the names of a manifest, those on the repeated variables with a name are
one for each of its declarations but the first, and tell the kernel of the declaration before it.
That is the kernel of the first one, as they say, exactly if all declarations but the last are in
kernels with one name.  Those on an identifier that is derived again are one for each derivation but
the first, and tell the first. -/
theorem repetitions_reported (m : Manifest) (name : String) :
    m.repetitionReports name = againstPrevious (repetitionReport name) (m.declarations name) ∧
      (m.repetitionReports name = againstFirst (repetitionReport name) (m.declarations name) ↔
        ∀ x ∈ (m.declarations name).dropLast,
          some x.1.name = (m.declarations name).head?.map (·.1.name)) ∧
      m.rederivationReports name = againstFirst (rederivationReport name) (m.derivations name) := by
  refine ⟨repetitionReports_eq, ?_, rederivationReports_eq⟩
  rw [repetitionReports_eq]
  cases m.declarations name with
  | nil => simp [againstFirst, againstPrevious]
  | cons first more =>
      have same (before again : Kernel × Variable) :
          repetitionReport name before again = repetitionReport name first again ↔
            some before.1.name = some first.1.name :=
        repetitionReport_eq_iff.trans Option.some_inj.symm
      exact zipWith_eq_map_iff same first more

end Manifest

/-- A manifest with one kernel for each name, all with an array of the same name. -/
def sharedManifest (array : String) (kernels : List String) : Manifest where
  settings := { program := .binary "p" }
  kernels := kernels.map fun name =>
    { name
      range := { dimensions := 1, globalSizes := "1", span := .nowhere }
      vars := [{ name := array, type := "int", members := 2, role := .input, argument := 0
                 span := .nowhere }]
      span := .nowhere }

example : ((sharedManifest "queue" ["k"]).rederivationReports "queueK").map (·.notes) =
    [["it is the command queue of kernel 'k' and the buffer of 'queue'"]] := by
  decide

/-- The third declaration of a name is reported as if the second one were the first. -/
theorem misattributed_of_check :
    let m := sharedManifest "a" ["f", "g", "h"]
    (m.declarations "a").map (·.1.name) = ["f", "g", "h"] ∧
      m.check.problems.map At.error = m.repetitionReports "a" ∧
      (m.repetitionReports "a").map (·.notes) =
        [["first declared in kernel 'f'"], ["first declared in kernel 'g'"]] ∧
      m.repetitionReports "a" ≠ againstFirst (repetitionReport "a") (m.declarations "a") := by
  decide

end KernelHost
