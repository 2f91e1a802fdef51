import KernelHost.Host.Header
import KernelHost.Proofs.Names.Captured
import KernelHost.Proofs.Text.Words

/-!
# What hooks are handed

The list of what a hook is handed is written down three times: in its prototype, in the
documentation of the prototypes, and in its call.  All three follow one table, which is read off the
manifest: each variable of the host and each reference copy, arrays followed by their element
counts, and the condition of the loop behind them for the hooks of each pass.
-/

namespace KernelHost

/-! ## Arguments as text -/

/-- The parts of a text between the separators, behind a part of one that is given backwards. -/
def splitArguments (part : List Char) : List Char → List (List Char)
  | [] => [part.reverse]
  | ',' :: ' ' :: cs => part.reverse :: splitArguments [] cs
  | c :: cs => splitArguments (c :: part) cs

/-- The arguments in a text, between the separators `, `; an empty text has none. -/
def argumentsIn (text : String) : List String :=
  if text = "" then [] else (splitArguments [] text.toList).map .ofList

theorem splitArguments_append {cs rest part : List Char} (plain : ',' ∉ cs) :
    splitArguments part (cs ++ rest) = splitArguments (cs.reverse ++ part) rest := by
  induction cs generalizing part with
  | nil => rfl
  | cons c cs ih =>
      obtain ⟨here, plain⟩ : ',' ≠ c ∧ ',' ∉ cs := by simpa using plain
      have step : splitArguments part (c :: (cs ++ rest)) =
          splitArguments (c :: part) (cs ++ rest) := by
        rw [splitArguments]
        exact fun _ comma => absurd comma.symm here
      rw [List.cons_append, step, ih plain, List.reverse_cons, List.append_assoc]
      rfl

theorem splitArguments_intercalate {cs : List Char} {parts : List (List Char)}
    (plain : ∀ p ∈ cs :: parts, ',' ∉ p) :
    splitArguments [] (", ".toList.intercalate (cs :: parts)) = cs :: parts := by
  induction parts generalizing cs with
  | nil =>
      have split : splitArguments [] (cs ++ []) = splitArguments (cs.reverse ++ []) [] :=
        splitArguments_append (plain cs List.mem_cons_self)
      simpa [splitArguments] using split
  | cons next parts ih =>
      obtain ⟨here, plain⟩ := List.forall_mem_cons.mp plain
      rw [List.intercalate_cons_cons, List.append_assoc, splitArguments_append here]
      have rest := ih plain
      simp_all [splitArguments]

/-- Arguments are found again between the separators. -/
theorem argumentsIn_intercalate {texts : List String} (filled : ∀ t ∈ texts, t ≠ "")
    (plain : ∀ t ∈ texts, ',' ∉ t.toList) : argumentsIn (", ".intercalate texts) = texts := by
  cases texts with
  | nil => rfl
  | cons t ts =>
      have nonempty : ", ".intercalate (t :: ts) ≠ "" := by
        cases ts <;> simp_all
      rw [argumentsIn, if_neg nonempty, String.toList_intercalate, List.map_cons,
        splitArguments_intercalate (by simpa using plain)]
      simp [Function.comp_def]

/-! ## The table -/

/-- The names of a variable and of its reference copy, if it has one. -/
def Variable.handedNames (v : Variable) : List String :=
  v.name :: if v.validated then [v.name ++ "C"] else []

/-- The names in prototypes for a value with a number of elements, and what is passed for them. -/
def handedAs (name : String) (count : Nat) : List (String × String) :=
  (name, name) :: if 1 < count then [(name ++ "Sz", toString count)] else []

/-- What hooks are handed for a variable, with the factor on its elements. -/
def Variable.handed (copies : Nat) (v : Variable) : List (String × String) :=
  v.handedNames.flatMap (handedAs · (v.members * copies))

/-- What a hook is handed, loop condition and all. -/
def Manifest.handed (m : Manifest) (hook : Hook) : List (String × String) :=
  m.hostVariables.flatMap (·.2.handed m.settings.copies) ++
    if hook.perPass then [("loopFlag", "loopFlag")] else []

namespace Signature

/-- The parameters of a variable of the host have its names and its number of elements. -/
theorem paramsOf_eq {v : Placed} {copies : Nat} (fits : v.layout.Fits v.decl copies)
    (onHost : v.decl.onHost) : ∃ type, paramsOf v =
      (.host v.decl.name :: if v.decl.validated then [.reference v.decl.name] else []).map
        fun var => ⟨var, type, v.decl.members * copies⟩ := by
  have known : (v.layout.role == .scratch) = false := by
    simpa [fits.role, Variable.onHost] using onHost
  have count : v.layout.storage.count = v.decl.members * copies := by
    simp [fits.storage, onHost]
  cases validated : v.decl.validated <;>
    exact ⟨_, by simp [paramsOf, known, count, fits.reference, validated]; rfl⟩

/-- Scratch memory is handed to no hook. -/
theorem paramsOf_eq_nil {v : Placed} {copies : Nat} (fits : v.layout.Fits v.decl copies)
    (scratch : v.decl.onHost = false) : paramsOf v = [] := by
  have unknown : (v.layout.role == .scratch) = true := by
    simpa [fits.role, Variable.onHost] using scratch
  simp [paramsOf, unknown]

end Signature

theorem flatMap_filter_of_silent {α β : Type} {as : List α} {p : α → Bool} {f : α → List β}
    (silent : ∀ a ∈ as, p a = false → f a = []) : (as.filter p).flatMap f = as.flatMap f := by
  induction as with
  | nil => rfl
  | cons a as ih =>
      simp only [List.forall_mem_cons] at silent
      cases kept : p a <;> simp_all

namespace Signature

/-- What parameters are handed over as. -/
def handed (s : Signature) : List (String × String) :=
  s.params.flatMap fun q => handedAs q.var.text q.count

theorem formalDocs_names (s : Signature) : s.formalDocs.map (·.1) = s.handed.map (·.1) := by
  have each (q : HookParam) :
      ((q.var.text, s!"variable ({q.type})") ::
        if q.counted then [(q.countName, "number of members in variable (unsigned int)")]
        else []).map (·.1) = (handedAs q.var.text q.count).map (·.1) := by
    by_cases array : 1 < q.count <;>
      simp [handedAs, HookParam.counted, HookParam.countName, array]
  simp only [formalDocs, handed, List.map_flatMap, each]

/-- The signature of a plan hands over the variables of the manifest. -/
theorem handed_eq {p : Plan} {m : Manifest} (arranged : p.Arranges m) :
    p.signature.handed = m.hostVariables.flatMap (·.2.handed m.settings.copies) := by
  have fits : ∀ v ∈ p.placed, v.layout.Fits v.decl m.settings.copies := by
    intro v mem
    obtain ⟨k, k_mem, v_mem⟩ := List.mem_flatMap.mp mem
    rw [← arranged.settings]
    exact (arranged.stands k k_mem v v_mem).layout
  have known : p.signature.params = p.hostPlaced.flatMap paramsOf := by
    rw [arranged.signature, ofPlaced, Plan.hostPlaced]
    exact (flatMap_filter_of_silent fun v mem => paramsOf_eq_nil (fits v mem)).symm
  have decls : (p.hostPlaced.map (·.decl)).flatMap (·.handed m.settings.copies) =
      (m.hostVariables.map (·.2)).flatMap (·.handed m.settings.copies) := by
    rw [arranged.hostPlaced_decls]
  rw [List.flatMap_map, List.flatMap_map] at decls
  rw [handed, known, List.flatMap_assoc, ← decls]
  refine List.flatMap_congr fun v mem => ?_
  obtain ⟨placed, onHost⟩ := List.mem_filter.mp mem
  obtain ⟨type, params⟩ := paramsOf_eq (fits v placed) onHost
  cases validated : v.decl.validated <;>
    simp [params, Variable.handed, Variable.handedNames, Code.Var.text, validated]

/-- The names in a prototype are those of the table. -/
theorem formalNames_eq {p : Plan} {m : Manifest} (arranged : p.Arranges m) (hook : Hook) :
    p.signature.formalNames hook.perPass = (m.handed hook).map (·.1) := by
  have each (q : HookParam) : (q.var.text :: if q.counted then [q.countName] else []) =
      (handedAs q.var.text q.count).map (·.1) := by
    by_cases array : 1 < q.count <;>
      simp [handedAs, HookParam.counted, HookParam.countName, array]
  simp only [formalNames, Manifest.handed, ← handed_eq arranged, handed, each, List.map_append,
    List.map_flatMap]
  cases hook <;> rfl

/-- What a call passes is what the table says. -/
theorem text_arguments {p : Plan} {m : Manifest} (arranged : p.Arranges m) (hook : Hook) :
    (p.signature.arguments hook.perPass).map (·.text) = (m.handed hook).map (·.2) := by
  have each (q : HookParam) :
      (Code.Expr.var q.var :: if q.counted then [.number q.count] else []).map (·.text) =
        (handedAs q.var.text q.count).map (·.2) := by
    by_cases array : 1 < q.count <;>
      simp [handedAs, HookParam.counted, Code.Expr.text, array]
  simp only [arguments, Manifest.handed, ← handed_eq arranged, handed, each, List.map_append,
    List.map_flatMap]
  cases hook <;> rfl

end Signature

/-! ## Names that are not that of the condition of the loop -/

theorem append_ne_loopFlag {text suffix : String} {c : Char}
    (last : suffix.toList.getLast? = some c) (apart : c ≠ 'g') : text ++ suffix ≠ "loopFlag" := by
  intro same
  have ends := congrArg (·.toList.getLast?) same
  simp [last, apart] at ends

theorem toString_ne_loopFlag (n : Nat) : toString n ≠ "loopFlag" := by
  intro same
  have letters : Nat.toDigits 10 n = "loopFlag".toList := by
    rw [← same]
    simp
  have mem : 'l' ∈ Nat.toDigits 10 n := by simp [letters]
  exact absurd (Nat.isDigit_of_mem_toDigits (by decide) (by decide) mem) (by decide)

namespace Manifest

variable {source : String} {m : Manifest} (read : Manifest.read source = .ok m)

include read

/-- The names in the table and what is passed for them are words, and none of them is the name of
the loop condition. -/
theorem word_of_mem_handed {x : String × String}
    (mem : x ∈ m.hostVariables.flatMap (·.2.handed m.settings.copies)) :
    IsWord x.1 ∧ IsWord x.2 ∧ x.1 ≠ "loopFlag" ∧ x.2 ≠ "loopFlag" := by
  obtain ⟨y, y_mem, of⟩ := List.mem_flatMap.mp mem
  obtain ⟨name, name_mem, of⟩ := List.mem_flatMap.mp of
  have gives : Host.Gives m y.2.name := ⟨y, y_mem, .inl rfl⟩
  have word := IsWord.of_isIdentifier (Host.isIdentifier_of_gives read gives)
  have other : y.2.name ≠ "loopFlag" := by
    intro same
    have free := Host.nameClash?_eq_none_of_gives (admitted_of_read read) gives
    rw [same] at free
    exact (nameClash?_eq_none_iff.mp free).2.2.1 (by simp [reservedNames])
  have named : IsWord name ∧ name ≠ "loopFlag" := by
    simp only [Variable.handedNames, List.mem_cons] at name_mem
    obtain rfl | name_mem := name_mem
    · exact ⟨word, other⟩
    · split at name_mem
      · obtain rfl := List.mem_singleton.mp name_mem
        exact ⟨word.append rfl, append_ne_loopFlag (c := 'C') rfl (by decide)⟩
      · simp at name_mem
  simp only [handedAs, List.mem_cons] at of
  obtain rfl | of := of
  · exact ⟨named.1, named.1, named.2, named.2⟩
  · split at of
    · obtain rfl := List.mem_singleton.mp of
      exact ⟨named.1.append rfl, .toString _, append_ne_loopFlag (c := 'z') rfl (by decide),
        toString_ne_loopFlag _⟩
    · simp at of

theorem words_of_mem_handed {hook : Hook} {x : String × String} (mem : x ∈ m.handed hook) :
    IsWord x.1 ∧ IsWord x.2 := by
  obtain mem | mem := List.mem_append.mp mem
  · have word := word_of_mem_handed read mem
    exact ⟨word.1, word.2.1⟩
  · have flag : IsWord "loopFlag" := .of_isIdentifier (by decide)
    split at mem
    · obtain rfl := List.mem_singleton.mp mem
      exact ⟨flag, flag⟩
    · simp at mem

/-- The columns of the table are found again between the separators. -/
theorem argumentsIn_handed (hook : Hook) :
    argumentsIn (", ".intercalate ((m.handed hook).map (·.1))) = (m.handed hook).map (·.1) ∧
      argumentsIn (", ".intercalate ((m.handed hook).map (·.2))) = (m.handed hook).map (·.2) := by
  have column (f : String × String → String) (words : ∀ x ∈ m.handed hook, IsWord (f x)) :
      argumentsIn (", ".intercalate ((m.handed hook).map f)) = (m.handed hook).map f :=
    argumentsIn_intercalate (List.forall_mem_map.mpr fun x mem => (words x mem).filled)
      (List.forall_mem_map.mpr fun x mem => (words x mem).not_mem (by decide))
  exact ⟨column _ fun x mem => (words_of_mem_handed read mem).1,
    column _ fun x mem => (words_of_mem_handed read mem).2⟩

end Manifest

/-! ## The condition of the loop -/

/-- The condition of the loop is handed over last, to the hooks of each pass only. -/
def LoopFlagLast (hook : Hook) (texts : List String) : Prop :=
  ∀ i, texts[i]? = some "loopFlag" ↔ hook.perPass ∧ i + 1 = texts.length

theorem loopFlagLast_append {hook : Hook} {texts : List String} (other : "loopFlag" ∉ texts) :
    LoopFlagLast hook (texts ++ if hook.perPass then ["loopFlag"] else []) := by
  intro i
  have before : texts[i]? ≠ some "loopFlag" := fun found => other (List.mem_of_getElem? found)
  cases perPass : hook.perPass with
  | false => simpa using before
  | true =>
      rcases Nat.lt_trichotomy i texts.length with inside | rfl | behind
      · rw [if_pos rfl, List.getElem?_append_left inside]
        simp only [before, List.length_append, List.length_singleton, true_and, false_iff]
        omega
      · simp
      · rw [if_pos rfl, List.getElem?_eq_none (by simp; omega)]
        simp only [List.length_append, List.length_singleton, reduceCtorEq, true_and, false_iff]
        omega

namespace Manifest

theorem map_handed (m : Manifest) (hook : Hook) {f : String × String → String}
    (flag : f ("loopFlag", "loopFlag") = "loopFlag") :
    (m.handed hook).map f = (m.hostVariables.flatMap (·.2.handed m.settings.copies)).map f ++
      if hook.perPass then ["loopFlag"] else [] := by
  rw [handed, List.map_append, apply_ite (List.map f), List.map_singleton, flag, List.map_nil]

variable {source : String} {m : Manifest} (read : Manifest.read source = .ok m)

include read

theorem loopFlag_not_mem :
    "loopFlag" ∉ (m.hostVariables.flatMap (·.2.handed m.settings.copies)).map (·.1) ∧
      "loopFlag" ∉ (m.hostVariables.flatMap (·.2.handed m.settings.copies)).map (·.2) := by
  constructor
  · intro mem
    obtain ⟨x, x_mem, same⟩ := List.mem_map.mp mem
    exact (word_of_mem_handed read x_mem).2.2.1 same
  · intro mem
    obtain ⟨x, x_mem, same⟩ := List.mem_map.mp mem
    exact (word_of_mem_handed read x_mem).2.2.2 same

/-- The condition of the loop stands at the end of a column, or not at all. -/
theorem column_handed (hook : Hook) :
    (LoopFlagLast hook ((m.handed hook).map (·.1)) ∧
        LoopFlagLast hook ((m.handed hook).map (·.2))) ∧
      ((m.handed hook).map (·.1)).filter (· ≠ "loopFlag") =
        (m.hostVariables.flatMap (·.2.handed m.settings.copies)).map (·.1) := by
  obtain ⟨names, texts⟩ := loopFlag_not_mem read
  rw [map_handed m hook rfl, map_handed m hook rfl]
  refine ⟨⟨loopFlagLast_append names, loopFlagLast_append texts⟩, ?_⟩
  rw [List.filter_append, List.filter_eq_self.mpr fun name mem => ?_]
  · cases hook <;> simp [Hook.perPass]
  · simpa using ne_of_mem_of_not_mem mem names

end Manifest

end KernelHost
