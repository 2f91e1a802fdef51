import KernelHost.Generation
import KernelHost.Proofs.Code.Called
import KernelHost.Proofs.Names.Derived

/-!
# Distinct names

The names that `main` declares are told apart, whatever the manifest is, and none of them is a word
of C or the name of a generator that the program calls.  The names of the manifest are kept apart
from all others by the checks; the others are kept apart from one another by how they begin and end.
-/

namespace KernelHost

open Code (Callee Stmt Var gather gather_cons)

/-! ## How names begin and end -/

theorem tierDone_toList (tier : Nat) :
    (Var.tierDone tier).text.toList =
      't' :: 'i' :: 'e' :: 'r' :: (Nat.toDigits 10 tier ++ "Done".toList) := by
  have text : (Var.tierDone tier).text = "tier" ++ tier.repr ++ "Done" := rfl
  simp [text, String.toList_append]

/-- The names of completion lists are recognized. -/
theorem isTierList_tierDone (tier : Nat) : isTierList (Var.tierDone tier).text := by
  have digits : ∀ c ∈ Nat.toDigits 10 tier, c.isDigit := fun c mem =>
    Nat.isDigit_of_mem_toDigits (by decide) (by decide) mem
  have taken : (Nat.toDigits 10 tier ++ "Done".toList).takeWhile Char.isDigit =
      Nat.toDigits 10 tier := by
    rw [List.takeWhile_append_of_pos digits]
    simp
  rw [isTierList]
  simp only [tierDone_toList, taken, List.drop_left]
  simp

theorem tierDone_text_injective : Function.Injective fun tier => (Var.tierDone tier).text := by
  intro s t equal
  have lists := congrArg String.toList equal
  simp only [tierDone_toList, List.cons.injEq, true_and] at lists
  have digits := List.append_cancel_right lists
  simpa using congrArg (Nat.ofDigitChars 10 · 0) digits

/-- The name of a completion list begins and ends in fixed words. -/
theorem affixes_of_isTierList {name : String} (list : isTierList name) :
    "tier".toList <+: name.toList ∧ "Done".toList <:+ name.toList := by
  rw [isTierList] at list
  split at list
  · rename_i rest split
    simp only [Bool.and_eq_true, beq_iff_eq] at list
    rw [split, ← list.2]
    refine ⟨⟨rest, rfl⟩, ?_⟩
    exact (List.drop_suffix _ rest).trans (List.suffix_append ['t', 'i', 'e', 'r'] rest)
  · simp at list

/-- The words that derived names begin in, one for each part of a kernel. -/
def kernelAffixes : List String :=
  ["queue", "kernel", "workDim", "globalSize", "localSize"]

/-- The words that derived names end in, one for each part of a variable. -/
def variableAffixes : List String :=
  ["K", "C", "Epsilon"]

/-- A name has the look of a derived one. -/
def LooksDerived (name : String) : Prop :=
  (∃ word ∈ kernelAffixes, word.toList <+: name.toList) ∨
    ∃ word ∈ variableAffixes, word.toList <:+ name.toList

instance (name : String) : Decidable (LooksDerived name) :=
  inferInstanceAs (Decidable (_ ∨ _))

theorem Holder.looksDerived (h : Holder) : LooksDerived h.name := by
  cases h with
  | ofKernel k part =>
      left
      cases part <;>
        simp [kernelAffixes, Holder.name, Holder.var, KernelPart.var, Var.text,
          String.toList_append]
  | ofVariable v part =>
      right
      cases part <;>
        simp [variableAffixes, Holder.name, Holder.var, VariablePart.var, Var.text,
          String.toList_append]

/-- Reserved names and the words of C neither look like derived names nor like completion lists, and
no name is both reserved and a word of C. -/
theorem reservedNames_apart :
    (∀ name ∈ reservedNames ++ Text.keywords, ¬ LooksDerived name ∧ ¬ isTierList name) ∧
      ∀ name ∈ reservedNames, name ∉ Text.keywords := by
  decide +kernel

theorem not_looksDerived_of_mem {name : String}
    (mem : name ∈ reservedNames ++ Text.keywords) : ¬ LooksDerived name :=
  (reservedNames_apart.1 name mem).1

theorem not_isTierList_of_mem {name : String} (mem : name ∈ reservedNames ++ Text.keywords) :
    ¬ isTierList name :=
  (reservedNames_apart.1 name mem).2

/-- The words that derived names begin or end in are told apart from those of completion lists. -/
theorem not_looksDerived_of_isTierList {name : String} (list : isTierList name) :
    ¬ LooksDerived name := by
  have fronts : ∀ word ∈ kernelAffixes,
      ¬ ("tier".toList <+: word.toList ∨ word.toList <+: "tier".toList) := by
    decide
  have ends : ∀ word ∈ variableAffixes,
      ¬ ("Done".toList <:+ word.toList ∨ word.toList <:+ "Done".toList) := by
    decide
  obtain ⟨front, behind⟩ := affixes_of_isTierList list
  rintro (⟨word, mem, begins⟩ | ⟨word, mem, finishes⟩)
  · exact fronts word mem (List.prefix_or_prefix_of_prefix front begins)
  · exact ends word mem (List.suffix_or_suffix_of_suffix behind finishes)

/-! ## Variables with fixed names -/

namespace Host

/-- Fixed names are told apart, and all of them are reserved. -/
theorem texts_allFixedVars :
    (allFixedVars.map Var.text).Nodup ∧ ∀ v ∈ allFixedVars, v.text ∈ reservedNames := by
  decide

theorem text_mem_of_mem_fixedVars {p : Plan} {v : Var} (mem : v ∈ fixedVars p) :
    v.text ∈ reservedNames :=
  texts_allFixedVars.2 v ((fixedVars_sublist p).subset mem)

theorem nodup_fixedVars (p : Plan) : ((fixedVars p).map Var.text).Nodup :=
  texts_allFixedVars.1.sublist ((fixedVars_sublist p).map Var.text)

theorem nodup_tierVars (p : Plan) : ((tierVars p).map Var.text).Nodup := by
  rw [tierVars, List.map_map]
  exact List.nodup_range.map tierDone_text_injective

theorem isTierList_of_mem_tierVars {p : Plan} {v : Var} (mem : v ∈ tierVars p) :
    isTierList v.text := by
  obtain ⟨tier, -, rfl⟩ := List.mem_map.mp mem
  exact isTierList_tierDone tier

/-! ## Names of the manifest -/

/-- A name is free for something of the manifest: nothing else of the program has it. -/
structure Free (p : Plan) (name : String) : Prop where
  /-- It is no word of C. -/
  not_keyword : ¬ Text.isKeyword name
  /-- It is not one of the names that the program always uses. -/
  not_reserved : name ∉ reservedNames
  /-- It is not the name of a completion list. -/
  not_tierList : ¬ isTierList name
  /-- It is not derived from a kernel or a variable. -/
  not_derived : name ∉ (derivedVars p).map Var.text

/-- What the checks of a manifest say about the names of its host program. -/
structure NamesApart (p : Plan) : Prop where
  /-- Derived names are told apart. -/
  derived_nodup : ((derivedVars p).map Var.text).Nodup
  /-- Derived names have the look of derived ones. -/
  derived_look : ∀ v ∈ derivedVars p, LooksDerived v.text
  variable_free : ∀ v ∈ p.hostPlaced, Free p v.decl.name
  /-- So are those of generators. -/
  generator_free : ∀ v ∈ p.hostPlaced, ∀ name ∈ v.decl.generator, Free p name
  /-- No generator has the name of a variable. -/
  generator_ne : ∀ v ∈ p.hostPlaced, ∀ name ∈ v.decl.generator,
    ∀ w ∈ p.hostPlaced, w.decl.name ≠ name

theorem namesApart {p : Plan} {m : Manifest} (arranged : p.Arranges m) (admitted : m.Admitted) :
    NamesApart p := by
  have derived := holders_vars arranged admitted
  have derived_names : (derivedVars p).map Var.text = m.holders.map (·.name) := by
    rw [← derived, List.map_map]
    rfl
  have none := admitted.nameProblems_eq_nil
  simp only [Manifest.nameProblems, List.append_eq_nil_iff, Manifest.ambiguousNames_eq_nil_iff,
    Manifest.takenVariables_eq_nil_iff, Manifest.takenGenerators_eq_nil_iff] at none
  obtain ⟨⟨⟨-, apart⟩, taken, -⟩, generators⟩ := none
  have free {name : String} (unclashing : nameClash? m.holders name = .none) : Free p name := by
    obtain ⟨keyword, -, reserved, list, holders⟩ := nameClash?_eq_none_iff.mp unclashing
    refine ⟨keyword, reserved, list, fun mem => ?_⟩
    rw [derived_names] at mem
    obtain ⟨h, h_mem, same⟩ := List.mem_map.mp mem
    exact holders h h_mem same
  have known {v : Placed} (mem : v ∈ p.hostPlaced) : ∃ x ∈ m.hostVariables, x.2 = v.decl := by
    have decl : v.decl ∈ m.hostVariables.map (·.2) := by
      rw [← arranged.hostPlaced_decls]
      exact List.mem_map_of_mem mem
    exact List.mem_map.mp decl
  refine
    { derived_nodup := derived_names ▸ apart
      derived_look := fun v mem => ?_
      variable_free := fun v mem => ?_
      generator_free := fun v mem name given => ?_
      generator_ne := fun v mem name given w w_mem => ?_ }
  · rw [← derived] at mem
    obtain ⟨h, -, rfl⟩ := List.mem_map.mp mem
    exact h.looksDerived
  · obtain ⟨x, x_mem, decl⟩ := known mem
    rw [← decl]
    exact free (taken x x_mem)
  · obtain ⟨x, x_mem, decl⟩ := known mem
    rw [← decl] at given
    exact free (Manifest.generatorClash?_eq_none_iff.mp (generators x x_mem name given)).1
  · obtain ⟨x, x_mem, decl⟩ := known mem
    obtain ⟨y, y_mem, other⟩ := known w_mem
    rw [← decl] at given
    rw [← other]
    exact (Manifest.generatorClash?_eq_none_iff.mp (generators x x_mem name given)).2 y y_mem

/-! ## All names together -/

/-- The names of a block are told apart. -/
structure NamesDistinct (ss : List Stmt) : Prop where
  /-- Declared names are pairwise distinct. -/
  nodup : ((gather Stmt.declares ss).map Var.text).Nodup
  /-- No declared name is a word of C. -/
  not_keyword : ∀ v ∈ gather Stmt.declares ss, v.text ∉ Text.keywords
  /-- No declared name is that of a generator that is called. -/
  not_generator : ∀ v ∈ gather Stmt.declares ss, ∀ name,
    Callee.generator name ∈ gather Stmt.calls ss → v.text ≠ name

/-- A free name is none of those that the program makes up. -/
theorem not_mem_of_free {p : Plan} {name : String} (free : Free p name) :
    name ∉ (fixedVars p ++ tierVars p ++ derivedVars p).map Var.text := by
  simp only [List.map_append, List.mem_append, not_or]
  refine ⟨⟨fun mem => ?_, fun mem => ?_⟩, free.not_derived⟩
  · obtain ⟨v, v_mem, rfl⟩ := List.mem_map.mp mem
    exact free.not_reserved (text_mem_of_mem_fixedVars v_mem)
  · obtain ⟨v, v_mem, rfl⟩ := List.mem_map.mp mem
    exact free.not_tierList (isTierList_of_mem_tierVars v_mem)

namespace NamesApart

variable {p : Plan} (apart : NamesApart p)

include apart

/-- The names that the program makes up are told apart. -/
theorem nodup_own : ((fixedVars p ++ tierVars p ++ derivedVars p).map Var.text).Nodup := by
  simp only [List.map_append, List.nodup_append', List.disjoint_append_left]
  refine ⟨⟨nodup_fixedVars p, nodup_tierVars p, ?_⟩, apart.derived_nodup, ?_, ?_⟩
  · intro name fixed tier
    obtain ⟨v, v_mem, rfl⟩ := List.mem_map.mp fixed
    obtain ⟨w, w_mem, same⟩ := List.mem_map.mp tier
    have reserved := text_mem_of_mem_fixedVars v_mem
    rw [← same] at reserved
    exact not_isTierList_of_mem (List.mem_append_left _ reserved) (isTierList_of_mem_tierVars w_mem)
  · intro name fixed derived
    obtain ⟨v, v_mem, rfl⟩ := List.mem_map.mp fixed
    obtain ⟨w, w_mem, same⟩ := List.mem_map.mp derived
    have reserved := text_mem_of_mem_fixedVars v_mem
    rw [← same] at reserved
    exact not_looksDerived_of_mem (List.mem_append_left _ reserved) (apart.derived_look w w_mem)
  · intro name tier derived
    obtain ⟨v, v_mem, rfl⟩ := List.mem_map.mp tier
    obtain ⟨w, w_mem, same⟩ := List.mem_map.mp derived
    have list := isTierList_of_mem_tierVars v_mem
    rw [← same] at list
    exact not_looksDerived_of_isTierList list (apart.derived_look w w_mem)

/-- No name that the program makes up is a word of C. -/
theorem not_keyword_own {v : Var} (mem : v ∈ fixedVars p ++ tierVars p ++ derivedVars p) :
    v.text ∉ Text.keywords := by
  intro keyword
  have known := List.mem_append_right reservedNames keyword
  simp only [List.mem_append] at mem
  rcases mem with (mem | mem) | mem
  · exact reservedNames_apart.2 v.text (text_mem_of_mem_fixedVars mem) keyword
  · exact not_isTierList_of_mem known (isTierList_of_mem_tierVars mem)
  · exact not_looksDerived_of_mem known (apart.derived_look v mem)

theorem namesDistinct (wellFormed : p.WellFormed) : NamesDistinct (body p) := by
  have perm := declares_body_perm wellFormed
  have host {v : Var} (mem : v ∈ hostVars p) : ∃ w ∈ p.hostPlaced, v.text = w.decl.name := by
    obtain ⟨w, w_mem, rfl⟩ := List.mem_map.mp mem
    exact ⟨w, w_mem, rfl⟩
  have hostNames : (hostVars p).map Var.text = p.hostPlaced.map (·.decl.name) := by
    simp [hostVars, Var.text, Function.comp_def]
  refine
    { nodup := ?_
      not_keyword := fun v mem => ?_
      not_generator := fun v mem name called => ?_ }
  · rw [(perm.map Var.text).nodup_iff, List.map_append, List.nodup_append', hostNames]
    refine ⟨apart.nodup_own, wellFormed.names_nodup, fun name own given => ?_⟩
    obtain ⟨w, w_mem, rfl⟩ := List.mem_map.mp given
    exact not_mem_of_free (apart.variable_free w w_mem) own
  · rcases List.mem_append.mp (perm.mem_iff.mp mem) with own | mem
    · exact apart.not_keyword_own own
    · obtain ⟨w, w_mem, same⟩ := host mem
      have keyword := (apart.variable_free w w_mem).not_keyword
      rw [same]
      simpa [Text.isKeyword] using keyword
  · obtain ⟨g, g_mem, given⟩ := generator_of_mem_calls wellFormed called
    rcases List.mem_append.mp (perm.mem_iff.mp mem) with own | mem
    · rintro rfl
      have free := apart.generator_free g g_mem v.text (by simp [given])
      exact not_mem_of_free free (List.mem_map_of_mem own)
    · obtain ⟨w, w_mem, same⟩ := host mem
      rw [same]
      exact apart.generator_ne g g_mem name (by simp [given]) w w_mem

end NamesApart
end Host

/-- A generated program is that of a plan whose names are told apart. -/
theorem namesDistinct_of_generate {source : String} {g : Generated}
    (generated : generate source = .ok g) :
    ∃ m p, Manifest.read source = .ok m ∧ Plan.ofManifest m = .ok p ∧
      g.program = (Host.Program.ofPlan p).text ∧
      Host.NamesDistinct (Host.Program.ofPlan p).body := by
  simp only [generate, Checked.bind_eq_ok, Checked.pure_eq_ok] at generated
  obtain ⟨m, read, p, planned, rfl⟩ := generated
  have admitted := Manifest.admitted_of_read read
  have arranged := Plan.arranges_of_ofManifest planned
  have apart := Host.namesApart arranged admitted
  exact ⟨m, p, read, planned, rfl, apart.namesDistinct (arranged.wellFormed admitted)⟩

theorem namesDistinct_of_generate_sampleManifest :
    ∃ g, generate Plan.sampleManifest = .ok g ∧
      ∃ m p, Manifest.read Plan.sampleManifest = .ok m ∧ Plan.ofManifest m = .ok p ∧
        g.program = (Host.Program.ofPlan p).text ∧
        Host.NamesDistinct (Host.Program.ofPlan p).body := by
  obtain ⟨m, p, read, planned, -⟩ := Plan.sampleManifest_planned
  have generated : generate Plan.sampleManifest = .ok (m.generated p) := by
    simp [generate, read, planned]
  exact ⟨m.generated p, generated, namesDistinct_of_generate generated⟩

end KernelHost
