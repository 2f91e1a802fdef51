import KernelHost.Proofs.Manifest.Sound
import KernelHost.Proofs.Scope.Extents

/-!
# Lists of sizes

The sizes of a range are written into the program as they stand in the manifest.  Blank entries do
not count when they are read, wherever they stand, so that an initializer has no blank entry in
front of others exactly if the list has no more commas than it needs, or one more at its end.
-/

namespace KernelHost

open Code (Stmt Var gather gather_cons)
open Xml (Element)

/-! ## Pieces between separators -/

section Pieces

variable (sep : Char) (cs : List Char)

theorem length_splitOn : (cs.splitOn sep).length = cs.count sep + 1 := by
  induction cs with
  | nil => rfl
  | cons c cs ih =>
      rw [List.splitOn_cons_eq_if_modifyHead, List.count_cons]
      split <;> simp [ih]

theorem splitOn_concat_self : (cs ++ [sep]).splitOn sep = cs.splitOn sep ++ [[]] := by
  induction cs with
  | nil => simp [List.splitOn_cons_eq_if_modifyHead]
  | cons c cs ih =>
      rw [List.cons_append, List.splitOn_cons_eq_if_modifyHead, List.splitOn_cons_eq_if_modifyHead,
        ih]
      split_ifs
      · rfl
      · obtain ⟨head, pieces, split⟩ := List.exists_cons_of_ne_nil (List.splitOn_ne_nil sep cs)
        rw [split]
        rfl

/-- The last piece of a list ends in its last character, if that is no separator. -/
theorem exists_splitOn_concat {last : Char} (other : last ≠ sep) :
    ∃ front piece, (cs ++ [last]).splitOn sep = front ++ [piece ++ [last]] := by
  induction cs with
  | nil => exact ⟨[], [], by simp [List.splitOn_cons_eq_if_modifyHead, other]⟩
  | cons c cs ih =>
      obtain ⟨front, piece, split⟩ := ih
      rw [List.cons_append, List.splitOn_cons_eq_if_modifyHead, split]
      split_ifs
      · exact ⟨[] :: front, piece, rfl⟩
      · cases front with
        | nil => exact ⟨[], c :: piece, rfl⟩
        | cons head front => exact ⟨(c :: head) :: front, piece, rfl⟩

end Pieces

/-! ## Lists without gaps -/

namespace WorkRange

/-- A list of sizes has the given number of entries side by side, and at most a blank one behind the
last comma. -/
def Listed (n : Nat) (sizes : String) : Prop :=
  ∃ front rest, sizes.toList.splitOn ',' = front ++ rest ∧ front.length = n ∧
    (∀ cs ∈ front, ¬ Text.allBlank cs) ∧ rest.length ≤ 1 ∧ ∀ cs ∈ rest, Text.allBlank cs

/-- A text ends in a character that is not blank. -/
def EndsSolid (sizes : String) : Prop :=
  ∃ front last, sizes.toList = front ++ [last] ∧ Text.isBlank last = false

variable {n : Nat} {sizes : String}

/-- In front of a last comma, all pieces have to count. -/
theorem listed_iff_of_comma {front : List Char} (chars : sizes.toList = front ++ [','])
    (fitting : entries sizes = n) : Listed n sizes ↔ (front.splitOn ',').length = n := by
  rw [entries, chars, splitOn_concat_self, List.filter_append] at fitting
  have inFront : ((front.splitOn ',').filter fun cs => !Text.allBlank cs).length = n := by
    simpa [Text.allBlank] using fitting
  rw [Listed, chars, splitOn_concat_self]
  constructor
  · rintro ⟨entries, rest, parted, length, dense, short, -⟩
    rcases rest.eq_nil_or_concat' with rfl | ⟨others, piece, rfl⟩
    · rw [List.append_nil] at parted
      exact absurd rfl (dense [] (by simp [← parted]))
    · obtain rfl : others = [] := by simpa using short
      obtain ⟨same, -⟩ := List.append_inj' parted rfl
      rw [same, length]
  · intro length
    have dense := List.length_filter_eq_length_iff.mp (inFront.trans length.symm)
    exact ⟨_, [[]], rfl, length, by simpa using dense, Nat.le_refl 1, by simp [Text.allBlank]⟩

/-- Without a comma at the end, the last piece is no blank one, and all pieces have to count. -/
theorem listed_iff_of_solid {front : List Char} {last : Char}
    (chars : sizes.toList = front ++ [last]) (solid : Text.isBlank last = false)
    (other : last ≠ ',') (fitting : entries sizes = n) :
    Listed n sizes ↔ (sizes.toList.splitOn ',').length = n := by
  rw [Listed]
  constructor
  · rintro ⟨entries, rest, parted, length, -, -, blank⟩
    obtain ⟨others, piece, split⟩ := exists_splitOn_concat ',' front other
    rcases rest.eq_nil_or_concat' with rfl | ⟨more, final, rfl⟩
    · rw [parted, List.append_nil, length]
    · rw [chars, split, ← List.append_assoc] at parted
      obtain ⟨-, same⟩ := List.append_inj' parted rfl
      obtain rfl : piece ++ [last] = final := by simpa using same
      have all := blank (piece ++ [last]) (by simp)
      simp [Text.allBlank, solid] at all
  · intro length
    have dense := List.length_filter_eq_length_iff.mp (fitting.trans length.symm)
    exact ⟨_, [], (List.append_nil _).symm, length, by simpa using dense, by simp, by simp⟩

/-- With a right number of entries that count, the commas tell whether others are between them. -/
theorem listed_iff (solid : EndsSolid sizes) (fitting : entries sizes = n) :
    Listed n sizes ↔ sizes.toList.count ',' + 1 = n ∨
      sizes.toList.count ',' = n ∧ sizes.toList.getLast? = some ',' := by
  obtain ⟨front, last, chars, ink⟩ := solid
  by_cases comma : last = ','
  · subst comma
    have le : n ≤ (front.splitOn ',').length := by
      rw [← fitting, entries, chars, splitOn_concat_self, List.filter_append]
      simpa [Text.allBlank] using List.length_filter_le _ (front.splitOn ',')
    rw [listed_iff_of_comma chars fitting, chars, List.getLast?_concat, List.count_append,
      List.count_singleton_self, ← length_splitOn]
    have small : (front.splitOn ',').length + 1 ≠ n := by omega
    simp [small]
  · rw [listed_iff_of_solid chars ink comma fitting, length_splitOn, chars]
    simp [comma]

/-! ## What is read -/

theorem endsSolid_of_text? {e : Element} (found : e.text? = some sizes) : EndsSolid sizes := by
  obtain ⟨text, trimmed⟩ : ∃ text, Text.trim text = sizes ∧ sizes ≠ "" := by
    rw [Element.text?, Option.filter_eq_some_iff, Option.map_eq_some_iff] at found
    obtain ⟨⟨text, -, trimmed⟩, nonempty⟩ := found
    exact ⟨text, trimmed, by simpa using nonempty⟩
  obtain ⟨rfl, nonempty⟩ := trimmed
  have head := List.head?_dropWhile_not Text.isBlank (text.toList.dropWhile Text.isBlank).reverse
  cases chars : (text.toList.dropWhile Text.isBlank).reverse.dropWhile Text.isBlank with
  | nil => simp [Text.trim, Text.trimChars, chars] at nonempty
  | cons last front =>
      rw [chars] at head
      exact ⟨front.reverse, last, by simp [Text.trim, Text.trimChars, chars], head⟩

/-- The lists of sizes of a range. -/
def lists (r : WorkRange) : List String :=
  r.globalSizes :: r.localSizes.toList

/-- Each list of a range has as many entries as the range has dimensions. -/
structure Fitting (r : WorkRange) : Prop where
  entries : ∀ sizes ∈ r.lists, WorkRange.entries sizes = r.dimensions
  solid : ∀ sizes ∈ r.lists, EndsSolid sizes

theorem forall_of_readLists {q : String → Prop} {dimensions : Nat} {es : List Element}
    {globalSizes localSizes : Option String} {lists : Option String × Option String}
    (each : ∀ e sizes, readSizes dimensions e = .ok sizes → q sizes)
    (read : readLists dimensions globalSizes localSizes es = .ok lists)
    (held : ∀ sizes ∈ globalSizes, q sizes) (held' : ∀ sizes ∈ localSizes, q sizes) :
    (∀ sizes ∈ lists.1, q sizes) ∧ ∀ sizes ∈ lists.2, q sizes := by
  induction es generalizing globalSizes localSizes with
  | nil =>
      cases read
      exact ⟨held, held'⟩
  | cons e es ih =>
      rw [readLists] at read
      split at read
      · obtain ⟨sizes, readHere, read⟩ := Checked.bind_eq_ok.mp read
        exact ih read (by simpa using each e sizes readHere) held'
      · obtain ⟨sizes, readHere, read⟩ := Checked.bind_eq_ok.mp read
        exact ih read held (by simpa using each e sizes readHere)
      · exact ih read held held'

theorem fitting_of_read {e : Element} {r : WorkRange} (read : WorkRange.read e = .ok r) :
    r.Fitting := by
  simp only [WorkRange.read, Checked.bind_eq_ok] at read
  obtain ⟨dimensions, -, read⟩ := read
  split at read
  · simp at read
  · simp only [Checked.bind_eq_ok, Checked.pure_eq_ok, Checked.ofOption_eq_ok] at read
    obtain ⟨⟨globals, locals⟩, readLists, globalSizes, found, rfl⟩ := read
    obtain rfl : globals = some globalSizes := found
    have each (child : Element) (sizes : String)
        (readHere : readSizes (dimensions.getD 1) child = .ok sizes) :
        WorkRange.entries sizes = dimensions.getD 1 ∧ EndsSolid sizes := by
      obtain ⟨text, fitting⟩ := readSizes_eq_ok_iff.mp readHere
      exact ⟨fitting, endsSolid_of_text? text⟩
    obtain ⟨global, locally⟩ := forall_of_readLists each readLists (by simp) (by simp)
    have all : ∀ sizes ∈ globalSizes :: locals.toList,
        WorkRange.entries sizes = dimensions.getD 1 ∧ EndsSolid sizes := by
      simpa using And.intro (global globalSizes rfl) locally
    exact ⟨fun sizes mem => (all sizes mem).1, fun sizes mem => (all sizes mem).2⟩

end WorkRange

/-- What reading a range ensures holds of the range of every kernel of a manifest. -/
theorem Manifest.forall_ranges_of_read {P : WorkRange → Prop}
    (each : ∀ e r, WorkRange.read e = .ok r → P r) {source : String} {m : Manifest}
    (read : Manifest.read source = .ok m) : ∀ k ∈ m.kernels, P k.range := by
  simp only [Manifest.read, ofRoot, check, Checked.bind_eq_ok, Checked.both_eq_ok,
    Checked.pure_eq_ok, Checked.ofProblems_eq_ok] at read
  obtain ⟨root, -, m, ⟨⟨settings, items⟩, ⟨-, readItems⟩, rfl⟩, _, -, rfl⟩ := read
  refine forall_mem_of_forall₂ (p := fun _ => True) (reads_of_readItems readItems) ?_ (by simp)
  rintro e k ⟨remarks, readKernel⟩ -
  obtain ⟨parts, -, -, readParts, met, -⟩ := Kernel.parts_of_read readKernel
  obtain ⟨-, range, -⟩ := Kernel.reads_of_readParts readParts
  rcases range with ⟨-, absent⟩ | ⟨child, r, -, found, readRange⟩
  · simp [met] at absent
  · obtain rfl : k.range = r := Option.some.inj (met.symm.trans found)
    exact each child _ readRange

/-! ## What is written -/

/-- The lists of sizes that a statement declares, with their declared lengths. -/
def Code.Stmt.sizeLists : Stmt → List (Var × Option Nat × String)
  | .declareList _ (.globalSize ident) length sizes => [(.globalSize ident, length, sizes)]
  | .declareList _ (.localSize ident) length sizes => [(.localSize ident, length, sizes)]
  | _ => []

/-- The lists of sizes of a kernel as they are declared. -/
def Kernel.sizeLists (k : Kernel) : List (Var × Option Nat × String) :=
  (.globalSize k.ident, some k.range.dimensions, k.range.globalSizes) ::
    k.range.localSizes.toList.map fun sizes =>
      (.localSize k.ident, some k.range.dimensions, sizes)

namespace Host

variable {p : Plan}

/-- What declares nothing declares no sizes. -/
theorem sizeLists_eq_nil {ss : List Stmt} (declares : gather Stmt.declares ss = []) :
    gather Stmt.sizeLists ss = [] := by
  refine List.flatMap_eq_nil_iff.mpr fun s mem => ?_
  have none := List.flatMap_eq_nil_iff.mp declares s mem
  cases s with
  | declareList type var size content => simp [Stmt.declares] at none
  | _ => rfl

theorem sizeLists_declareVariable (template : Template) (v : Placed) :
    gather Stmt.sizeLists (declareVariable template v) = [] := by
  have storage (contents : Contents) :
      (declareStorage v (.host v.decl.name) contents).within.flatMap Stmt.sizeLists = [] ∧
        (declareStorage v (.reference v.decl.name) contents).within.flatMap
          Stmt.sizeLists = [] := by
    unfold declareStorage
    split <;> split_ifs <;> simp [declareValue, declareBare, Stmt.sizeLists]
  cases reference : v.layout.reference <;>
    simp [declareVariable, reference, gather_cons, storage, declareHandle, declareValue,
      Stmt.sizeLists]

/-- The lists of sizes in the program are those of its kernels. -/
theorem sizeLists_body :
    gather Stmt.sizeLists (body p) = p.kernels.flatMap (·.kernel.sizeLists) := by
  have behind := sizeLists_eq_nil (declares_behindOpening p)
  have ranges (k : Kernel) : gather Stmt.sizeLists (rangeDeclarations k) = k.sizeLists := by
    cases sizes : k.range.localSizes <;>
      simp [rangeDeclarations, Kernel.sizeLists, sizes, gather_cons, declareValue,
        Stmt.sizeLists]
  simp [body_eq, behind, opening, declarations, setupDeclarations, runDeclarations, ranges,
    sizeLists_declareVariable, gather_cons, declareHandle, declarePointer, declareValue,
    declareBare, Stmt.sizeLists, Code.flatMap_nothing]

end Host

/-- The lists of sizes in a generated program have as many entries that are not blank as their
lengths say.  No blank entry stands between these exactly if there are no more commas than such a
list needs, one at its end included. -/
theorem sizes_of_generate {source : String} {g : Generated} (generated : generate source = .ok g) :
    ∃ m p, Manifest.read source = .ok m ∧ Plan.ofManifest m = .ok p ∧
      g.program = (Host.Program.ofPlan p).text ∧
      gather Stmt.sizeLists (Host.body p) = m.kernels.flatMap (·.sizeLists) ∧
      ∀ k ∈ m.kernels, ∀ sizes ∈ k.range.lists,
        WorkRange.entries sizes = k.range.dimensions ∧
        (WorkRange.Listed k.range.dimensions sizes ↔
          sizes.toList.count ',' + 1 = k.range.dimensions ∨
            sizes.toList.count ',' = k.range.dimensions ∧
              sizes.toList.getLast? = some ',') := by
  obtain ⟨m, p, read, planned, rfl⟩ := Plan.generate_eq_ok.mp generated
  refine ⟨m, p, read, planned, rfl, ?_, fun k k_mem sizes mem => ?_⟩
  · rw [Host.sizeLists_body, ← (Plan.arranges_of_ofManifest planned).kernels, List.flatMap_map]
  · have fitting := Manifest.forall_ranges_of_read
      (fun _ _ readRange => WorkRange.fitting_of_read readRange) read k k_mem
    have counted := fitting.entries sizes mem
    exact ⟨counted, WorkRange.listed_iff (fitting.solid sizes mem) counted⟩

theorem sizes_of_generate_sampleManifest :
    ∃ g, generate Plan.sampleManifest = .ok g ∧
      ∃ m p, Manifest.read Plan.sampleManifest = .ok m ∧ Plan.ofManifest m = .ok p ∧
        g.program = (Host.Program.ofPlan p).text ∧
        gather Stmt.sizeLists (Host.body p) = m.kernels.flatMap (·.sizeLists) ∧
        ∀ k ∈ m.kernels, ∀ sizes ∈ k.range.lists,
          WorkRange.entries sizes = k.range.dimensions ∧
          (WorkRange.Listed k.range.dimensions sizes ↔
            sizes.toList.count ',' + 1 = k.range.dimensions ∨
              sizes.toList.count ',' = k.range.dimensions ∧
                sizes.toList.getLast? = some ',') := by
  obtain ⟨m, p, read, planned, -⟩ := Plan.sampleManifest_planned
  have generated := Plan.generate_eq_ok.mpr ⟨m, p, read, planned, rfl⟩
  exact ⟨_, generated, sizes_of_generate generated⟩

/-- A manifest with a blank entry between two sizes. -/
def gappedManifest : String :=
  "<k program='p'><kernel name='f'>" ++
    "<ndrange dim='2'><global>1,,2</global></ndrange></kernel></k>"

set_option maxRecDepth 100000 in
/-- The manifest is accepted, and the program initializes its list with the blank entry. -/
theorem gapped_of_generate :
    ∃ g m p, generate gappedManifest = .ok g ∧ Manifest.read gappedManifest = .ok m ∧
      Plan.ofManifest m = .ok p ∧ g.program = (Host.Program.ofPlan p).text ∧
      (.globalSize "F", some 2, "1,,2") ∈ gather Stmt.sizeLists (Host.body p) ∧
      ¬ WorkRange.Listed 2 "1,,2" := by
  obtain ⟨m, p, read, planned, holds⟩ := Plan.exists_planned gappedManifest
    (fun _ p => p.kernels.any fun k =>
      k.kernel.sizeLists.contains (.globalSize "F", some 2, "1,,2"))
    (by decide +kernel)
  have generated := Plan.generate_eq_ok.mpr ⟨m, p, read, planned, rfl⟩
  refine ⟨_, m, p, generated, read, planned, rfl, ?_, ?_⟩
  · simpa [Host.sizeLists_body] using holds
  · rw [WorkRange.listed_iff ⟨['1', ',', ','], '2', by decide, by decide⟩ (by decide)]
    decide

end KernelHost
