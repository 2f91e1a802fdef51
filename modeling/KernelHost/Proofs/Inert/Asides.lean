import KernelHost.Proofs.Inert.Agreement
import KernelHost.Proofs.Manifest.FirstPass
import KernelHost.Proofs.Xml.Contents

/-!
# Comments inside contents

What a manifest stores of a text is the piece that the content begins with.  It is the whole of the
contents exactly if they are in one piece; where that is so in two documents that differ in their
comments and instructions only, both have the same host program.
-/

namespace KernelHost

open Xml (Element)

/-! ## What is stored -/

namespace Xml.Element

/-- What is stored of the contents of an element. -/
structure StoredAs (e : Element) (stored : Option String) : Prop where
  text : stored = e.text?
  /-- Nothing is left out exactly if the contents are in one piece. -/
  whole : stored = e.contents? ↔ e.InOnePiece

theorem storedAs_text? (e : Element) : e.StoredAs e.text? :=
  ⟨rfl, e.text?_eq_contents?_iff⟩

end Xml.Element

namespace WorkRange

/-- The last list of a kind that is among some elements. -/
def lastList? (tag : String) (es : List Element) : Option Element :=
  (es.filter (·.name == tag)).getLast?

/-- The sizes of a range are stored from the lists inside its element. -/
structure StoredFrom (r : WorkRange) (e : Element) : Prop where
  lists : ∀ list ∈ e.elements, isList list → ∃ sizes, list.StoredAs (some sizes)
  globalSizes : ∃ list, lastList? "global" e.elements = some list ∧
    list.StoredAs (some r.globalSizes)
  localSizes : (lastList? "local" e.elements).elim (r.localSizes = none) (·.StoredAs r.localSizes)

theorem lastList?_cons (tag : String) (e : Element) (es : List Element) :
    lastList? tag (e :: es) =
      if e.name = tag then some ((lastList? tag es).getD e) else lastList? tag es := by
  rw [lastList?, lastList?]
  split
  · rename_i same
    rw [List.filter_cons_of_pos (by simp [same]), List.getLast?_cons]
  · rename_i other
    rw [List.filter_cons_of_neg (by simp [other])]

theorem texts_of_readLists {dimensions : Nat} {globalSizes localSizes : Option String}
    {es : List Element} {lists : Option String × Option String}
    (read : readLists dimensions globalSizes localSizes es = .ok lists) :
    lists.1 = (lastList? "global" es).elim globalSizes (·.text?) ∧
      lists.2 = (lastList? "local" es).elim localSizes (·.text?) := by
  have behind (tag : String) (e : Element) (es : List Element) :
      (lastList? tag es).elim e.text? (·.text?) = ((lastList? tag es).getD e).text? := by
    cases lastList? tag es <;> rfl
  induction es generalizing globalSizes localSizes with
  | nil =>
      cases read
      exact ⟨rfl, rfl⟩
  | cons e es ih =>
      rw [readLists] at read
      split at read
      · rename_i tag
        obtain ⟨sizes, readSizes, read⟩ := Checked.bind_eq_ok.mp read
        rw [← (readSizes_eq_ok_iff.mp readSizes).1] at read
        simpa [lastList?_cons, tag, behind] using ih read
      · rename_i tag
        obtain ⟨sizes, readSizes, read⟩ := Checked.bind_eq_ok.mp read
        rw [← (readSizes_eq_ok_iff.mp readSizes).1] at read
        simpa [lastList?_cons, tag, behind] using ih read
      · rename_i noGlobal noLocal
        have noGlobal : e.name ≠ "global" := noGlobal
        have noLocal : e.name ≠ "local" := noLocal
        simpa [lastList?_cons, noGlobal, noLocal] using ih read

theorem storedFrom_of_read {e : Element} {r : WorkRange} (read : WorkRange.read e = .ok r) :
    r.StoredFrom e := by
  rw [WorkRange.read] at read
  simp only [Checked.bind_eq_ok] at read
  obtain ⟨dimensions, -, read⟩ := read
  split at read
  · simp at read
  · simp only [Checked.bind_eq_ok, Checked.pure_eq_ok, Checked.ofOption_eq_ok] at read
    obtain ⟨lists, readLists, globalSizes, found, rfl⟩ := read
    obtain ⟨global, locals⟩ := texts_of_readLists readLists
    refine ⟨fun list mem isList => ?_, ?_, ?_⟩
    · obtain ⟨sizes, text, -⟩ := exists_readLists_iff.mp ⟨lists, readLists⟩ list mem isList
      exact ⟨sizes, Option.mem_def.mp text ▸ list.storedAs_text?⟩
    · rw [found] at global
      cases last : lastList? "global" e.elements with
      | none => simp [last] at global
      | some list =>
          rw [last] at global
          have text : some globalSizes = list.text? := global
          exact ⟨list, rfl, text ▸ list.storedAs_text?⟩
    · cases last : lastList? "local" e.elements with
      | none =>
          rw [last] at locals
          exact locals
      | some list =>
          rw [last] at locals
          have text : lists.2 = list.text? := locals
          change list.StoredAs lists.2
          exact text ▸ list.storedAs_text?

end WorkRange

/-- The contents of the variables of a kernel and the sizes of its range are stored from the
elements inside the element of the kernel. -/
structure Kernel.StoredFrom (k : Kernel) (e : Element) : Prop where
  literals : List.Forall₂ (fun child v => child.StoredAs v.literal)
    (e.elements.filter fun child => (Role.ofTag? child.name).isSome) k.vars
  sizes : ∃ child, e.elements.filter (·.name == "ndrange") = [child] ∧ k.range.StoredFrom child

theorem Kernel.storedFrom_of_read {e : Element} {k : Kernel} {remarks : List (At Remark)}
    (read : Kernel.read e = .ok (k, remarks)) : k.StoredFrom e := by
  obtain ⟨parts, -, -, readParts, found, vars, -, -⟩ := parts_of_read read
  obtain ⟨reads, ranged, -⟩ := reads_of_readParts readParts
  rw [vars] at reads
  refine ⟨reads.imp fun child v reads => ?_, ?_⟩
  · obtain ⟨role, -, read⟩ := reads
    rw [(Variable.read_eq_ok_iff.mp read).2]
    exact child.storedAs_text?
  · rcases ranged with ⟨-, absent⟩ | ⟨child, r, only, met, readRange⟩
    · simp [found] at absent
    · rw [found] at met
      cases met
      exact ⟨child, only, WorkRange.storedFrom_of_read readRange⟩

namespace Manifest

/-- The contents and the sizes of a manifest are stored from the elements of its kernels. -/
def StoredFrom (m : Manifest) (root : Element) : Prop :=
  List.Forall₂ (fun child k => k.StoredFrom child)
    (root.elements.filter (·.name == "kernel")) m.kernels

theorem storedFrom_of_read {source : String} {root : Element} {m : Manifest}
    (document : Xml.readDocument source = .ok root) (read : Manifest.read source = .ok m) :
    m.StoredFrom root := by
  rw [read_of_root document] at read
  simp only [Checked.bind_eq_ok, Checked.pure_eq_ok] at read
  obtain ⟨m, readRoot, _, -, rfl⟩ := read
  simp only [ofRoot, Checked.bind_eq_ok, Checked.both_eq_ok, Checked.pure_eq_ok] at readRoot
  obtain ⟨⟨settings, items⟩, ⟨-, readItems⟩, rfl⟩ := readRoot
  refine (reads_of_readItems readItems).imp ?_
  rintro child k ⟨remarks, read⟩
  exact Kernel.storedFrom_of_read read

end Manifest

/-! ## Comments and instructions -/

namespace Xml.Element

/-- Wherever a text is read, the contents are in one piece. -/
def Undivided (e : Element) : Prop :=
  e.Everywhere fun inner => inner.holdsText → inner.InOnePiece

instance : DecidablePred Undivided := fun e =>
  inferInstanceAs (Decidable (e.Everywhere _))

theorem agree_of_bare {e e' : Element} (same : e.bare = e'.bare) (undivided : e.Undivided)
    (undivided' : e'.Undivided) : e.Agree e' := by
  refine ⟨fun e e' => e.bare = e'.bare ∧ e.Undivided ∧ e'.Undivided, ?_, same, undivided,
    undivided'⟩
  constructor
  · rintro e e' ⟨same, -, -⟩
    rw [← name_bare, ← same, name_bare]
  · rintro e e' ⟨same, -, -⟩
    rw [← attributes_bare, ← same, attributes_bare]
  · rintro e e' ⟨same, undivided, undivided'⟩ held
    have held' : e'.holdsText := by
      rw [holdsText, WorkRange.isList] at held ⊢
      rwa [← name_bare e', ← same, name_bare]
    rw [e.text?_eq_contents?_iff.mpr (undivided.self held),
      e'.text?_eq_contents?_iff.mpr (undivided'.self held'), ← contents?_bare, ← same,
      contents?_bare]
  · rintro e e' ⟨same, undivided, undivided'⟩
    have inside : e.elements.map bare = e'.elements.map bare := by
      rw [← elements_bare, ← elements_bare, same]
    rw [← List.forall₂_eq_eq_eq, List.forall₂_map_left_iff, List.forall₂_map_right_iff] at inside
    have left := (List.forall₂_and_left _ _).mpr
      ⟨fun child mem => Everywhere.child undivided mem, inside⟩
    have right := (List.forall₂_and_left _ _).mpr
      ⟨fun child mem => Everywhere.child undivided' mem, left.flip⟩
    refine right.flip.imp ?_
    rintro child child' ⟨undivided', undivided, same⟩
    exact ⟨same, undivided, undivided'⟩

end Xml.Element

/-- What is stored of a text is the piece that the content begins with, and the whole of the
contents exactly if they are in one piece.  Comments and instructions that leave them so do not
change the host program. -/
theorem stored_of_readDocument {source : String} {root : Element}
    (document : Xml.readDocument source = .ok root) :
    (∀ m, Manifest.read source = .ok m → m.StoredFrom root) ∧
      ∀ source' root', Xml.readDocument source' = .ok root' → root.bare = root'.bare →
        root.Undivided → root'.Undivided →
        (generate source').toOption.map (·.program) =
          (generate source).toOption.map (·.program) := by
  refine ⟨fun m => Manifest.storedFrom_of_read document, ?_⟩
  intro source' root' document' same undivided undivided'
  have forth := Element.agree_of_bare same undivided undivided'
  have back := Element.agree_of_bare same.symm undivided' undivided
  cases made : generate source with
  | ok generated =>
      obtain ⟨generated', made', program⟩ := generate_of_agree document made document' forth
      simp [made', program, Except.toOption]
  | error problems =>
      cases made' : generate source' with
      | error problems' => rfl
      | ok generated' =>
          -- What is made of the second document would be made of the first one.
          obtain ⟨generated, again, -⟩ := generate_of_agree document' made' document back
          rw [made] at again
          cases again

/-- A manifest with two values. -/
def pairManifest : String :=
  "<k program='p'><kernel name='f'><input name='a' type='int' nmemb='2' arg='0'>1, 2</input>" ++
    "<ndrange><global>1</global></ndrange></kernel></k>"

/-- The same with comments and an instruction behind the texts. -/
def remarkedManifest : String :=
  "<k program='p'><!-- one kernel --><kernel name='f'>" ++
    "<input name='a' type='int' nmemb='2' arg='0'>1, 2<!-- both --></input>" ++
    "<ndrange><global>1<?size?></global></ndrange></kernel></k>"

/-- The same with a comment between the values. -/
def interruptedManifest : String :=
  "<k program='p'><kernel name='f'><input name='a' type='int' nmemb='2' arg='0'>1, <!-- x -->2" ++
    "</input><ndrange><global>1</global></ndrange></kernel></k>"

/-- What the three have in common. -/
def pairRoot : Element :=
  .mk "k" [⟨none, "program", "p"⟩]
    [.element (.mk "kernel" [⟨none, "name", "f"⟩]
      [.element (.mk "input" [⟨none, "name", "a"⟩, ⟨none, "type", "int"⟩, ⟨none, "nmemb", "2"⟩,
          ⟨none, "arg", "0"⟩] [.text "1, 2"] 0 0),
        .element (.mk "ndrange" [] [.element (.mk "global" [] [.text "1"] 0 0)] 0 0)] 0 0)] 0 0

set_option maxRecDepth 100000 in
theorem pairManifest_read :
    ∃ root m, Xml.readDocument pairManifest = .ok root ∧ Manifest.read pairManifest = .ok m ∧
      root.bare = pairRoot ∧ root.Undivided ∧
      m.allVariables.map (·.2.literal) = [some "1, 2"] := by
  obtain ⟨root, m, document, read, fits⟩ := Manifest.exists_read pairManifest
    (fun root m => root.bare = pairRoot ∧ root.Undivided ∧
      m.allVariables.map (·.2.literal) = [some "1, 2"]) (by decide +kernel)
  exact ⟨root, m, document, read, of_decide_eq_true fits⟩

set_option maxRecDepth 100000 in
theorem stored_of_readDocument_pairManifest :
    ∃ root root' m, Xml.readDocument pairManifest = .ok root ∧
      Xml.readDocument remarkedManifest = .ok root' ∧ root.bare = root'.bare ∧
      root.Undivided ∧ root'.Undivided ∧ Manifest.read pairManifest = .ok m ∧ m.StoredFrom root ∧
      (generate remarkedManifest).toOption.map (·.program) =
        (generate pairManifest).toOption.map (·.program) := by
  obtain ⟨root, m, document, read, same, undivided, -⟩ := pairManifest_read
  obtain ⟨root', document', fits'⟩ := Xml.exists_root remarkedManifest
    (fun root => root.bare = pairRoot ∧ root.Undivided) (by decide +kernel)
  obtain ⟨same', undivided'⟩ := of_decide_eq_true fits'
  have same := same.trans same'.symm
  obtain ⟨stored, kept⟩ := stored_of_readDocument document
  exact ⟨root, root', m, document, document', same, undivided, undivided', read, stored m read,
    kept _ root' document' same undivided undivided'⟩

set_option maxRecDepth 100000 in
/-- A comment between the values: both are in the contents, and one of them is stored. -/
theorem truncated_of_readDocument :
    ∃ root root' m m', Xml.readDocument interruptedManifest = .ok root ∧
      Xml.readDocument pairManifest = .ok root' ∧ root.bare = root'.bare ∧
      (∃ kernel ∈ root.elements, ∃ input ∈ kernel.elements,
        input.name = "input" ∧ input.contents? = some "1, 2") ∧
      Manifest.read interruptedManifest = .ok m ∧ Manifest.read pairManifest = .ok m' ∧
      m.allVariables.map (·.2.literal) = [some "1,"] ∧
      m'.allVariables.map (·.2.literal) = [some "1, 2"] := by
  obtain ⟨root, m, document, read, fits⟩ := Manifest.exists_read interruptedManifest
    (fun root m => root.bare = pairRoot ∧
      (∃ kernel ∈ root.elements, ∃ input ∈ kernel.elements,
        input.name = "input" ∧ input.contents? = some "1, 2") ∧
      m.allVariables.map (·.2.literal) = [some "1,"]) (by decide +kernel)
  obtain ⟨same, whole, literals⟩ := of_decide_eq_true fits
  obtain ⟨root', m', document', read', same', -, literals'⟩ := pairManifest_read
  exact ⟨root, root', m, m', document, document', same.trans same'.symm, whole, read, read',
    literals, literals'⟩

end KernelHost
