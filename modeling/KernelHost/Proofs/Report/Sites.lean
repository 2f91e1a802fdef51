import KernelHost.Generation
import KernelHost.Proofs.Manifest.Transcription
import KernelHost.Proofs.Xml.Extent

/-!
# The places of diagnostics

Problems are met in the readers, in the checks of names and in the planner, with places that lie in
records of the manifest by then.  Still the place of each is that of an element of the document, or
of the fault if the text is no document; the same holds of what is remarked.
-/

namespace KernelHost

open Xml (Element)

/-! ## Steps -/

/-- The places of all problems of a step satisfy a condition. -/
def Checked.Sited {α : Type} (P : Span → Prop) (x : Checked α) : Prop :=
  ∀ p ∈ x.problems, P p.span

namespace Checked.Sited

variable {P : Span → Prop} {α β : Type} {what : Problem} {span : Span}

theorem ok (a : α) : Sited P (.ok a : Checked α) := by
  simp [Sited, problems]

theorem pure (a : α) : Sited P (Pure.pure a : Checked α) :=
  ok a

theorem fail (site : P span) : Sited P (Checked.fail what span : Checked α) := by
  simpa [Sited, problems, Checked.fail, Problems.toList] using site

theorem ofOption (site : P span) (o : Option α) : Sited P (Checked.ofOption what span o) := by
  cases o with
  | none => exact fail site
  | some a => exact ok a

theorem ofProblems {ps : List (At Problem)} (sites : ∀ p ∈ ps, P p.span) :
    Sited P (Checked.ofProblems ps) := by
  simpa [Sited] using sites

theorem map {x : Checked α} (f : α → β) (sited : Sited P x) : Sited P (x.map f) := by
  simpa [Sited] using sited

theorem both {x : Checked α} {y : Checked β} (left : Sited P x) (right : Sited P y) :
    Sited P (Checked.both x y) := by
  intro p mem
  rw [problems_both, List.mem_append] at mem
  exact mem.elim (left p) (right p)

theorem each {f : α → Checked β} {as : List α} (sited : ∀ a ∈ as, Sited P (f a)) :
    Sited P (Checked.each f as) := by
  intro p mem
  rw [problems_each] at mem
  obtain ⟨a, a_mem, mem⟩ := List.mem_flatMap.mp mem
  exact sited a a_mem p mem

theorem ite {c : Prop} [Decidable c] {x y : Checked α} (left : Sited P x) (right : Sited P y) :
    Sited P (if c then x else y) := by
  split
  · exact left
  · exact right

/-- What may be absent is read only where it is there. -/
theorem optional {written : Option String} {absent : α} {read : String → Checked α}
    (sited : ∀ text, Sited P (read text)) :
    Sited P (match written with
      | none => .ok absent
      | some text => read text) := by
  cases written with
  | none => exact ok absent
  | some text => exact sited text

/-- The second step may rely on the value of the first. -/
theorem bind_ok {x : Checked α} {f : α → Checked β} (first : Sited P x)
    (second : ∀ a, x = .ok a → Sited P (f a)) : Sited P (x >>= f) := by
  cases x with
  | error ps => exact first
  | ok a => exact second a rfl

theorem bind {x : Checked α} {f : α → Checked β} (first : Sited P x)
    (second : ∀ a, Sited P (f a)) : Sited P (x >>= f) :=
  bind_ok first fun a _ => second a

end Checked.Sited

open Checked (Sited)

variable {P : Span → Prop}

namespace Xml.Element

variable {α : Type} {e : Element} (site : P e.span)

include site

theorem sited_required (name : String) : Sited P (e.required name) :=
  .ofOption site _

theorem sited_number (name : String) (read? : String → Option α) (value : String) :
    Sited P (e.number name read? value) :=
  .ofOption site _

theorem sited_number? (name : String) (read? : String → Option α) :
    Sited P (e.number? name read?) := by
  rw [number?]
  exact .optional fun _ => .map _ (sited_number site _ _ _)

end Xml.Element

/-! ## Lists -/

theorem mem_of_mem_withEarlier {α : Type} {as : List α} {x : α × List α}
    (mem : x ∈ withEarlier as) : x.1 ∈ as :=
  (forall_mem_withEarlier_fst (P := (· ∈ as))).mpr (fun _ => id) x mem

theorem mem_of_mem_firstByKey {α κ : Type} [BEq κ] {key : α → κ} {as : List α} {a : α}
    (mem : a ∈ firstByKey key as) : a ∈ as := by
  obtain ⟨⟨b, earlier⟩, b_mem, kept⟩ := List.mem_filterMap.mp mem
  rw [Option.ite_none_left_eq_some] at kept
  obtain ⟨-, ⟨⟩⟩ := kept
  exact mem_of_mem_withEarlier b_mem

/-! ## Readers -/

namespace Settings

variable {span : Span} (attribute? : String → Option String) (site : P span)

include site

theorem sited_readProgram : Sited P (readProgram attribute? span) := by
  rw [readProgram]
  split
  · exact .ok _
  · exact .ok _
  · exact .fail site

theorem sited_readToggle (name : String) : Sited P (readToggle attribute? span name) := by
  rw [readToggle]
  exact .optional fun _ => .ofOption site _

theorem sited_readHooks : Sited P (readHooks attribute? span) := by
  have each (hook : Hook) : Sited P (readToggle attribute? span hook.attributeName) :=
    sited_readToggle attribute? site _
  exact .map _ (.both (each _) (.both (each _) (.both (each _) (.both (each _) (each _)))))

theorem sited_readCopies : Sited P (readCopies attribute? span) := by
  rw [readCopies]
  exact .optional fun _ => .ofOption site _

theorem sited_readApi : Sited P (readApi attribute? span) := by
  rw [readApi]
  exact .optional fun _ => .ofOption site _

theorem sited_ofAttributes : Sited P (ofAttributes attribute? span) := by
  refine .bind ?_ fun _ => .pure _
  exact .both (sited_readProgram attribute? site) <|
    .both (sited_readToggle attribute? site _) <|
      .both (sited_readHooks attribute? site) <|
        .both (sited_readCopies attribute? site) (sited_readApi attribute? site)

end Settings

theorem DeviceChoice.sited_read {e : Element} (site : P e.span) : Sited P (read e) :=
  .bind (e.sited_number? site _ _) fun _ => .bind (e.sited_number? site _ _) fun _ => .pure _

namespace Variable

variable {e : Element} (site : P e.span)

include site

theorem sited_readName (role : Role) (argument : Nat) : Sited P (readName role argument e) := by
  cases entry : e.attribute? "name" with
  | some name =>
      have read : readName role argument e =
          if Text.isIdentifier name then .ok name else .fail (.variableName name) e.span := by
        cases role <;> simp [readName, entry]
      rw [read]
      exact .ite (.ok _) (.fail site)
  | none =>
      cases role with
      | input => simpa [readName, entry] using .fail site
      | output => simpa [readName, entry] using .fail site
      | scratch => simpa [readName, entry] using .ok _

theorem sited_readUnvalidated : Sited P (readUnvalidated e) := by
  rw [readUnvalidated]
  exact .optional fun _ => .ofOption site _

theorem sited_readTolerance : Sited P (readTolerance e) := by
  rw [readTolerance]
  refine .optional fun _ => ?_
  exact .bind (e.sited_number site _ _ _) fun _ => .ite (.fail site) (.pure _)

theorem sited_readGenerator : Sited P (readGenerator e) := by
  rw [readGenerator]
  exact .optional fun _ => .ite (.ok _) (.fail site)

theorem sited_read (role : Role) : Sited P (read role e) := by
  refine .bind (e.sited_required site _) fun type => ?_
  refine .bind (e.sited_required site _) fun count => ?_
  refine .bind (e.sited_number site _ _ _) fun members => ?_
  refine .bind (e.sited_required site _) fun index => ?_
  refine .bind (e.sited_number site _ _ _) fun argument => ?_
  have rest : Sited P (do
      let name ← readName role argument e
      let unvalidated ← readUnvalidated e
      let tolerance ← readTolerance e
      let generator ← readGenerator e
      return ({
        name, members, role, argument, generator, unvalidated, tolerance
        type := Text.trim type
        literal := e.text?
        span := e.span } : Variable)) :=
    .bind (sited_readName site role argument) fun _ => .bind (sited_readUnvalidated site) fun _ =>
      .bind (sited_readTolerance site) fun _ => .bind (sited_readGenerator site) fun _ => .pure _
  exact .ite (.bind (.fail site) fun _ => rest) rest

end Variable

namespace WorkRange

theorem sited_readSizes {e : Element} (site : P e.span) (dimensions : Nat) :
    Sited P (readSizes dimensions e) :=
  .bind (.ofOption site _) fun _ => .ite (.pure _) (.fail site)

theorem sited_readLists {es : List Element} (sites : ∀ e ∈ es, P e.span) (dimensions : Nat)
    (globalSizes localSizes : Option String) :
    Sited P (readLists dimensions globalSizes localSizes es) := by
  induction es generalizing globalSizes localSizes with
  | nil => exact .ok _
  | cons e es ih =>
      obtain ⟨site, sites⟩ := List.forall_mem_cons.mp sites
      rw [readLists]
      split
      · exact .bind (sited_readSizes site dimensions) fun _ => ih sites _ _
      · exact .bind (sited_readSizes site dimensions) fun _ => ih sites _ _
      · exact ih sites _ _

theorem sited_read {e : Element} (sites : e.Everywhere (P ·.span)) : Sited P (read e) := by
  have lists : ∀ child ∈ e.elements, P child.span := fun child mem => (sites.child mem).self
  refine .bind (e.sited_number? sites.self _ _) fun dimensions => ?_
  refine .ite (.bind (.fail sites.self) fun _ => ?_) ?_ <;>
    exact .bind (sited_readLists lists _ _ _) fun _ => .bind (.ofOption sites.self _) fun _ =>
      .pure _

end WorkRange

namespace Kernel

theorem sited_readParts {es : List Element} (sites : ∀ e ∈ es, e.Everywhere (P ·.span))
    (name : String) (ranged : Bool) : Sited P (readParts name ranged es) := by
  induction es generalizing ranged with
  | nil => exact .ok _
  | cons e es ih =>
      obtain ⟨inside, sites⟩ := List.forall_mem_cons.mp sites
      rw [readParts]
      split
      · split
        · exact .map _ (.both (.fail inside.self) (ih sites _))
        · exact .map _ (.both (WorkRange.sited_read inside) (ih sites _))
      · split
        · exact .map _ (.both (Variable.sited_read inside.self _) (ih sites _))
        · exact .map _ (ih sites _)

theorem sited_readName {e : Element} (site : P e.span) : Sited P (readName e) :=
  .bind (e.sited_required site _) fun _ => .ite (.pure _) (.fail site)

theorem sited_demandRange {α : Type} {e : Element} {parts : Checked (α × Parts)} (name : String)
    (site : P e.span) (sited : Sited P parts) : Sited P (demandRange name e parts) := by
  have absent {β : Type} : Sited P (.error ⟨⟨.noRange name, e.span⟩, []⟩ : Checked β) := .fail site
  cases parts with
  | ok given =>
      simp only [demandRange]
      split
      · exact .ok _
      · exact absent
  | error ps =>
      simp only [demandRange]
      split
      · exact sited
      · intro p mem
        rw [Checked.problems, Problems.toList_append, List.mem_append] at mem
        exact mem.elim (sited p) (absent (β := Unit) p)

theorem sited_read {e : Element} (sites : e.Everywhere (P ·.span)) : Sited P (read e) := by
  refine .bind (sited_demandRange _ sites.self ?_) fun _ => .pure _
  refine .both (.both (sited_readName sites.self) (e.sited_number? sites.self _ _)) ?_
  exact sited_readParts (fun child mem => sites.child mem) _ _

/-- The remarks on a kernel are at the places of the elements inside it. -/
theorem sited_remarks_of_readParts {es : List Element} {name : String} {ranged : Bool}
    {parts : Parts} (read : readParts name ranged es = .ok parts) (sites : ∀ e ∈ es, P e.span) :
    ∀ r ∈ parts.remarks, P r.span := by
  induction es generalizing ranged parts with
  | nil =>
      cases read
      simp
  | cons e es ih =>
      obtain ⟨site, sites⟩ := List.forall_mem_cons.mp sites
      rcases cases_of_readParts read with ⟨range, rest, -, -, -, readRest, rfl⟩ |
        ⟨role, v, rest, -, tag, readVariable, readRest, rfl⟩ | ⟨rest, -, -, readRest, rfl⟩
      · simpa using ih readRest sites
      · have here := (Variable.declaredBy_of_read tag readVariable).span
        refine List.forall_mem_append.mpr ⟨fun r mem => ?_, ih readRest sites⟩
        obtain ⟨_, -, rfl⟩ := List.mem_map.mp mem
        rwa [here]
      · exact List.forall_mem_cons.mpr ⟨site, ih readRest sites⟩

theorem sited_remarks_of_read {e : Element} {k : Kernel} {remarks : List (At Remark)}
    (read : Kernel.read e = .ok (k, remarks)) (sites : e.Everywhere (P ·.span)) :
    ∀ r ∈ remarks, P r.span := by
  obtain ⟨parts, -, -, readParts, -, -, same, -⟩ := parts_of_read read
  rw [← same]
  exact sited_remarks_of_readParts readParts fun child mem => (sites.child mem).self

end Kernel

namespace Manifest

theorem sited_readItems {es : List Element} (sites : ∀ e ∈ es, e.Everywhere (P ·.span))
    (chosen : Bool) : Sited P (readItems chosen es) := by
  induction es generalizing chosen with
  | nil => exact .ok _
  | cons e es ih =>
      obtain ⟨inside, sites⟩ := List.forall_mem_cons.mp sites
      rw [readItems]
      split
      · exact .map _ (.both (Kernel.sited_read inside) (ih sites _))
      · exact .map _ (.both (DeviceChoice.sited_read inside.self) (ih sites _))
      · exact .map _ (ih sites _)

theorem sited_remarks_of_readItems {es : List Element} {chosen : Bool} {items : Items}
    (read : readItems chosen es = .ok items) (sites : ∀ e ∈ es, e.Everywhere (P ·.span)) :
    ∀ r ∈ items.remarks, P r.span := by
  induction es generalizing chosen items with
  | nil =>
      cases read
      simp
  | cons e es ih =>
      obtain ⟨inside, sites⟩ := List.forall_mem_cons.mp sites
      rcases cases_of_readItems read with ⟨k, remarks, rest, -, readKernel, readRest, rfl⟩ |
        ⟨device, rest, -, -, readRest, rfl⟩ | ⟨rest, -, -, readRest, rfl⟩
      · have head := Kernel.sited_remarks_of_read readKernel inside
        exact List.forall_mem_append.mpr ⟨head, ih readRest sites⟩
      · refine List.forall_mem_append.mpr ⟨?_, ih readRest sites⟩
        cases chosen with
        | true => simpa using inside.self
        | false => simp
      · exact List.forall_mem_cons.mpr ⟨inside.self, ih readRest sites⟩

theorem sited_ofRoot {root : Element} (sites : root.Everywhere (P ·.span)) :
    Sited P (ofRoot root) := by
  refine .bind ?_ fun _ => .pure _
  exact .both (Settings.sited_ofAttributes _ sites.self)
    (sited_readItems (fun child mem => sites.child mem) _)

/-- The kernels and the variables of a manifest, and the remarks on it, are at places that satisfy
a condition. -/
structure SitedAt (P : Span → Prop) (m : Manifest) : Prop where
  kernels : ∀ k ∈ m.kernels, P k.span
  vars : ∀ k ∈ m.kernels, ∀ v ∈ k.vars, P v.span
  remarks : ∀ r ∈ m.remarks, P r.span

theorem sitedAt_of_ofRoot {root : Element} {m : Manifest} (read : ofRoot root = .ok m)
    (sites : root.Everywhere (P ·.span)) : m.SitedAt P := by
  have declared := declaredBy_of_ofRoot read
  have inside : ∀ e ∈ root.elements.filter (·.name == "kernel"), e.Everywhere (P ·.span) :=
    fun e mem => sites.child (List.mem_of_mem_filter mem)
  have each : ∀ k ∈ m.kernels, P k.span ∧ ∀ v ∈ k.vars, P v.span := by
    refine forall_mem_of_forall₂ declared.kernels (fun e k made around => ?_) inside
    refine ⟨made.span ▸ around.self, ?_⟩
    refine forall_mem_of_forall₂ made.vars (p := fun e => P e.span) (fun e v made site => ?_)
      fun e mem => (around.child (List.mem_of_mem_filter mem)).self
    exact made.span ▸ site
  simp only [ofRoot, Checked.bind_eq_ok, Checked.both_eq_ok, Checked.pure_eq_ok] at read
  obtain ⟨⟨settings, items⟩, ⟨-, readItems⟩, rfl⟩ := read
  exact
    { kernels := fun k mem => (each k mem).1
      vars := fun k mem => (each k mem).2
      remarks := sited_remarks_of_readItems readItems fun e mem => sites.child mem }

/-! ## Checks of names -/

namespace SitedAt

variable {m : Manifest} (sited : m.SitedAt P)

include sited

theorem hostVariables : ∀ x ∈ m.hostVariables, P x.2.span := by
  intro x mem
  obtain ⟨k, k_mem, of⟩ := List.mem_flatMap.mp (List.mem_of_mem_filter mem)
  obtain ⟨v, v_mem, rfl⟩ := List.mem_map.mp of
  exact sited.vars k k_mem v v_mem

theorem holders : ∀ h ∈ m.holders, P h.span := by
  intro h mem
  rcases List.mem_append.mp mem with ofKernel | ofVariable
  · obtain ⟨k, k_mem, of⟩ := List.mem_flatMap.mp ofKernel
    obtain ⟨part, -, rfl⟩ := List.mem_map.mp of
    exact sited.kernels k (mem_of_mem_firstByKey k_mem)
  · obtain ⟨v, v_mem, of⟩ := List.mem_flatMap.mp ofVariable
    obtain ⟨part, -, rfl⟩ := List.mem_map.mp of
    obtain ⟨x, x_mem, rfl⟩ := List.mem_map.mp (mem_of_mem_firstByKey v_mem)
    exact sited.hostVariables x x_mem

theorem repeatedKernels : ∀ p ∈ m.repeatedKernels, P p.span := by
  intro p mem
  obtain ⟨⟨k, earlier⟩, x_mem, mem⟩ := List.mem_flatMap.mp mem
  have k_mem : k ∈ m.kernels := mem_of_mem_withEarlier x_mem
  rcases List.mem_append.mp mem with again | arguments
  · obtain ⟨before, -, rfl⟩ := Option.map_eq_some_iff.mp (Option.mem_toList.mp again)
    exact sited.kernels k k_mem
  · obtain ⟨⟨v, _⟩, v_mem, made⟩ := List.mem_filterMap.mp arguments
    obtain ⟨before, -, rfl⟩ := Option.map_eq_some_iff.mp made
    exact sited.vars k k_mem v (mem_of_mem_withEarlier v_mem)

theorem ambiguousNames : ∀ p ∈ ambiguousNames m.holders, P p.span := by
  intro p mem
  obtain ⟨⟨h, earlier⟩, x_mem, made⟩ := List.mem_filterMap.mp mem
  obtain ⟨first, -, rfl⟩ := Option.map_eq_some_iff.mp made
  exact sited.holders h (mem_of_mem_withEarlier x_mem)

theorem takenVariables (holders : List Holder) : ∀ p ∈ m.takenVariables holders, P p.span := by
  intro p mem
  obtain ⟨⟨x, earlier⟩, x_mem, mem⟩ := List.mem_flatMap.mp mem
  have site : P x.2.span := sited.hostVariables x (mem_of_mem_withEarlier x_mem)
  rcases List.mem_append.mp mem with clash | again
  · obtain ⟨_, -, rfl⟩ := Option.map_eq_some_iff.mp (Option.mem_toList.mp clash)
    exact site
  · obtain ⟨_, -, rfl⟩ := Option.map_eq_some_iff.mp (Option.mem_toList.mp again)
    exact site

theorem takenGenerators (holders : List Holder) : ∀ p ∈ m.takenGenerators holders, P p.span := by
  intro p mem
  obtain ⟨x, x_mem, made⟩ := List.mem_filterMap.mp mem
  obtain ⟨name, -, made⟩ := Option.bind_eq_some_iff.mp made
  obtain ⟨clash, -, made⟩ := Option.bind_eq_some_iff.mp made
  cases made
  exact sited.hostVariables x x_mem

theorem check : Sited P m.check := by
  refine .ofProblems fun p mem => ?_
  rcases List.mem_append.mp mem with mem | generators
  · rcases List.mem_append.mp mem with mem | taken
    · rcases List.mem_append.mp mem with kernels | names
      · exact sited.repeatedKernels p kernels
      · exact sited.ambiguousNames p names
    · exact sited.takenVariables _ p taken
  · exact sited.takenGenerators _ p generators

end SitedAt
end Manifest

/-! ## Plans -/

theorem Layout.sited_ofVariable {v : Variable} (site : P v.span) (copies : Nat) :
    Sited P (ofVariable v copies) := by
  have vector : Sited P (vectorOf v) := by
    rw [vectorOf]
    split
    · exact .ok _
    · exact .ite (.fail site) (.ok _)
  have count : Sited P (countOf v copies) := by
    rw [countOf]
    split
    · exact .ok _
    · exact .ite (.ok _) (.fail site)
  exact .bind vector fun _ => .bind count fun _ => .pure _

theorem Schedule.sited_ofKernels {kernels : List Kernel} (sites : ∀ k ∈ kernels, P k.span) :
    Sited P (ofKernels kernels) := by
  rw [ofKernels]
  split
  · exact .pure _
  · refine .bind (.ofProblems fun p mem => ?_) fun _ => .pure _
    obtain ⟨k, k_mem, rfl⟩ := List.mem_map.mp mem
    exact sites k (List.mem_of_mem_filter k_mem)

theorem Manifest.SitedAt.plan {m : Manifest} (sited : m.SitedAt P) :
    Sited P (Plan.ofManifest m) := by
  refine .bind (.both (.each ?_) (Schedule.sited_ofKernels sited.kernels)) fun _ => .pure _
  rintro ⟨k, index⟩ mem
  have k_mem := (List.mem_zipIdx' mem).2 ▸ List.getElem_mem _
  refine .map _ (.each ?_)
  rintro ⟨v, i⟩ mem
  have v_mem := (List.mem_zipIdx' mem).2 ▸ List.getElem_mem _
  exact .map _ (Layout.sited_ofVariable (sited.vars k k_mem v v_mem) _)

/-! ## Diagnostics -/

theorem generate_of_root {source : String} {root : Element}
    (document : Xml.readDocument source = .ok root) :
    generate source = (do
      let m ← Manifest.ofRoot root
      m.check
      let p ← Plan.ofManifest m
      return m.generated p) := by
  simp only [generate, Manifest.read, Manifest.rootOf_eq_ok.mpr document, bind_assoc, pure_bind]
  rfl

theorem sited_generate {source : String} {root : Element}
    (document : Xml.readDocument source = .ok root) (sites : root.Everywhere (P ·.span)) :
    Sited P (generate source) := by
  rw [generate_of_root document]
  refine .bind_ok (Manifest.sited_ofRoot sites) fun m read => ?_
  have placed := Manifest.sitedAt_of_ofRoot read sites
  exact .bind placed.check fun _ => .bind placed.plan fun _ => .pure _

theorem sited_remarks_of_generate {source : String} {root : Element} {generated : Generated}
    (document : Xml.readDocument source = .ok root) (made : generate source = .ok generated)
    (sites : root.Everywhere (P ·.span)) : ∀ r ∈ generated.remarks, P r.span := by
  rw [generate_of_root document] at made
  simp only [Checked.bind_eq_ok, Checked.pure_eq_ok] at made
  obtain ⟨m, read, _, -, p, -, rfl⟩ := made
  exact (Manifest.sitedAt_of_ofRoot read sites).remarks

/-- What is said about the text of a manifest. -/
def diagnostics (source : String) : List Diagnostic :=
  match generate source with
  | .ok generated => generated.remarks.map At.warning
  | .error problems => problems.toList.map At.error

/-- Everything is said about an element of the document, or about the fault if the text is no
document. -/
theorem site_of_mem_diagnostics {source : String} {d : Diagnostic} (mem : d ∈ diagnostics source) :
    (∃ root e, Xml.readDocument source = .ok root ∧ root.Contains e ∧ d.span = e.span) ∨
      ∃ row column, d.span = .atPosition source row column := by
  cases document : Xml.readDocument source with
  | error fault =>
      right
      have failed : generate source = .fail (.malformed (fault.message source))
          (.atPosition source (fault.position source).row (fault.position source).column) := by
        simp only [generate, Manifest.read, Manifest.rootOf, document]
        rfl
      rw [diagnostics, failed] at mem
      obtain ⟨p, p_mem, rfl⟩ := List.mem_map.mp mem
      obtain rfl := List.mem_singleton.mp p_mem
      exact ⟨_, _, rfl⟩
  | ok root =>
      left
      let site (s : Span) : Prop := ∃ e, root.Contains e ∧ s = e.span
      have sites : root.Everywhere (site ·.span) := fun e inside => ⟨e, inside, rfl⟩
      have here : site d.span := by
        cases outcome : generate source with
        | error problems =>
            rw [diagnostics, outcome] at mem
            obtain ⟨p, p_mem, rfl⟩ := List.mem_map.mp mem
            have sited := sited_generate document sites
            rw [outcome] at sited
            exact sited p p_mem
        | ok generated =>
            rw [diagnostics, outcome] at mem
            obtain ⟨r, r_mem, rfl⟩ := List.mem_map.mp mem
            exact sited_remarks_of_generate document outcome sites r r_mem
      obtain ⟨e, inside, same⟩ := here
      exact ⟨root, e, rfl, inside, same⟩

end KernelHost
