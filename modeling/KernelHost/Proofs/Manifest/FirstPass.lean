import KernelHost.Proofs.Manifest.Defects
import KernelHost.Proofs.Report.Sites

/-!
# The first pass

The readers collect the problems of parts that do not depend on each other, through nested lists, a
flag for the range that was met, and two ends of a kernel without a range.  Whatever the other parts
are, each defect of the document is reported once, in the order in which the defects are listed, and
nothing else is reported.
-/

namespace KernelHost

open Xml (Element)

/-! ## Steps that meet at most one problem -/

/-- A step meets no problem, or a single one that satisfies a condition. -/
def Checked.Once {α : Type} (R : At Problem → Prop) (x : Checked α) : Prop :=
  x.problems = [] ∨ ∃ p, R p ∧ x.problems = [p]

namespace Checked.Once

variable {R : At Problem → Prop} {α β : Type} {what : Problem} {span : Span}

theorem ok (a : α) : Once R (.ok a : Checked α) :=
  .inl rfl

theorem pure (a : α) : Once R (Pure.pure a : Checked α) :=
  ok a

theorem fail (here : R ⟨what, span⟩) : Once R (Checked.fail what span : Checked α) :=
  .inr ⟨_, here, rfl⟩

theorem ofOption (here : R ⟨what, span⟩) (o : Option α) :
    Once R (Checked.ofOption what span o) := by
  cases o with
  | none => exact fail here
  | some a => exact ok a

theorem map {x : Checked α} (f : α → β) (once : Once R x) : Once R (x.map f) := by
  simpa [Once] using once

theorem bind {x : Checked α} {f : α → Checked β} (first : Once R x)
    (second : ∀ a, Once R (f a)) : Once R (x >>= f) := by
  cases x with
  | error ps => exact first
  | ok a => exact second a

theorem ite {c : Prop} [Decidable c] {x y : Checked α} (left : Once R x) (right : Once R y) :
    Once R (if c then x else y) := by
  split
  · exact left
  · exact right

theorem optional {written : Option String} {absent : α} {read : String → Checked α}
    (once : ∀ text ∈ written, Once R (read text)) :
    Once R (match written with
      | none => .ok absent
      | some text => read text) := by
  cases written with
  | none => exact ok absent
  | some text => exact once text rfl

end Checked.Once

theorem Checked.problems_eq_nil_iff {α : Type} {x : Checked α} :
    x.problems = [] ↔ ∃ a, x = .ok a := by
  cases x with
  | ok a => simp [problems]
  | error ps => simp [problems, ps.toList_ne_nil]

open Checked (Once)

/-! ## What defects are reported as -/

namespace Problem

/-- A problem that a variable may have. -/
def OfVariable : Problem → Prop
  | .missingAttribute _ _ | .invalidNumber _ _ _ | .noElements _ | .variableName _
  | .notToggle _ "novalidation" | .invalidTolerance _ | .generatorName _ => True
  | _ => False

/-- A problem that a range may have. -/
def OfRange : Problem → Prop
  | .invalidNumber _ "dim" _ | .dimensions _ | .emptySizes _ | .sizeCount _ _ _
  | .noGlobalSizes => True
  | _ => False

end Problem

namespace Defect

/-- What a defect is reported as. -/
inductive ReportedBy : Defect → At Problem → Prop
  | program {root : Element} : ReportedBy (.program root) ⟨.noProgram, root.span⟩
  | toggle {root : Element} {name value : String} (written : root.attribute? name = some value) :
      ReportedBy (.toggle root name) ⟨.notToggle value name, root.span⟩
  | copies {root : Element} {value : String} (written : root.attribute? "repeat" = some value) :
      ReportedBy (.copies root) ⟨.invalidCopies value, root.span⟩
  | api {root : Element} {value : String} (written : root.attribute? "api" = some value) :
      ReportedBy (.api root) ⟨.unknownApi value, root.span⟩
  | device {e : Element} {name value : String} (index : name = "platform" ∨ name = "device")
      (written : e.attribute? name = some value) :
      ReportedBy (.device e) ⟨.invalidNumber e.name name value, e.span⟩
  | absentName {kernel : Element} :
      ReportedBy (.kernelName kernel) ⟨.missingAttribute kernel.name "name", kernel.span⟩
  | kernelName {kernel : Element} {name : String}
      (written : kernel.attribute? "name" = some name) :
      ReportedBy (.kernelName kernel) ⟨.kernelName name, kernel.span⟩
  | order {kernel : Element} {value : String} (written : kernel.attribute? "order" = some value) :
      ReportedBy (.order kernel) ⟨.invalidNumber kernel.name "order" value, kernel.span⟩
  | variable {e : Element} {what : Problem} (kind : what.OfVariable) :
      ReportedBy (.variable e) ⟨what, e.span⟩
  | range {e : Element} {p : At Problem} (kind : p.what.OfRange)
      (place : p.span = e.span ∨ ∃ child ∈ e.elements, p.span = child.span) :
      ReportedBy (.range e) p
  | laterRange {kernel e : Element} :
      ReportedBy (.laterRange kernel e) ⟨.secondRange (Kernel.writtenName kernel), e.span⟩
  | noRange {kernel : Element} :
      ReportedBy (.noRange kernel) ⟨.noRange (Kernel.writtenName kernel), kernel.span⟩

/-- A step reports defects: each once, in order, and nothing else. -/
def Reports {α : Type} (ds : List Defect) (x : Checked α) : Prop :=
  List.Forall₂ ReportedBy ds x.problems

namespace Reports

variable {α β : Type} {ds es : List Defect} {x : Checked α} {y : Checked β} {d : Defect}

theorem ok (a : α) : Reports [] (.ok a : Checked α) :=
  .nil

theorem fail {what : Problem} {span : Span} (here : d.ReportedBy ⟨what, span⟩) :
    Reports [d] (Checked.fail what span : Checked α) :=
  .cons here .nil

theorem map (f : α → β) (reports : Reports ds x) : Reports ds (x.map f) := by
  rwa [Reports, Checked.problems_map]

theorem both (left : Reports ds x) (right : Reports es y) :
    Reports (ds ++ es) (Checked.both x y) := by
  rw [Reports, Checked.problems_both]
  exact List.rel_append left right

/-- What is done with the value of a step reports nothing if it cannot fail. -/
theorem bind_ok {f : α → Checked β} (reports : Reports ds x) (next : ∀ a, ∃ b, f a = .ok b) :
    Reports ds (x >>= f) := by
  cases x with
  | error ps => exact reports
  | ok a =>
      obtain ⟨b, made⟩ := next a
      change List.Forall₂ _ ds (f a).problems
      rwa [made]

/-- A step that meets at most one problem reports a defect, unless the condition holds that it
succeeds on. -/
theorem of_once {sound : Prop} [Decidable sound] (once : Once d.ReportedBy x)
    (succeeds : (∃ a, x = .ok a) ↔ sound) : Reports (unmet sound d) x := by
  rw [Reports, unmet]
  rw [← Checked.problems_eq_nil_iff] at succeeds
  split
  · rename_i holds
    rw [succeeds.mpr holds]
    exact .nil
  · rename_i fails
    rcases once with none | ⟨p, here, only⟩
    · exact absurd (succeeds.mp none) fails
    · rw [only]
      exact .cons here .nil

/-- An attribute that may be absent. -/
theorem optional {written : Option String} {default : α} {what : String → Problem} {span : Span}
    {read? : String → Option α} {understood : String → Prop} [DecidablePred understood]
    (reads : ∀ text, (read? text).isSome ↔ understood text)
    (here : ∀ text ∈ written, d.ReportedBy ⟨what text, span⟩) :
    Reports (unmet (Legible understood written) d)
      (match written with
        | none => Except.ok default
        | some text => Checked.ofOption (what text) span (read? text)) := by
  refine of_once (.optional fun text mem => .ofOption (here text mem) _) ?_
  cases written with
  | none => simp [Legible]
  | some text => simp [Legible, ← reads, Option.isSome_iff_exists]

theorem eq_nil_of_ok {a : α} (reports : Reports ds (.ok a : Checked α)) : ds = [] := by
  cases reports
  rfl

end Reports

/-! ## Settings -/

section Settings

open KernelHost.Settings

variable (root : Element)

theorem reports_readProgram :
    Reports (unmet (Programmed root) (.program root))
      (readProgram root.attribute? root.span) := by
  refine .of_once ?_ ?_
  · rw [readProgram]
    split
    · exact .ok _
    · exact .ok _
    · exact .fail .program
  · rw [readProgram, Programmed]
    cases root.attribute? "program" <;> cases root.attribute? "source" <;> simp

theorem reports_readToggle (name : String) :
    Reports (unmet (Legible IsToggle (root.attribute? name)) (.toggle root name))
      (readToggle root.attribute? root.span name) := by
  rw [readToggle]
  exact .optional (fun _ => isSome_toggle?_iff) fun _ written => .toggle written

theorem reports_readHooks :
    Reports ((Hook.all.map Hook.attributeName).flatMap fun name =>
      unmet (Legible IsToggle (root.attribute? name)) (.toggle root name))
      (readHooks root.attribute? root.span) := by
  simp only [Hook.all, List.map_cons, List.map_nil, List.flatMap_cons, List.flatMap_nil,
    List.append_nil]
  exact .map _ <| .both (reports_readToggle root _) <| .both (reports_readToggle root _) <|
    .both (reports_readToggle root _) <| .both (reports_readToggle root _)
      (reports_readToggle root _)

theorem reports_readCopies :
    Reports (unmet (Legible IsFactor (root.attribute? "repeat")) (.copies root))
      (readCopies root.attribute? root.span) := by
  rw [readCopies]
  refine .optional (fun text => ?_) fun _ written => .copies written
  simp [IsFactor, Option.any_eq_true]

theorem reports_readApi :
    Reports (unmet (Legible IsVersion (root.attribute? "api")) (.api root))
      (readApi root.attribute? root.span) := by
  rw [readApi]
  exact .optional (fun _ => isSome_ofText?_iff) fun _ written => .api written

theorem reports_ofAttributes :
    Reports (ofSettings root) (ofAttributes root.attribute? root.span) := by
  rw [ofSettings, toggles, List.flatMap_cons]
  simp only [List.append_assoc]
  refine .bind_ok ?_ fun _ => ⟨_, rfl⟩
  exact .both (reports_readProgram root) <| .both (reports_readToggle root _) <|
    .both (reports_readHooks root) <| .both (reports_readCopies root) (reports_readApi root)

end Settings

/-! ## Variables and ranges -/

section Parts

open KernelHost.Variable KernelHost.WorkRange

variable {e : Element}

theorem once_readVariable (role : Role) :
    Once (ReportedBy (.variable e)) (Variable.read role e) := by
  have named (argument : Nat) : Once (ReportedBy (.variable e)) (readName role argument e) := by
    unfold readName
    split
    · exact .ite (.ok _) (.fail (.variable trivial))
    · exact .ok _
    · exact .fail (.variable trivial)
  have toggled : Once (ReportedBy (.variable e)) (readUnvalidated e) :=
    .optional fun _ _ => .ofOption (.variable trivial) _
  have tolerated : Once (ReportedBy (.variable e)) (readTolerance e) :=
    .optional fun _ _ => .bind (.ofOption (.variable trivial) _) fun _ =>
      .ite (.fail (.variable trivial)) (.ok _)
  have generated : Once (ReportedBy (.variable e)) (readGenerator e) :=
    .optional fun _ _ => .ite (.ok _) (.fail (.variable trivial))
  -- Each step is the first that can fail behind those that have not.
  refine .bind (.ofOption (.variable trivial) _) fun _ =>
    .bind (.ofOption (.variable trivial) _) fun _ =>
      .bind (.ofOption (.variable trivial) _) fun _ =>
        .bind (.ofOption (.variable trivial) _) fun _ =>
          .bind (.ofOption (.variable trivial) _) fun argument => ?_
  refine .ite (.bind (.fail (.variable trivial)) fun _ => ?_) ?_ <;>
    exact .bind (named argument) fun _ => .bind toggled fun _ => .bind tolerated fun _ =>
      .bind generated fun _ => .pure _

theorem once_readLists {dimensions : Nat} {globalSizes localSizes : Option String}
    {es : List Element} (inside : ∀ child ∈ es, child ∈ e.elements) :
    Once (ReportedBy (.range e)) (readLists dimensions globalSizes localSizes es) := by
  induction es generalizing globalSizes localSizes with
  | nil => exact .ok _
  | cons child es ih =>
      obtain ⟨here, rest⟩ := List.forall_mem_cons.mp inside
      have sizes : Once (ReportedBy (.range e)) (readSizes dimensions child) :=
        .bind (.ofOption (.range trivial (.inr ⟨child, here, rfl⟩)) _) fun _ =>
          .ite (.pure _) (.fail (.range trivial (.inr ⟨child, here, rfl⟩)))
      rw [readLists]
      split
      · exact .bind sizes fun _ => ih rest
      · exact .bind sizes fun _ => ih rest
      · exact ih rest

theorem once_readRange : Once (ReportedBy (.range e)) (WorkRange.read e) := by
  have dimensions : Once (ReportedBy (.range e)) (e.number? "dim" (Text.natural? 32)) :=
    .optional fun _ _ => .map _ (.ofOption (.range trivial (.inl rfl)) _)
  refine .bind dimensions fun _ => ?_
  refine .ite (.bind (.fail (.range trivial (.inl rfl))) fun _ => ?_) ?_ <;>
    exact .bind (once_readLists fun _ mem => mem) fun _ =>
      .bind (.ofOption (.range trivial (.inl rfl)) _) fun _ => .pure _

end Parts

/-! ## Kernels -/

section Kernel

open KernelHost.Kernel

variable (kernel : Element)

theorem reports_readName :
    Reports (unmet (Named kernel) (.kernelName kernel)) (readName kernel) := by
  unfold readName Element.required
  refine .of_once ?_ ?_
  · cases entry : kernel.attribute? "name" with
    | none => exact .fail .absentName
    | some name => exact .ite (.pure _) (.fail (.kernelName entry))
  · simp only [Named, Checked.bind_eq_ok, Checked.ofOption_eq_ok]
    constructor
    · rintro ⟨_, name, entry, read⟩
      split at read
      · rename_i identifier
        exact ⟨name, entry, identifier⟩
      · simp at read
    · rintro ⟨name, entry, identifier⟩
      exact ⟨name, name, entry, by simp [identifier]⟩

theorem reports_readOrder :
    Reports (unmet (Legible IsKey (kernel.attribute? "order")) (.order kernel))
      (kernel.number? "order" (Text.integer? 64)) := by
  refine .of_once ?_ ?_
  · exact .optional fun _ entry => .map _ (.ofOption (.order entry) _)
  · rw [Element.number?]
    cases kernel.attribute? "order" <;>
      simp [Legible, IsKey, Element.number, Option.isSome_iff_exists]

theorem reports_readParts (ranged : Bool) (es : List Element) :
    Reports (ofParts kernel ranged es) (readParts (writtenName kernel) ranged es) := by
  induction es generalizing ranged with
  | nil => exact .ok _
  | cons e es ih =>
      rw [ofParts, readParts]
      by_cases range : isRange e
      · rw [if_pos range, if_pos range]
        cases ranged with
        | true => exact .map _ (.both (.fail .laterRange) (ih true))
        | false =>
            have first : Reports (unmet (WorkRange.Sound e) (.range e)) (WorkRange.read e) :=
              .of_once once_readRange WorkRange.exists_read_iff
            exact .map _ (.both first (ih true))
      · rw [if_neg range, if_neg range]
        split
        · rename_i role tag
          have sound : (∃ v, Variable.read role e = .ok v) ↔ ¬ Faulty e := by
            simp [Faulty, tag, Variable.exists_read_iff tag]
          exact .map _ (.both (.of_once (once_readVariable role) sound) (ih ranged))
        · rename_i tag
          have none : unmet (¬ Faulty e) (.variable e) = [] := by simp [unmet, Faulty, tag]
          rw [none]
          exact .map _ (ih ranged)

/-- Where the parts are read, a range is met exactly if there is one. -/
theorem isSome_range_iff {name : String} {es : List Element} {parts : Parts}
    (read : readParts name false es = .ok parts) : parts.range.isSome ↔ es.any isRange := by
  have any : es.any isRange ↔ es.filter (·.name == "ndrange") ≠ [] := by
    simp [isRange, List.filter_eq_nil_iff]
  rw [any]
  obtain ⟨-, ⟨none, absent⟩ | ⟨child, r, only, found, -⟩, -⟩ := reads_of_readParts read
  · simp [none, absent]
  · simp [only, found]

theorem reports_demandRange {α : Type} {ds : List Defect} {x : Checked (α × Parts)}
    (reports : Reports ds x)
    (met : ∀ y, x = .ok y → (y.2.range.isSome ↔ kernel.elements.any isRange)) :
    Reports (ds ++ unmet (kernel.elements.any isRange) (.noRange kernel))
      (demandRange (writtenName kernel) kernel x) := by
  cases x with
  | ok y =>
      have met := met y rfl
      rw [reports.eq_nil_of_ok, unmet]
      simp only [demandRange]
      cases found : y.2.range with
      | some range =>
          rw [if_pos (met.mp (by simp [found]))]
          exact .ok _
      | none =>
          rw [if_neg fun any => by simpa [found] using met.mpr any]
          exact .fail .noRange
  | error ps =>
      simp only [demandRange, unmet]
      split
      · rw [List.append_nil]
        exact reports
      · rw [Reports, Checked.problems, Problems.toList_append]
        exact List.rel_append reports (.cons .noRange .nil)

theorem reports_readKernel : Reports (ofKernel kernel) (Kernel.read kernel) := by
  refine .bind_ok ?_ fun _ => ⟨_, rfl⟩
  refine reports_demandRange kernel ?_ fun y read => ?_
  · exact .both (.both (reports_readName kernel) (reports_readOrder kernel))
      (reports_readParts kernel false kernel.elements)
  · exact isSome_range_iff (Checked.both_eq_ok.mp read).2

end Kernel

/-! ## Documents -/

theorem reports_readDevice (e : Element) :
    Reports (unmet (DeviceChoice.Sound e) (.device e)) (DeviceChoice.read e) := by
  refine .of_once ?_ DeviceChoice.exists_read_iff
  have index {name : String} (which : name = "platform" ∨ name = "device") :
      Once (ReportedBy (.device e)) (e.number? name (Text.natural? 32)) :=
    .optional fun _ entry => .map _ (.ofOption (.device which entry) _)
  exact .bind (index (.inl rfl)) fun _ => .bind (index (.inr rfl)) fun _ => .pure _

theorem reports_readItems (chosen : Bool) (es : List Element) :
    Reports (es.flatMap ofItem) (Manifest.readItems chosen es) := by
  induction es generalizing chosen with
  | nil => exact .ok _
  | cons e es ih =>
      rw [List.flatMap_cons, Manifest.readItems]
      split
      · rename_i tag
        rw [ofItem, if_pos tag]
        exact .map _ (.both (reports_readKernel e) (ih chosen))
      · rename_i tag
        rw [ofItem, if_neg (by simp [tag]), if_pos tag]
        exact .map _ (.both (reports_readDevice e) (ih true))
      · rename_i noKernel noDevice
        rw [ofItem, if_neg noKernel, if_neg noDevice]
        exact .map _ (ih chosen)

theorem reports_readRoot (root : Element) : Reports (ofRoot root) (Manifest.ofRoot root) := by
  refine .bind_ok ?_ fun _ => ⟨_, rfl⟩
  exact .both (reports_ofAttributes root) (reports_readItems false root.elements)

end Defect

namespace Manifest

/-- If a document has defects, each of them is reported, those of the settings first, and nothing
else; if it has none, its manifest is rejected for its names alone. -/
theorem read_of_defects {source : String} {root : Element}
    (document : Xml.readDocument source = .ok root) :
    (0 < DefectCount.ofRoot root → ∃ ps, Manifest.read source = .error ps ∧
        ps.toList.length = DefectCount.ofRoot root ∧
        List.Forall₂ Defect.ReportedBy (Defect.ofRoot root) ps.toList) ∧
      (DefectCount.ofRoot root = 0 → ∃ m, ofRoot root = .ok m ∧ m.DeclaredBy root ∧
        Manifest.read source = m.check.map fun _ => m) := by
  have reports := Defect.reports_readRoot root
  have length := reports.length_eq
  rw [Defect.length_ofRoot] at length
  rw [read_of_root document]
  cases outcome : ofRoot root with
  | error ps =>
      rw [outcome] at reports length
      have some : 0 < ps.toList.length := List.length_pos_iff.mpr ps.toList_ne_nil
      refine ⟨fun _ => ⟨ps, rfl, length.symm, reports⟩, fun none => ?_⟩
      have length : DefectCount.ofRoot root = ps.toList.length := length
      omega
  | ok m =>
      rw [outcome] at length
      have none : DefectCount.ofRoot root = 0 := length
      refine ⟨fun some => by omega, fun _ => ⟨m, rfl, declaredBy_of_ofRoot outcome, ?_⟩⟩
      change (do m.check; return m) = _
      cases m.check <;> rfl

/-- A document without a program, whose toggle, factor, kernel and device cannot be read. -/
def defectiveManifest : String :=
  "<k profile='maybe' repeat='0'><kernel name='1f' order='x'>" ++
    "<input name='a' type='int' nmemb='0' arg='0'/></kernel><devinfo platform='p'/></k>"

set_option maxRecDepth 100000 in
theorem read_of_defects_defectiveManifest :
    (∃ root, Xml.readDocument defectiveManifest = .ok root ∧ DefectCount.ofRoot root = 8 ∧
        ∃ ps, Manifest.read defectiveManifest = .error ps ∧ ps.toList.length = 8 ∧
          List.Forall₂ Defect.ReportedBy (Defect.ofRoot root) ps.toList) ∧
      ∃ root, Xml.readDocument Plan.sampleManifest = .ok root ∧ DefectCount.ofRoot root = 0 ∧
        ∃ m, ofRoot root = .ok m ∧ Manifest.read Plan.sampleManifest = m.check.map fun _ => m := by
  constructor
  · obtain ⟨root, document, count⟩ := Xml.exists_root defectiveManifest
      (fun root => DefectCount.ofRoot root == 8) (by decide +kernel)
    have count : DefectCount.ofRoot root = 8 := by simpa using count
    obtain ⟨ps, read, length, reported⟩ := (read_of_defects document).1 (by omega)
    exact ⟨root, document, count, ps, read, length.trans count, reported⟩
  · obtain ⟨root, document, count⟩ := Xml.exists_root Plan.sampleManifest
      (fun root => DefectCount.ofRoot root == 0) (by decide +kernel)
    have count : DefectCount.ofRoot root = 0 := by simpa using count
    obtain ⟨m, readRoot, -, decided⟩ := (read_of_defects document).2 count
    exact ⟨root, document, count, m, readRoot, decided⟩

end Manifest
end KernelHost
