import KernelHost.Proofs.Inert.Elsewhere
import KernelHost.Proofs.Inert.Emission
import KernelHost.Proofs.Manifest.Defects
import KernelHost.Proofs.Report.Sites

/-!
# Documents that agree

Where no reader tells the elements of two documents apart, the same host program is made of both.
The step from one element to the next is said here for whatever stands behind it, and so is the step
from the manifest that is read to the program that is made of it.
-/

namespace KernelHost

open Xml (Element)

/-! ## Kernels -/

namespace Kernel

structure Parts.ReducesTo (parts parts' : Parts) : Prop where
  range : parts'.range.map WorkRange.essence = parts.range.map WorkRange.essence
  vars : List.Forall₂ Variable.ReducesTo parts.vars parts'.vars

section Parts

variable {written : String} {ranged : Bool} {e e' : Element} {es es' : List Element}
  {rest : Parts}

theorem readParts_range {r : WorkRange} (tag : e.name = "ndrange") (read : WorkRange.read e = .ok r)
    (readRest : readParts written true es = .ok rest) :
    readParts written false (e :: es) = .ok { rest with range := some r } := by
  rw [readParts, if_pos (by simp [isRange, tag]), if_neg (by simp)]
  simp only [Checked.map_eq_ok, Checked.both_eq_ok]
  exact ⟨(r, rest), ⟨read, readRest⟩, rfl⟩

theorem readParts_variable {role : Role} {v : Variable} (tag : Role.ofTag? e.name = some role)
    (read : Variable.read role e = .ok v) (readRest : readParts written ranged es = .ok rest) :
    readParts written ranged (e :: es) = .ok { rest with
      vars := v :: rest.vars
      remarks := v.remarks e ++ rest.remarks } := by
  have noRange : ¬ isRange e := by
    intro range
    rw [isRange, beq_iff_eq] at range
    rw [range] at tag
    cases tag
  rw [readParts, if_neg noRange, tag]
  simp only [Checked.map_eq_ok, Checked.both_eq_ok]
  exact ⟨(v, rest), ⟨read, readRest⟩, rfl⟩

theorem readParts_unknown (noRange : e.name ≠ "ndrange") (noRole : Role.ofTag? e.name = none)
    (readRest : readParts written ranged es = .ok rest) :
    readParts written ranged (e :: es) = .ok { rest with
      remarks := ⟨.unknownKernelElement e.name written, e.span⟩ :: rest.remarks } := by
  rw [readParts, if_neg (by simpa [isRange] using noRange), noRole]
  simp only [Checked.map_eq_ok]
  exact ⟨rest, readRest, rfl⟩

theorem exists_readParts_variable {role : Role} {v : Variable} {remarks : List (At Remark)}
    (tag : Role.ofTag? e'.name = some role)
    (read : ∃ v', Variable.read role e' = .ok v' ∧ v.ReducesTo v')
    (readRest : ∃ rest', readParts written ranged es' = .ok rest' ∧ rest.ReducesTo rest') :
    ∃ parts', readParts written ranged (e' :: es') = .ok parts' ∧
      Parts.ReducesTo { rest with vars := v :: rest.vars, remarks } parts' := by
  obtain ⟨v', read', less⟩ := read
  obtain ⟨rest', readRest', lessRest⟩ := readRest
  exact ⟨_, readParts_variable tag read' readRest', lessRest.range, .cons less lessRest.vars⟩

/-- An element that agrees with the one that was read may stand in front of what is read as less
of the same. -/
theorem exists_readParts_cons {parts : Parts} (agree : e.Agree e')
    (read : readParts written ranged (e :: es) = .ok parts)
    (readRest : ∀ {ranged rest}, readParts written ranged es = .ok rest → rest.vars ⊆ parts.vars →
      ∃ rest', readParts written ranged es' = .ok rest' ∧ rest.ReducesTo rest') :
    ∃ parts', readParts written ranged (e' :: es') = .ok parts' ∧ parts.ReducesTo parts' := by
  rcases cases_of_readParts read with ⟨r, rest, tag, rfl, readRange, behind, rfl⟩ |
    ⟨role, v, rest, -, tag, readVariable, behind, rfl⟩ |
    ⟨rest, noRange, noRole, behind, rfl⟩
  · obtain ⟨rest', readRest', less⟩ := readRest behind (List.Subset.refl _)
    have readRange' := WorkRange.read_of_agree agree readRange
    rw [← agree.name] at tag
    exact ⟨_, readParts_range tag readRange' readRest', rfl, less.vars⟩
  · have readVariable' := Variable.read_of_agree agree tag readVariable
    rw [← agree.name] at tag
    refine exists_readParts_variable tag ⟨_, readVariable', rfl, fun _ => id⟩ ?_
    exact readRest behind (List.subset_cons_self _ _)
  · obtain ⟨rest', readRest', less⟩ := readRest behind (List.Subset.refl _)
    rw [← agree.name] at noRange noRole
    exact ⟨_, readParts_unknown noRange noRole readRest', less.range, less.vars⟩

theorem exists_readParts_of_agree (agree : List.Forall₂ Element.Agree es es') {parts : Parts}
    (read : readParts written ranged es = .ok parts) :
    ∃ parts', readParts written ranged es' = .ok parts' ∧ parts.ReducesTo parts' := by
  induction agree generalizing ranged parts with
  | nil =>
      cases read
      exact ⟨_, rfl, rfl, .nil⟩
  | cons head _ ih =>
      exact exists_readParts_cons head read fun behind _ => ih behind

end Parts

theorem read_of_parts {e : Element} {name : String} {order : Option Int} {parts : Parts}
    {range : WorkRange} (named : readName e = .ok name)
    (ordered : e.number? "order" (Text.integer? 64) = .ok order)
    (read : readParts (writtenName e) false e.elements = .ok parts)
    (ranged : parts.range = some range) :
    Kernel.read e = .ok (⟨name, order, range, parts.vars, e.span⟩, parts.remarks) := by
  rw [writtenName] at read
  simp only [Kernel.read, Checked.bind_eq_ok]
  refine ⟨((name, order), parts, range), ?_, rfl⟩
  have both : Checked.both (Checked.both (readName e) (e.number? "order" (Text.integer? 64)))
      (readParts ((e.attribute? "name").getD "") false e.elements) =
        .ok ((name, order), parts) := by
    simp [named, ordered, read]
  rw [both, demandRange]
  simp [ranged]

/-- A kernel is read as less of the same if the elements inside it are. -/
theorem exists_read_of_parts {e e' : Element} {k : Kernel} {remarks : List (At Remark)}
    (attributes : e'.attributes = e.attributes) (read : Kernel.read e = .ok (k, remarks))
    (inside : ∀ {parts}, readParts (writtenName e) false e.elements = .ok parts →
      parts.vars = k.vars → ∃ parts', readParts (writtenName e) false e'.elements = .ok parts' ∧
        parts.ReducesTo parts') :
    ∃ k' remarks', Kernel.read e' = .ok (k', remarks') ∧ k.ReducesTo k' := by
  have same (name : String) : e'.attribute? name = e.attribute? name := by
    rw [Element.attribute?, Element.attribute?, attributes]
  obtain ⟨parts, named, ordered, readParts, found, vars, -, -⟩ := parts_of_read read
  obtain ⟨parts', readParts', less⟩ := inside readParts vars
  have ranged : ∃ range', parts'.range = some range' ∧ range'.essence = k.range.essence := by
    rw [← Option.map_eq_some_iff, less.range, found]
    rfl
  obtain ⟨range', found', sameRange⟩ := ranged
  have written : writtenName e' = writtenName e := by
    rw [writtenName, writtenName, same]
  refine ⟨_, _, read_of_parts (readName_of_attribute? (same _) named)
    (e.number?_of_attribute? (same _) ordered) (written ▸ readParts') found', ?_⟩
  exact ⟨rfl, rfl, sameRange, vars ▸ less.vars⟩

theorem exists_read_of_agree {e e' : Element} (agree : e.Agree e') {k : Kernel}
    {remarks : List (At Remark)} (read : Kernel.read e = .ok (k, remarks)) :
    ∃ k' remarks', Kernel.read e' = .ok (k', remarks') ∧ k.ReducesTo k' :=
  exists_read_of_parts agree.attributes read fun readParts _ =>
    exists_readParts_of_agree agree.elements readParts

end Kernel

/-! ## Documents -/

namespace Manifest

variable {chosen : Bool} {e e' : Element} {es es' : List Element} {rest : Items}

theorem readItems_kernel {k : Kernel} {remarks : List (At Remark)} (tag : e.name = "kernel")
    (read : Kernel.read e = .ok (k, remarks)) (readRest : readItems chosen es = .ok rest) :
    readItems chosen (e :: es) = .ok { rest with
      kernels := k :: rest.kernels
      remarks := remarks ++ rest.remarks } := by
  simp only [readItems, tag, Checked.map_eq_ok, Checked.both_eq_ok]
  exact ⟨((k, remarks), rest), ⟨read, readRest⟩, rfl⟩

theorem readItems_device {device : DeviceChoice} (tag : e.name = "devinfo")
    (read : DeviceChoice.read e = .ok device) (readRest : readItems true es = .ok rest) :
    readItems chosen (e :: es) = .ok { rest with
      device := rest.device <|> some device
      remarks := (if chosen then [⟨.repeatedDevice, e.span⟩] else []) ++ rest.remarks } := by
  simp only [readItems, tag, Checked.map_eq_ok, Checked.both_eq_ok]
  exact ⟨(device, rest), ⟨read, readRest⟩, rfl⟩

theorem readItems_unknown (noKernel : e.name ≠ "kernel") (noDevice : e.name ≠ "devinfo")
    (readRest : readItems chosen es = .ok rest) :
    readItems chosen (e :: es) = .ok { rest with
      remarks := ⟨.unknownElement e.name, e.span⟩ :: rest.remarks } := by
  rw [readItems]
  split
  · exact absurd ‹_› noKernel
  · exact absurd ‹_› noDevice
  · exact Checked.map_eq_ok.mpr ⟨rest, readRest, rfl⟩

structure Items.ReducesTo (items items' : Items) : Prop where
  device : items'.device = items.device
  kernels : List.Forall₂ Kernel.ReducesTo items.kernels items'.kernels

theorem exists_readItems_kernel {chosen' : Bool} {k : Kernel} {more : List (At Remark)}
    (tag : e'.name = "kernel")
    (read : ∃ k' remarks', Kernel.read e' = .ok (k', remarks') ∧ k.ReducesTo k')
    (readRest : ∃ rest', readItems chosen' es' = .ok rest' ∧ rest.ReducesTo rest') :
    ∃ items', readItems chosen' (e' :: es') = .ok items' ∧
      Items.ReducesTo { rest with kernels := k :: rest.kernels, remarks := more } items' := by
  obtain ⟨k', remarks', read', less⟩ := read
  obtain ⟨rest', readRest', lessRest⟩ := readRest
  exact ⟨_, readItems_kernel tag read' readRest', lessRest.device, .cons less lessRest.kernels⟩

/-- An element that agrees with the one that was read may stand in front of what is read as less
of the same. -/
theorem exists_readItems_cons {items : Items} {chosen' : Bool} (agree : e.Agree e')
    (read : readItems chosen (e :: es) = .ok items)
    (readRest : ∀ {chosen rest} chosen', readItems chosen es = .ok rest →
      rest.kernels ⊆ items.kernels →
      ∃ rest', readItems chosen' es' = .ok rest' ∧ rest.ReducesTo rest') :
    ∃ items', readItems chosen' (e' :: es') = .ok items' ∧ items.ReducesTo items' := by
  rcases cases_of_readItems read with ⟨k, remarks, rest, tag, readKernel, behind, rfl⟩ |
    ⟨device, rest, tag, readDevice, behind, rfl⟩ | ⟨rest, noKernel, noDevice, behind, rfl⟩
  · rw [← agree.name] at tag
    refine exists_readItems_kernel tag (Kernel.exists_read_of_agree agree readKernel) ?_
    exact readRest chosen' behind (List.subset_cons_self _ _)
  · obtain ⟨rest', readRest', less⟩ := readRest true behind (List.Subset.refl _)
    have readDevice' := DeviceChoice.read_of_agree agree readDevice
    rw [← agree.name] at tag
    refine ⟨_, readItems_device tag readDevice' readRest', ?_, less.kernels⟩
    exact congrArg (· <|> some device) less.device
  · obtain ⟨rest', readRest', less⟩ := readRest chosen' behind (List.Subset.refl _)
    rw [← agree.name] at noKernel noDevice
    exact ⟨_, readItems_unknown noKernel noDevice readRest', less.device, less.kernels⟩

theorem exists_readItems_of_agree (agree : List.Forall₂ Element.Agree es es') {items : Items}
    (read : readItems chosen es = .ok items) (chosen' : Bool) :
    ∃ items', readItems chosen' es' = .ok items' ∧ items.ReducesTo items' := by
  induction agree generalizing chosen chosen' items with
  | nil =>
      cases read
      exact ⟨_, rfl, rfl, .nil⟩
  | cons head _ ih =>
      exact exists_readItems_cons head read fun chosen' behind _ => ih behind chosen'

/-- A manifest is read as less of the same if the elements inside the root are. -/
theorem exists_ofRoot_of_items {root root' : Element} {m : Manifest}
    (attributes : root'.attributes = root.attributes) (read : ofRoot root = .ok m)
    (inside : ∀ {items}, readItems false root.elements = .ok items → items.kernels = m.kernels →
      ∃ items', readItems false root'.elements = .ok items' ∧ items.ReducesTo items') :
    ∃ m', ofRoot root' = .ok m' ∧ m.ReducesTo m' := by
  have same : root'.attribute? = root.attribute? := by
    funext name
    rw [Element.attribute?, Element.attribute?, attributes]
  simp only [ofRoot, Checked.bind_eq_ok, Checked.both_eq_ok, Checked.pure_eq_ok] at read ⊢
  obtain ⟨⟨settings, items⟩, ⟨readSettings, readItems⟩, rfl⟩ := read
  obtain ⟨items', readItems', less⟩ := inside readItems rfl
  have readSettings' : Settings.ofAttributes root'.attribute? root'.span = .ok settings :=
    same ▸ Settings.ofAttributes_elsewhere readSettings root'.span
  refine ⟨_, ⟨(settings, items'), ⟨readSettings', readItems'⟩, rfl⟩, ?_, less.kernels⟩
  simp [less.device]

theorem exists_ofRoot_of_agree {root root' : Element} {m : Manifest} (agree : root.Agree root')
    (read : ofRoot root = .ok m) : ∃ m', ofRoot root' = .ok m' ∧ m.ReducesTo m' :=
  exists_ofRoot_of_items agree.attributes read fun readItems _ =>
    exists_readItems_of_agree agree.elements readItems false

end Manifest

/-! ## Host programs -/

section

variable {source source' : String} {root root' : Element} {generated : Generated}
  (document : Xml.readDocument source = .ok root) (made : generate source = .ok generated)
  (document' : Xml.readDocument source' = .ok root')

include document made document'

/-- If a document is read as less of what an accepted one is read as, the same program is made of
it. -/
theorem generate_of_reducesTo
    (read' : ∀ {m}, Manifest.ofRoot root = .ok m → m.nameProblems = [] →
      generated.remarks = m.remarks → ∃ m', Manifest.ofRoot root' = .ok m' ∧ m.ReducesTo m') :
    ∃ generated', generate source' = .ok generated' ∧
      generated'.program = generated.program := by
  rw [generate_of_root document] at made
  simp only [Checked.bind_eq_ok, Checked.pure_eq_ok] at made
  obtain ⟨m, read, _, checked, p, planned, rfl⟩ := made
  have none := Checked.ofProblems_eq_ok.mp checked
  obtain ⟨m', read', less⟩ := read' read none rfl
  have checked' : m'.check = .ok () :=
    Checked.ofProblems_eq_ok.mpr (less.nameProblems_eq_nil none)
  obtain ⟨p', planned', same⟩ := Plan.exists_ofManifest_of_essence less.essence planned
  have program : Host.Program.ofPlan p' = Host.Program.ofPlan p := by
    rw [← Host.ofPlan_essence p' (Plan.arranges_of_ofManifest planned').stands, same,
      Host.ofPlan_essence p (Plan.arranges_of_ofManifest planned).stands]
  refine ⟨m'.generated p', ?_, congrArg Host.Program.text program⟩
  rw [generate_of_root document']
  simp only [Checked.bind_eq_ok, Checked.pure_eq_ok]
  exact ⟨m', read', (), checked', p', planned', rfl⟩

theorem generate_of_agree (agree : root.Agree root') :
    ∃ generated', generate source' = .ok generated' ∧
      generated'.program = generated.program :=
  generate_of_reducesTo document made document' fun read _ _ =>
    Manifest.exists_ofRoot_of_agree agree read

end
end KernelHost
