import KernelHost.Proofs.Inert.Agreement
import KernelHost.Proofs.Inert.Trimming
import KernelHost.Proofs.Manifest.FirstPass

/-!
# What is passed over may go

Whatever the remarks on an accepted document call idle, unknown, doubled or superseded can be taken
out of it: the trimmed document is accepted, and its host program is the same text.
-/

namespace KernelHost

open Xml (Element)

variable {issued : List (At Remark)} {vars : List Variable}

/-! ## Kernels -/

namespace Kernel

/-- Trimmed elements inside a kernel are read as less of the same. -/
theorem exists_readParts {written : String} {ranged : Bool} {es es' : List Element}
    (trims : TrimsParts issued written es es') (issuedFor : ∀ r ∈ issued, r.what.IssuedFor vars)
    {parts : Parts} (read : readParts written ranged es = .ok parts)
    (warranted : ∀ v ∈ parts.vars, v.Warranted issued) :
    ∃ parts', readParts written ranged es' = .ok parts' ∧ parts.ReducesTo parts' := by
  induction trims generalizing ranged parts with
  | nil =>
      cases read
      exact ⟨_, rfl, rfl, .nil⟩
  | keep alike _ ih =>
      exact exists_readParts_cons alike.agree read fun readRest among =>
        ih readRest fun v mem => warranted v (among mem)
  | @trim e e' es es' role v dropped tag readVariable trims _ ih =>
      rcases cases_of_readParts read with ⟨r, rest, range, -⟩ |
        ⟨role', v', rest, -, tag', readVariable', readRest, rfl⟩ | ⟨rest, -, noRole, -⟩
      · simp [range, Role.ofTag?] at tag
      · obtain rfl := Option.some.inj (tag.symm.trans tag')
        obtain rfl := Except.ok.inj (readVariable.symm.trans readVariable')
        obtain ⟨here, behind⟩ := List.forall_mem_cons.mp warranted
        have less := trims.exists_read here tag readVariable
        rw [← trims.name] at tag
        exact exists_readParts_variable tag less (ih readRest behind)
      · simp [noRole] at tag
  | @drop e es es' remark _ ih =>
      obtain ⟨noRange, noRole⟩ := issuedFor _ remark
      rcases cases_of_readParts read with ⟨r, rest, range, -⟩ | ⟨role, v, rest, -, tag, -⟩ |
        ⟨rest, -, -, readRest, rfl⟩
      · exact absurd range noRange
      · simp [noRole] at tag
      · obtain ⟨rest', readRest', less⟩ := ih readRest warranted
        exact ⟨rest', readRest', less.range, less.vars⟩

theorem exists_read {e e' : Element} (trims : Kernel.Trims issued e e')
    (issuedFor : ∀ r ∈ issued, r.what.IssuedFor vars) {k : Kernel} {remarks : List (At Remark)}
    (read : Kernel.read e = .ok (k, remarks)) (warranted : ∀ v ∈ k.vars, v.Warranted issued) :
    ∃ k' remarks', Kernel.read e' = .ok (k', remarks') ∧ k.ReducesTo k' :=
  exists_read_of_parts trims.attributes read fun readParts vars =>
    exists_readParts trims.parts issuedFor readParts (vars ▸ warranted)

end Kernel

/-! ## Documents -/

namespace Manifest

variable {chosen : Bool} {es es' : List Element}

/-- A device is chosen by the last choice. -/
theorem isSome_device_of_readItems {items : Items} (read : readItems chosen es = .ok items)
    (choice : ∃ child ∈ es, child.name = "devinfo") : items.device.isSome := by
  induction es generalizing chosen items with
  | nil => simp at choice
  | cons e es ih =>
      rcases cases_of_readItems read with ⟨k, remarks, rest, tag, -, readRest, rfl⟩ |
        ⟨device, rest, -, -, -, rfl⟩ | ⟨rest, -, noDevice, readRest, rfl⟩
      · have behind := ih readRest (by simpa [tag] using choice)
        exact behind
      · simp
      · have behind := ih readRest (by simpa [noDevice] using choice)
        exact behind

/-- Trimmed elements inside the root are read as less of the same. -/
theorem exists_readItems (trims : TrimsItems issued es es')
    (issuedFor : ∀ r ∈ issued, r.what.IssuedFor vars) {items : Items}
    (read : readItems chosen es = .ok items)
    (warranted : ∀ k ∈ items.kernels, ∀ v ∈ k.vars, v.Warranted issued) (chosen' : Bool) :
    ∃ items', readItems chosen' es' = .ok items' ∧ items.ReducesTo items' := by
  induction trims generalizing chosen chosen' items with
  | nil =>
      cases read
      exact ⟨_, rfl, rfl, .nil⟩
  | keep alike _ ih =>
      exact exists_readItems_cons alike.agree read fun chosen' readRest among =>
        ih readRest (fun k mem => warranted k (among mem)) chosen'
  | @trim e e' es es' isKernel trims _ ih =>
      rcases cases_of_readItems read with ⟨k, remarks, rest, tag, readKernel, readRest, rfl⟩ |
        ⟨device, rest, tag, -⟩ | ⟨rest, noKernel, -⟩
      · obtain ⟨here, behind⟩ := List.forall_mem_cons.mp warranted
        have less := Kernel.exists_read trims issuedFor readKernel here
        rw [← trims.name] at tag
        exact exists_readItems_kernel tag less (ih readRest behind chosen')
      · simp [isKernel] at tag
      · exact absurd isKernel noKernel
  | @drop e es es' remark _ ih =>
      obtain ⟨noKernel, noDevice⟩ := issuedFor _ remark
      rcases cases_of_readItems read with ⟨k, remarks, rest, tag, -⟩ | ⟨device, rest, tag, -⟩ |
        ⟨rest, -, -, readRest, rfl⟩
      · exact absurd tag noKernel
      · exact absurd tag noDevice
      · obtain ⟨rest', readRest', less⟩ := ih readRest warranted chosen'
        exact ⟨rest', readRest', less.device, less.kernels⟩
  | @supersede e es es' isDevice later _ ih =>
      rcases cases_of_readItems read with ⟨k, remarks, rest, tag, -⟩ |
        ⟨device, rest, -, -, readRest, rfl⟩ | ⟨rest, -, noDevice, -⟩
      · simp [isDevice] at tag
      · -- The later choice holds with this one and without it.
        obtain ⟨last, chosen⟩ := Option.isSome_iff_exists.mp
          (isSome_device_of_readItems readRest later)
        obtain ⟨rest', readRest', less⟩ := ih readRest warranted chosen'
        exact ⟨rest', readRest', by simp [less.device, chosen], less.kernels⟩
      · exact absurd isDevice noDevice

theorem exists_ofRoot {root root' : Element} {m : Manifest}
    (trims : Manifest.Trims m.remarks root root') (read : ofRoot root = .ok m)
    (names : (m.hostVariables.map (·.2.name)).Nodup) :
    ∃ m', ofRoot root' = .ok m' ∧ m.ReducesTo m' := by
  have issuedFor := issuedFor_of_ofRoot read
  have warranted := warranted names issuedFor
  exact exists_ofRoot_of_items trims.attributes read fun readItems kernels =>
    exists_readItems trims.items issuedFor readItems (kernels ▸ warranted) false

end Manifest

/-! ## Host programs -/

/-- A trimmed document is accepted, and its host program is that of the whole document, byte for
byte. -/
theorem generate_of_trims {source source' : String} {root root' : Element} {generated : Generated}
    (document : Xml.readDocument source = .ok root) (made : generate source = .ok generated)
    (document' : Xml.readDocument source' = .ok root')
    (trims : Manifest.Trims generated.remarks root root') :
    ∃ generated', generate source' = .ok generated' ∧
      generated'.program = generated.program := by
  refine generate_of_reducesTo document made document' fun read none remarks => ?_
  obtain ⟨-, -, -, -, names, -⟩ := Manifest.nameProblems_eq_nil_iff.mp none
  exact Manifest.exists_ofRoot (remarks ▸ trims) read names

/-! ## A document with something to spare -/

/-- An element that is unknown, a device that is not used, and contents of scratch memory. -/
def wordyManifest : String :=
  "<k program='p'><x/><devinfo/><devinfo device='1'/><kernel name='f'>" ++
    "<local type='int' nmemb='2' arg='0' generator='g'>5</local>" ++
    "<ndrange><global>1</global></ndrange></kernel></k>"

/-- The same without all this. -/
def terseManifest : String :=
  "<k program='p'><devinfo device='1'/><kernel name='f'>" ++
    "<local type='int' nmemb='2' arg='0'/>" ++
    "<ndrange><global>1</global></ndrange></kernel></k>"

/-- The range in both documents. -/
def rangeAt (start : Nat) : Element :=
  .mk "ndrange" [] [.element (.mk "global" [] [.text "1"] (start + 9) (start + 27))] start
    (start + 37)

def wordyLocal : Element :=
  .mk "local"
    [⟨none, "type", "int"⟩, ⟨none, "nmemb", "2"⟩, ⟨none, "arg", "0"⟩, ⟨none, "generator", "g"⟩]
    [.text "5"] 67 126

def terseLocal : Element :=
  .mk "local" [⟨none, "type", "int"⟩, ⟨none, "nmemb", "2"⟩, ⟨none, "arg", "0"⟩] [] 53 90

def wordyRoot : Element :=
  .mk "k" [⟨none, "program", "p"⟩]
    [.element (.mk "x" [] [] 15 19), .element (.mk "devinfo" [] [] 19 29),
      .element (.mk "devinfo" [⟨none, "device", "1"⟩] [] 29 50),
      .element (.mk "kernel" [⟨none, "name", "f"⟩]
        [.element wordyLocal, .element (rangeAt 126)] 50 172)] 0 176

def terseRoot : Element :=
  .mk "k" [⟨none, "program", "p"⟩]
    [.element (.mk "devinfo" [⟨none, "device", "1"⟩] [] 15 36),
      .element (.mk "kernel" [⟨none, "name", "f"⟩]
        [.element terseLocal, .element (rangeAt 90)] 36 136)] 0 140

/-- The remarks on the first document. -/
def wordyRemarks : List (At Remark) :=
  [⟨.unknownElement "x", ⟨15, 19⟩⟩, ⟨.repeatedDevice, ⟨29, 50⟩⟩,
    ⟨.noEffect .generator "local" "local0", ⟨67, 126⟩⟩,
    ⟨.noEffect .initializer "local" "local0", ⟨67, 126⟩⟩,
    ⟨.twoInitializers "local0", ⟨67, 126⟩⟩]

/-- What the first document declares of scratch memory. -/
def wordyScratch : Variable where
  name := "local0"
  type := "int"
  members := 2
  role := .scratch
  argument := 0
  literal := some "5"
  generator := some "g"
  span := ⟨67, 126⟩

theorem terseLocal_trims : wordyScratch.Trims wordyRemarks ["generator"] wordyLocal terseLocal where
  name := rfl
  dispensable := by
    intro name mem
    obtain rfl := List.mem_singleton.mp mem
    have written : Idle.generator.attribute? = some "generator" := rfl
    exact .noEffect written (by decide)
  attributes := by decide
  children := .inr ⟨by decide, "5", [], rfl, rfl⟩

theorem terseRoot_trims : Manifest.Trims wordyRemarks wordyRoot terseRoot where
  name := rfl
  attributes := rfl
  items := by
    have read : Variable.read .scratch wordyLocal = .ok wordyScratch :=
      Checked.toOption_eq_some.mp (by decide)
    refine .drop (by decide) (.supersede rfl ⟨_, List.mem_cons_self, rfl⟩ (.keep rfl ?_))
    refine .trim rfl ⟨rfl, rfl, ?_⟩ .nil
    exact .trim rfl read terseLocal_trims (.keep rfl .nil)

set_option maxRecDepth 100000 in
theorem generate_of_trims_wordyManifest :
    ∃ generated, Xml.readDocument wordyManifest = .ok wordyRoot ∧
      generate wordyManifest = .ok generated ∧ Xml.readDocument terseManifest = .ok terseRoot ∧
      Manifest.Trims generated.remarks wordyRoot terseRoot ∧
      ∃ generated', generate terseManifest = .ok generated' ∧
        generated'.program = generated.program := by
  obtain ⟨root, document, same⟩ := Xml.exists_root wordyManifest (fun root => root = wordyRoot)
    (by decide +kernel)
  obtain rfl := of_decide_eq_true same
  obtain ⟨root', document', same'⟩ := Xml.exists_root terseManifest (fun root => root = terseRoot)
    (by decide +kernel)
  obtain rfl := of_decide_eq_true same'
  -- The text is read once; from its root on, the remarks are quickly computed.
  have remarked : (do
      let m ← Manifest.ofRoot wordyRoot
      m.check
      let p ← Plan.ofManifest m
      return m.generated p : Checked Generated).toOption.map (·.remarks) = some wordyRemarks := by
    decide
  rw [← generate_of_root document] at remarked
  obtain ⟨generated, made, remarks⟩ := Option.map_eq_some_iff.mp remarked
  have made := Checked.toOption_eq_some.mp made
  have trims : Manifest.Trims generated.remarks wordyRoot terseRoot := remarks ▸ terseRoot_trims
  exact ⟨generated, document, made, document', trims,
    generate_of_trims document made document' trims⟩

end KernelHost
