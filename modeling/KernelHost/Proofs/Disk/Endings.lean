import KernelHost.Proofs.Disk.FileSystem
import KernelHost.Proofs.Report.Spans

/-!
# The endings of sessions

A session that is refused has changed no file, unless the writing itself stopped on the way; one
that succeeds has written the host program of what the manifest held before, and nothing else.  The
manifest and the host program may be one file.
-/

namespace KernelHost.Session

variable {σ : Type} [Disk (StateM σ)]

/-- How a session ends that starts on a disk with the given state, and the state that it leaves. -/
def endOn (s : σ) (manifest output : String) : Ending × σ :=
  let (outcome, after) := (generateFile manifest output : StateM σ Outcome).run s
  (outcome.ending, after)

section FileSystem

variable [FileSystem σ]

open FileSystem

/-- A path leads to a file with the given text. -/
def Holds (s : σ) (path text : String) : Prop :=
  ∃ file, source? s path = some file ∧ bytes? s file = some text.toUTF8

/-- No file but the given one is changed, made or removed. -/
def Spares (s after : σ) (file : FileSystem.File σ) : Prop :=
  ∀ other ≠ file, bytes? after other = bytes? s other

/-- The problem of a session that does not get to its manifest or to its output. -/
abbrev outside (problem : Problem) : Problems :=
  ⟨⟨problem, .nowhere⟩, []⟩

/-- How a session may end, and what it leaves behind. -/
inductive Ends (s : σ) (manifest output : String) : Ending → σ → Prop
  /-- The manifest cannot be read, or is no UTF-8. -/
  | unread {fault : DiskFault} (unread : (readOn s manifest).1 = .error fault) :
      Ends s manifest output (.refused (outside (.unreadable manifest fault.text))) s
  /-- The offsets of the manifest do not fit into words, and a report cannot be drawn. -/
  | undrawn {source : String} (read : (readOn s manifest).1 = .ok source)
      (large : UInt32.size ≤ source.utf8ByteSize) : Ends s manifest output .aborted s
  /-- The manifest is rejected. -/
  | rejected {source : String} {problems : Problems} (read : (readOn s manifest).1 = .ok source)
      (rejected : generate source = .error problems) :
      Ends s manifest output (.refused problems) s
  /-- The output cannot be opened. -/
  | unopened {source : String} {generated : Generated} {fault : DiskFault}
      (read : (readOn s manifest).1 = .ok source) (generates : generate source = .ok generated)
      (closed : target s output = .error fault) :
      Ends s manifest output (.refused (outside (.unwritable output fault.text))) s
  /-- The output is opened, but the writing stops on the way. -/
  | unfinished {source : String} {generated : Generated} {fault : DiskFault} {file : File σ}
      {after : σ} (read : (readOn s manifest).1 = .ok source)
      (generates : generate source = .ok generated) (opened : target s output = .ok file)
      (stopped : (writeOn s output generated.program).1 = .error fault)
      (spares : Spares s after file) :
      Ends s manifest output (.refused (outside (.unwritable output fault.text))) after
  /-- The output holds the host program of what the manifest held before. -/
  | written {source : String} {generated : Generated} {file : File σ} {after : σ}
      (read : (readOn s manifest).1 = .ok source) (held : Holds s manifest source)
      (generates : generate source = .ok generated) (opened : target s output = .ok file)
      (leads : source? after output = some file)
      (holds : bytes? after file = some generated.program.toUTF8)
      (spares : Spares s after file) : Ends s manifest output .written after

variable {s : σ} {manifest output source : String}

/-- A report that cannot be drawn is one of offsets that do not fit into words. -/
theorem size_le_of_not_drawn {filename : String}
    (undrawn : (generationEvents filename source (.ofText source)).2 = false) :
    UInt32.size ≤ source.utf8ByteSize := by
  by_contra small
  have marks := fun d => marks_of_mem_diagnostics (d := d) (Nat.lt_of_not_le small)
  have drawn := Diagnostic.reportAll_eq_ok filename
    fun d mem => Diagnostic.reportLines?_of_marks filename (marks d mem)
  rw [generationEvents_ofText, report, drawn] at undrawn
  cases undrawn

omit [Disk (StateM σ)] [FileSystem σ] in
/-- What is done in one state and goes on in the next one. -/
theorem run_bind_stateM {α β : Type} (first : StateM σ α) (next : α → StateM σ β) (s : σ) :
    (first >>= next).run s = (next (first.run s).1).run (first.run s).2 :=
  rfl

theorem run_read {result : Except DiskFault String} (read : (readOn s manifest).1 = result) :
    (Disk.read manifest : StateM σ (Except DiskFault String)).run s = (result, s) :=
  Prod.ext read (readOn_snd s manifest)

theorem endOn_of_unread {fault : DiskFault} (unread : (readOn s manifest).1 = .error fault) :
    endOn s manifest output = (.refused (outside (.unreadable manifest fault.text)), s) := by
  rw [endOn, generateFile, run_bind_stateM, run_read unread]
  rfl

section Read

variable (read : (readOn s manifest).1 = .ok source)

include read

theorem endOn_of_undrawn
    (undrawn : (generationEvents manifest source (.ofText source)).2 = false) :
    endOn s manifest output = (.aborted, s) := by
  rw [endOn, generateFile, run_bind_stateM, run_read read]
  simp only [undrawn, Bool.not_false, if_true]
  rfl

variable (drawn : (generationEvents manifest source (.ofText source)).2 = true)

include drawn

theorem endOn_of_rejected {problems : Problems} (rejected : generate source = .error problems) :
    endOn s manifest output = (.refused problems, s) := by
  rw [endOn, generateFile, run_bind_stateM, run_read read]
  simp only [drawn, Bool.not_true, Bool.false_eq_true, if_false, Stages.generated_ofText, rejected]
  rfl

theorem endOn_of_generates {generated : Generated} (generates : generate source = .ok generated) :
    endOn s manifest output =
      match writeOn s output generated.program with
      | (.error fault, after) => (.refused (outside (.unwritable output fault.text)), after)
      | (.ok (), after) => (.written, after) := by
  rw [endOn, generateFile, run_bind_stateM, run_read read]
  simp only [drawn, Bool.not_true, Bool.false_eq_true, if_false, Stages.generated_ofText,
    generates, run_bind_stateM]
  rw [writeOn]
  rcases (Disk.write output generated.program : StateM σ _).run s with ⟨_ | _, after⟩ <;> rfl

/-- Only the output is touched, and it is whole if the writing comes to its end. -/
theorem ends_of_generates {generated : Generated} (generates : generate source = .ok generated) :
    Ends s manifest output (endOn s manifest output).1 (endOn s manifest output).2 := by
  rw [endOn_of_generates read drawn generates]
  cases opened : target s output with
  | error fault =>
      rw [writeOn_of_error s output generated.program fault opened]
      exact .unopened read generates opened
  | ok file =>
      have holds := bytes?_writeOn s output generated.program file opened
      have leads := source?_writeOn s output generated.program file opened
      have spares : Spares s (writeOn s output generated.program).2 file :=
        fun other apart => bytes?_writeOn_of_ne s output _ file other opened apart
      rcases wrote : writeOn s output generated.program with ⟨_ | _, after⟩
      · rw [wrote] at spares
        exact .unfinished read generates opened (congrArg Prod.fst wrote) spares
      · rw [wrote] at holds leads spares
        exact .written read (readOn_fst s manifest source read) generates opened (leads rfl)
          (holds rfl) spares

end Read

/-- Every session ends in one of these ways, in every state of a file system. -/
theorem ends_endOn (s : σ) (manifest output : String) :
    Ends s manifest output (endOn s manifest output).1 (endOn s manifest output).2 := by
  cases read : (readOn s manifest).1 with
  | error fault =>
      rw [endOn_of_unread read]
      exact .unread read
  | ok source =>
      cases drawn : (generationEvents manifest source (.ofText source)).2 with
      | false =>
          rw [endOn_of_undrawn read drawn]
          exact .undrawn read (size_le_of_not_drawn drawn)
      | true =>
          cases generates : generate source with
          | error problems =>
              rw [endOn_of_rejected read drawn generates]
              exact .rejected read generates
          | ok generated => exact ends_of_generates read drawn generates

end FileSystem

/-- A volume with one manifest. -/
def sampleVolume : Volume :=
  let manifest := "<k program='p'><kernel name='f'>" ++
    "<output name='b' type='int' nmemb='2' arg='0'/>" ++
    "<ndrange><global>1</global></ndrange></kernel></k>"
  ⟨[(["m.xml"], .file manifest.toUTF8)]⟩

set_option maxRecDepth 100000 in
/-- The host program may take the place of its own manifest. -/
theorem ends_endOn_sampleVolume :
    (endOn sampleVolume "m.xml" "./m.xml").1 = .written ∧
      Ends sampleVolume "m.xml" "./m.xml" (endOn sampleVolume "m.xml" "./m.xml").1
        (endOn sampleVolume "m.xml" "./m.xml").2 :=
  ⟨by decide +kernel, ends_endOn sampleVolume "m.xml" "./m.xml"⟩

end KernelHost.Session
