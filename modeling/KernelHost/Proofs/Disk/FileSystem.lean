import KernelHost.Disk.Volume
import Mathlib.Tactic.Common

/-!
# File systems

What a session relies on when it reads and writes files.  Paths lead to files and several paths may
lead to one, so a file system tells files apart by identities of its own; `Volume` does so by the
places that paths are followed to.
-/

namespace KernelHost

section Operations

variable {σ : Type} [Disk (StateM σ)]

/-- Reads a file on a disk with the given state. -/
def readOn (s : σ) (path : String) : Except DiskFault String × σ :=
  (Disk.read path : StateM σ (Except DiskFault String)).run s

/-- Writes a file on a disk with the given state. -/
def writeOn (s : σ) (path content : String) : Except DiskFault Unit × σ :=
  (Disk.write path content : StateM σ (Except DiskFault Unit)).run s

end Operations

/-- A disk whose files are told apart. -/
class FileSystem (σ : Type) [Disk (StateM σ)] where
  /-- What tells files apart. -/
  File : Type
  /-- The bytes of a file, if it is there. -/
  bytes? : σ → File → Option ByteArray
  /-- The file that a path leads to. -/
  source? : σ → String → Option File
  /-- The file that is opened for writing at a path, which is made if it is not there. -/
  target : σ → String → Except DiskFault File
  /-- Reading changes nothing. -/
  readOn_snd : ∀ (s : σ) path, (readOn s path).2 = s
  /-- What is read is the content of the file. -/
  readOn_fst : ∀ (s : σ) path text, (readOn s path).1 = .ok text →
    ∃ file, source? s path = some file ∧ bytes? s file = some text.toUTF8
  /-- Where no file can be opened, nothing is written. -/
  writeOn_of_error : ∀ (s : σ) path content fault, target s path = .error fault →
    writeOn s path content = (.error fault, s)
  /-- A file that is written has the content, if the writing comes to its end. -/
  bytes?_writeOn : ∀ (s : σ) path content file, target s path = .ok file →
    (writeOn s path content).1 = .ok () →
    bytes? (writeOn s path content).2 file = some content.toUTF8
  /-- The path leads to the file that is written. -/
  source?_writeOn : ∀ (s : σ) path content file, target s path = .ok file →
    (writeOn s path content).1 = .ok () → source? (writeOn s path content).2 path = some file
  /-- The other files are left alone. -/
  bytes?_writeOn_of_ne : ∀ (s : σ) path content file other, target s path = .ok file →
    other ≠ file → bytes? (writeOn s path content).2 other = bytes? s other

/-! ## Volumes -/

namespace Volume

variable {v : Volume} {path content : String} {place other : Path}

/-- The bytes of the file in a place, if there is one. -/
def fileBytes? (v : Volume) (place : Path) : Option ByteArray :=
  match v.entry? place with
  | some (.file bytes) => some bytes
  | _ => none

/-- The place of the file that is opened for writing at a path. -/
def openFile (v : Volume) (path : String) : Except DiskFault Path := do
  let place ← v.locateFile path
  match v.entry? place with
  | some .directory => .error .isDirectory
  | _ => return place

theorem entry?_insert_self (v : Volume) (entry : Entry) (inside : place ≠ []) :
    Volume.entry? (v.insert place entry) place = some entry := by
  simp [insert, entry?, inside]

theorem entry?_insert_of_ne (v : Volume) (entry : Entry) (apart : other ≠ place) :
    Volume.entry? (v.insert place entry) other = v.entry? other := by
  have differs : (other == place) = false := beq_false_of_ne apart
  simp [insert, entry?, List.lookup_cons, differs]

theorem write_eq (v : Volume) (path content : String) :
    v.write path content =
      (v.openFile path).map fun place => v.insert place (.file content.toUTF8) := by
  rw [write, openFile]
  cases v.locateFile path with
  | error fault => rfl
  | ok place =>
      simp only [bind, Except.bind]
      cases v.entry? place with
      | none => rfl
      | some entry => cases entry <;> rfl

theorem writeOn_of_opened (opened : v.openFile path = .ok place) :
    writeOn v path content = (.ok (), v.insert place (.file content.toUTF8)) := by
  have written : v.write path content = .ok (v.insert place (.file content.toUTF8)) := by
    rw [write_eq, opened]
    rfl
  simp only [writeOn, Disk.write, StateT.run_bind, StateT.run_get, pure_bind, written]
  rfl

theorem writeOn_of_closed {fault : DiskFault} (closed : v.openFile path = .error fault) :
    writeOn v path content = (.error fault, v) := by
  have unwritten : v.write path content = .error fault := by
    rw [write_eq, closed]
    rfl
  simp only [writeOn, Disk.write, StateT.run_bind, StateT.run_get, pure_bind, unwritten]
  rfl

theorem locateFile_of_openFile (opened : v.openFile path = .ok place) :
    v.locateFile path = .ok place ∧ v.entry? place ≠ some .directory := by
  rw [openFile] at opened
  cases located : v.locateFile path with
  | error fault => simp [located, bind, Except.bind] at opened
  | ok found =>
      simp only [located, bind, Except.bind] at opened
      split at opened
      · cases opened
      · rename_i noDirectory
        cases opened
        exact ⟨rfl, noDirectory⟩

/-- Only the root of a volume has no name, and it is no file. -/
theorem ne_nil_of_openFile (opened : v.openFile path = .ok place) : place ≠ [] := by
  rintro rfl
  exact (locateFile_of_openFile opened).2 rfl

/-- A path that leads to a place leads there as well when something is put into the place, as all
that it passes through are directories. -/
theorem follow_insert {start : Path} {parts : List String} (entry : Entry)
    (noDirectory : v.entry? place ≠ some .directory) (found : v.follow start parts = .ok place) :
    (v.insert place entry).follow start parts = .ok place := by
  induction parts generalizing start with
  | nil => exact found
  | cons part more ih =>
      rw [follow] at found ⊢
      cases here : v.entry? start with
      | none => simp [here] at found
      | some passed =>
          cases passed with
          | file bytes => simp [here] at found
          | directory =>
              have apart : start ≠ place := by
                rintro rfl
                exact noDirectory here
              rw [entry?_insert_of_ne v entry apart, here]
              simp only [here] at found ⊢
              split_ifs at found ⊢ with stays climbs long
              · exact ih found
              · exact ih found
              · exact ih found

theorem locate_insert (entry : Entry) (opened : v.openFile path = .ok place) :
    (v.insert place entry).locate path = .ok place := by
  obtain ⟨located, noDirectory⟩ := locateFile_of_openFile opened
  rw [locateFile] at located
  split at located
  · rw [locate] at located ⊢
    split at located
    · cases located
    · exact follow_insert entry noDirectory located
  · revert located
    cases pathFault? path with
    | some fault => intro located; cases located
    | none =>
        cases v.follow [] ((parts (trimSlashes path)).dropLast ++ ["."]) with
        | error fault => intro located; cases located
        | ok directory => intro located; cases located

/-- Decoding takes bytes as they are. -/
theorem toUTF8_of_fromUTF8? {bytes : ByteArray} {text : String}
    (decoded : String.fromUTF8? bytes = some text) : text.toUTF8 = bytes := by
  unfold String.fromUTF8? at decoded
  split at decoded
  · cases decoded
    rfl
  · cases decoded

theorem fileBytes?_of_read {text : String} (read : v.read path = .ok text) :
    ∃ place, v.locate path = .ok place ∧ v.fileBytes? place = some text.toUTF8 := by
  rw [Volume.read] at read
  cases located : v.locate path with
  | error fault => simp [located, bind, Except.bind] at read
  | ok place =>
      refine ⟨place, rfl, ?_⟩
      simp only [located, bind, Except.bind] at read
      rw [fileBytes?]
      split at read
      · cases read
      · cases read
      · rename_i bytes found
        rw [found]
        split at read
        · rename_i decoded
          cases read
          exact congrArg some (toUTF8_of_fromUTF8? decoded).symm
        · cases read

end Volume

instance : FileSystem Volume where
  File := Path
  bytes? := Volume.fileBytes?
  source? v path := (v.locate path).toOption
  target := Volume.openFile
  readOn_snd _ _ := rfl
  readOn_fst v path text read := by
    obtain ⟨place, located, bytes⟩ := Volume.fileBytes?_of_read read
    exact ⟨place, by rw [located]; rfl, bytes⟩
  writeOn_of_error _ _ _ _ closed := Volume.writeOn_of_closed closed
  bytes?_writeOn v path content place opened _ := by
    rw [Volume.writeOn_of_opened opened, Volume.fileBytes?,
      Volume.entry?_insert_self _ _ (Volume.ne_nil_of_openFile opened)]
  source?_writeOn v path content place opened _ := by
    rw [Volume.writeOn_of_opened opened]
    exact congrArg Except.toOption (Volume.locate_insert _ opened)
  bytes?_writeOn_of_ne v path content place other opened apart := by
    rw [Volume.writeOn_of_opened opened, Volume.fileBytes?,
      Volume.entry?_insert_of_ne _ _ apart, Volume.fileBytes?]

end KernelHost
