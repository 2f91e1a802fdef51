import KernelHost.Disk.Basic

/-!
# Volumes

A disk as a value: a directory with files and directories inside.  Paths are followed part by part,
as operating systems do.
-/

namespace KernelHost

/-- What a path leads to. -/
inductive Entry
  | file (bytes : ByteArray)
  | directory

/-- A path from the root of a volume, in parts. -/
abbrev Path := List String

/-- The files and directories below the root of a volume. -/
structure Volume where
  /-- The entries; of several with one path the first one holds. -/
  entries : List (Path × Entry) := []

namespace Volume

/-- What is at a path. -/
def entry? (v : Volume) (path : Path) : Option Entry :=
  if path.isEmpty then some .directory else v.entries.lookup path

/-- Puts something at a path. -/
def insert (v : Volume) (path : Path) (entry : Entry) : Volume :=
  ⟨(path, entry) :: v.entries⟩

/-- The bytes that the name of a file may have. -/
def maxName : Nat := 255

/-- The bytes that a path may have. -/
def maxPath : Nat := 4095

/-- Follows the parts of a path from a directory; what the last part names need not exist. -/
def follow (v : Volume) (place : Path) : List String → Except DiskFault Path
  | [] => .ok place
  | part :: more =>
    match v.entry? place with
    | none => .error .notFound
    | some (.file _) => .error .notDirectory
    | some .directory =>
      if part == "" || part == "." then v.follow place more
      else if part == ".." then v.follow place.dropLast more
      else if maxName < part.utf8ByteSize then .error .nameTooLong
      else v.follow (place ++ [part]) more

/-- What is wrong with a path before it is followed. -/
def pathFault? (path : String) : Option DiskFault :=
  if path.toList.contains '\x00' then some .nullInPath
  else if path == "" then some .notFound
  else if maxPath < path.utf8ByteSize then some .nameTooLong
  else none

/-- The parts of a path. -/
def parts (path : String) : List String :=
  (path.toList.splitOn '/').map .ofList

/-- Finds the place that a path leads to, which may be empty. -/
def locate (v : Volume) (path : String) : Except DiskFault Path :=
  match pathFault? path with
  | some fault => .error fault
  | none => v.follow [] (parts path)

/-- The text at a path. -/
def read (v : Volume) (path : String) : Except DiskFault String := do
  match v.entry? (← v.locate path) with
  | none => .error .notFound
  | some .directory => .error .isDirectory
  | some (.file bytes) =>
    match String.fromUTF8? bytes with
    | some text => return text
    | none => .error .notUtf8

/-- A path without the slashes at its end. -/
def trimSlashes (path : String) : String :=
  .ofList (path.toList.reverse.dropWhile (· == '/')).reverse

/--
Finds the place for a file.  A path with a slash at its end asks for a directory instead: only the
directory that its last part stands in has to be there.
-/
def locateFile (v : Volume) (path : String) : Except DiskFault Path := do
  let bare := trimSlashes path
  if bare == path then v.locate path
  else
    (pathFault? path).forM .error
    discard (v.follow [] ((parts bare).dropLast ++ ["."]))
    .error .isDirectory

/-- The volume with a text at a path. -/
def write (v : Volume) (path content : String) : Except DiskFault Volume := do
  let place ← v.locateFile path
  match v.entry? place with
  | some .directory => .error .isDirectory
  | _ => return v.insert place (.file content.toUTF8)

end Volume

instance : Disk (StateM Volume) where
  read path := do return (← get).read path
  write path content := do
    match (← get).write path content with
    | .ok v =>
      set v
      return .ok ()
    | .error fault => return .error fault

end KernelHost
