import KernelHost.CommandLine

/-!
# The program

Connects the command line with the disk, the environment and the streams of the operating system.
-/

namespace KernelHost

/-- The reason behind an error of the operating system. -/
def DiskFault.ofError : IO.Error → DiskFault
  | .noFileOrDirectory _ _ _ => .notFound
  | .inappropriateType _ 20 _ => .notDirectory
  | .inappropriateType _ _ _ => .isDirectory
  | error => .other (toString error)

/-- Does something with a path that holds no null character. -/
def guardPath {α : Type} (path : String) (action : IO (Except DiskFault α)) :
    IO (Except DiskFault α) := do
  if path.toList.contains '\x00' then return .error .nullInPath
  if path == "" then return .error .notFound
  try action catch error => return .error (.ofError error)

instance : Disk IO where
  read path := guardPath path do
    match String.fromUTF8? (← IO.FS.readBinFile path) with
    | some text => return .ok text
    | none => return .error .notUtf8
  write path content := guardPath path do
    IO.FS.writeFile path content
    return .ok ()

end KernelHost

/-- Runs the program on its arguments. -/
def main (arguments : List String) : IO UInt32 := do
  let exit ← KernelHost.CommandLine.execute arguments (← IO.getEnv "RUST_LOG")
  exit.output.forM IO.println
  exit.errors.forM IO.eprintln
  return exit.code
