/-!
# Disks

Where manifests are read from and host programs are written to.  What the session needs of a disk is
two operations; `Disk` provides them in a monad.
-/

namespace KernelHost

/-- Why a file cannot be read or written. -/
inductive DiskFault
  | notFound
  | notDirectory
  | isDirectory
  | nameTooLong
  /-- The content is no UTF-8. -/
  | notUtf8
  /-- The path holds a null character. -/
  | nullInPath
  /-- Any other reason, in words. -/
  | other (reason : String)
  deriving DecidableEq, Repr

/-- The wording of a reason. -/
def DiskFault.text : DiskFault → String
  | .notFound => "No such file or directory (os error 2)"
  | .notDirectory => "Not a directory (os error 20)"
  | .isDirectory => "Is a directory (os error 21)"
  | .nameTooLong => "File name too long (os error 36)"
  | .notUtf8 => "stream did not contain valid UTF-8"
  | .nullInPath => "file name contained an unexpected NUL byte"
  | .other reason => reason

/-- A disk that can be used in a monad. -/
class Disk (m : Type → Type) where
  /-- The text of a file. -/
  read : (path : String) → m (Except DiskFault String)
  /-- Sets the content of a file, which is created if need be. -/
  write : (path content : String) → m (Except DiskFault Unit)

end KernelHost
