import KernelHost.Settings.Hook
import KernelHost.Text.Blank

/-!
# Settings

What the root element of a manifest says about the host program as a whole.
-/

namespace KernelHost

/-- The shape of the part of the host program that runs the kernels. -/
inductive Template
  /-- Everything once. -/
  | single
  /-- A loop that the hooks of each pass control. -/
  | loop
  deriving DecidableEq, Repr

/-- What the kernels are loaded from. -/
inductive ProgramSource
  /-- A file with code for the device. -/
  | binary (path : String)
  /-- A file with the text of the kernels. -/
  | text (path : String)
  deriving DecidableEq, Repr

/-- The file of a program. -/
def ProgramSource.path : ProgramSource → String
  | .binary path | .text path => path

/-- The platform and the device to use, by index. -/
structure DeviceChoice where
  /-- Index of the platform. -/
  platform : Nat := 0
  /-- Index of the device on the platform. -/
  device : Nat := 0
  deriving DecidableEq, Repr

/-- The version of the runtime interface that the host program is written for. -/
inductive Api
  /-- Version 1.2. -/
  | v12
  /-- Version 2.0. -/
  | v20
  deriving DecidableEq, Repr

namespace Api

/-- Reads a version, with or without the point. -/
def ofText? (version : String) : Option Api :=
  match Text.trim version with
  | "1.2" | "120" => some .v12
  | "2.0" | "200" => some .v20
  | _ => none

/-- The version as people write it. -/
def version : Api → String
  | .v12 => "1.2"
  | .v20 => "2.0"

/-- The version as the headers of the runtime want it. -/
def target : Api → Nat
  | .v12 => 120
  | .v20 => 200

end Api

/-- The settings of a manifest. -/
structure Settings where
  /-- What the kernels are loaded from. -/
  program : ProgramSource
  /-- Whether the time spent on kernels is measured. -/
  profiling : Bool := false
  /-- Which hooks are switched on. -/
  hooks : Hooks := {}
  /-- The factor on the element count of every variable of the host. -/
  copies : Nat := 1
  /-- The platform and the device. -/
  device : DeviceChoice := {}
  /-- The version of the runtime interface. -/
  api : Api := .v12
  /-- The header that defines the hooks. -/
  hookHeader : String := "prepostambles.h"
  deriving DecidableEq, Repr

/-- The template: a loop if a hook of each pass is switched on. -/
def Settings.template (settings : Settings) : Template :=
  if settings.hooks.loopPreamble || settings.hooks.loopPostamble then .loop else .single

end KernelHost
