import KernelHost.Text.Blank

/-!
# Toggles

Attributes that switch something on or off.
-/

namespace KernelHost

/-- Reads a toggle: `yes` or `true`, `no` or `false`, in any case. -/
def toggle? (value : String) : Option Bool :=
  match (Text.trim value).map Char.toLower with
  | "yes" | "true" => some true
  | "no" | "false" => some false
  | _ => none

end KernelHost
