import KernelHost.Manifest.Kernel
import KernelHost.Settings.Reader
import KernelHost.Xml.Document

/-!
# Reading manifests

The root element holds the settings as attributes, and kernels and the choice of a device inside.
The faults of all of them are collected, those of the settings first.
-/

namespace KernelHost

open Xml (Element)

/-- Reads the choice of a platform and a device. -/
def DeviceChoice.read (e : Element) : Checked DeviceChoice := do
  let platform ← e.number? "platform" (Text.natural? 32)
  let device ← e.number? "device" (Text.natural? 32)
  return { platform := platform.getD 0, device := device.getD 0 }

namespace Manifest

/-- What is inside the root element. -/
structure Items where
  kernels : List Kernel := []
  /-- The device that was chosen last. -/
  device : Option DeviceChoice := none
  /-- What there is to say about the items. -/
  remarks : List (At Remark) := []

/-- Reads what is inside the root element; `chosen` tells that a device has been chosen. -/
def readItems (chosen : Bool) : List Element → Checked Items
  | [] => .ok {}
  | e :: es =>
    match e.name with
    | "kernel" =>
      (Checked.both (Kernel.read e) (readItems chosen es)).map fun ((k, remarks), items) =>
        { items with kernels := k :: items.kernels, remarks := remarks ++ items.remarks }
    | "devinfo" =>
      (Checked.both (DeviceChoice.read e) (readItems true es)).map fun (device, items) =>
        { items with
          device := items.device <|> some device
          remarks :=
            (if chosen then [⟨.repeatedDevice, e.span⟩] else []) ++ items.remarks }
    | tag =>
      (readItems chosen es).map fun items =>
        { items with remarks := ⟨.unknownElement tag, e.span⟩ :: items.remarks }

/-- Reads a manifest from its root element; its names are not looked at together yet. -/
def ofRoot (root : Element) : Checked Manifest := do
  let (settings, items) ←
    Checked.both (Settings.ofAttributes root.attribute? root.span)
      (readItems false root.elements)
  return {
    settings := { settings with device := items.device.getD {} }
    kernels := items.kernels
    remarks := items.remarks }

/-- Reads the root element of a text. -/
def rootOf (source : String) : Checked Element :=
  match Xml.readDocument source with
  | .ok root => .ok root
  | .error fault =>
    let position := fault.position source
    .fail (.malformed (fault.message source))
      (Span.atPosition source position.row position.column)

end Manifest
end KernelHost
