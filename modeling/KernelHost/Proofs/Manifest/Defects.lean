import KernelHost.Proofs.Manifest.Sound

/-!
# Defects

Every part of a document that cannot be read is a defect.  The defects of a document are listed in
the order of its text, those of the settings first, and counted kind by kind; nothing here mentions
a reader or depends on what else is wrong.
-/

namespace KernelHost

open Xml (Element)

/-- A text is understood, if it is there. -/
def Legible (understood : String → Prop) (written : Option String) : Prop :=
  ∀ text ∈ written, understood text

instance {understood : String → Prop} [DecidablePred understood] {written : Option String} :
    Decidable (Legible understood written) :=
  inferInstanceAs (Decidable (∀ text ∈ written, understood text))

/-! ## What texts are understood -/

def IsToggle (text : String) : Prop :=
  (Text.trim text).map Char.toLower ∈ ["yes", "true", "no", "false"]

instance : DecidablePred IsToggle := fun _ =>
  inferInstanceAs (Decidable (_ ∈ ["yes", "true", "no", "false"]))

theorem isSome_toggle?_iff {text : String} : (toggle? text).isSome ↔ IsToggle text := by
  rw [toggle?, IsToggle]
  split <;> simp_all

/-- An integer of 64 bits, at least one. -/
def IsFactor (text : String) : Prop :=
  ∃ n ∈ Text.natural? 64 (Text.trim text), 1 ≤ n

instance : DecidablePred IsFactor := fun text =>
  inferInstanceAs (Decidable (∃ n ∈ Text.natural? 64 (Text.trim text), 1 ≤ n))

def IsVersion (text : String) : Prop :=
  Text.trim text ∈ ["1.2", "120", "2.0", "200"]

instance : DecidablePred IsVersion := fun _ =>
  inferInstanceAs (Decidable (_ ∈ ["1.2", "120", "2.0", "200"]))

theorem isSome_ofText?_iff {text : String} : (Api.ofText? text).isSome ↔ IsVersion text := by
  rw [Api.ofText?, IsVersion]
  split <;> simp_all

/-- An integer of 64 bits with a sign. -/
def IsKey (text : String) : Prop :=
  (Text.integer? 64 (Text.trim text)).isSome

instance : DecidablePred IsKey := fun text =>
  inferInstanceAs (Decidable ((Text.integer? 64 (Text.trim text)).isSome = true))

/-! ## What elements hold -/

namespace Settings

/-- The attributes of the root that switch something on or off. -/
def toggles : List String :=
  "profile" :: Hook.all.map Hook.attributeName

/-- There is something to load the kernels from. -/
def Programmed (root : Element) : Prop :=
  (root.attribute? "program").isSome ∨ (root.attribute? "source").isSome

instance : DecidablePred Programmed := fun _ =>
  inferInstanceAs (Decidable (_ ∨ _))

end Settings

namespace Kernel

/-- The name of a kernel as it is written, or nothing. -/
def writtenName (kernel : Element) : String :=
  (kernel.attribute? "name").getD ""

def Named (kernel : Element) : Prop :=
  ∃ name ∈ kernel.attribute? "name", Text.isIdentifier name

instance : DecidablePred Named := fun kernel =>
  inferInstanceAs (Decidable (∃ name ∈ kernel.attribute? "name", Text.isIdentifier name))

/-- The elements inside a kernel that declare ranges. -/
def ranges (es : List Element) : List Element :=
  es.filter isRange

/-- An element that is tagged as a variable and declares none. -/
def Faulty (e : Element) : Prop :=
  (Role.ofTag? e.name).isSome ∧ ¬ Variable.Sound e

instance : DecidablePred Faulty := fun _ =>
  inferInstanceAs (Decidable (_ ∧ _))

/-- The first range is sound, and there is one. -/
def Ranged (es : List Element) : Prop :=
  ∃ e ∈ (ranges es).head?, WorkRange.Sound e

instance : DecidablePred Ranged := fun es =>
  inferInstanceAs (Decidable (∃ e ∈ (ranges es).head?, WorkRange.Sound e))

end Kernel

/-! ## The defects of a document -/

/-- A part of a document that cannot be read, with the element that it is about. -/
inductive Defect
  | program (root : Element)
  | toggle (root : Element) (name : String)
  | copies (root : Element)
  | api (root : Element)
  | device (e : Element)
  | kernelName (kernel : Element)
  | order (kernel : Element)
  | variable (e : Element)
  | range (e : Element)
  /-- A range behind the first one. -/
  | laterRange (kernel e : Element)
  | noRange (kernel : Element)

namespace Defect

/-- The defect, where a condition does not hold. -/
def unmet (sound : Prop) [Decidable sound] (d : Defect) : List Defect :=
  if sound then [] else [d]

def ofSettings (root : Element) : List Defect :=
  unmet (Settings.Programmed root) (.program root) ++
    (Settings.toggles.flatMap fun name =>
      unmet (Legible IsToggle (root.attribute? name)) (.toggle root name)) ++
    unmet (Legible IsFactor (root.attribute? "repeat")) (.copies root) ++
    unmet (Legible IsVersion (root.attribute? "api")) (.api root)

/-- The defects inside a kernel; `ranged` tells that a range stands in front. -/
def ofParts (kernel : Element) (ranged : Bool) : List Element → List Defect
  | [] => []
  | e :: es =>
    if Kernel.isRange e then
      (if ranged then [.laterRange kernel e] else unmet (WorkRange.Sound e) (.range e)) ++
        ofParts kernel true es
    else unmet (¬ Kernel.Faulty e) (.variable e) ++ ofParts kernel ranged es

def ofKernel (kernel : Element) : List Defect :=
  unmet (Kernel.Named kernel) (.kernelName kernel) ++
    unmet (Legible IsKey (kernel.attribute? "order")) (.order kernel) ++
    ofParts kernel false kernel.elements ++
    unmet (kernel.elements.any Kernel.isRange) (.noRange kernel)

def ofItem (e : Element) : List Defect :=
  if e.name = "kernel" then ofKernel e
  else if e.name = "devinfo" then unmet (DeviceChoice.Sound e) (.device e)
  else []

/-- The defects of a document, those of its settings first. -/
def ofRoot (root : Element) : List Defect :=
  ofSettings root ++ root.elements.flatMap ofItem

end Defect

/-! ## Their number -/

namespace DefectCount

/-- One, where a condition does not hold. -/
def unmet (sound : Prop) [Decidable sound] : Nat :=
  if sound then 0 else 1

def ofSettings (root : Element) : Nat :=
  unmet (Settings.Programmed root) +
    (Settings.toggles.filter fun name => ¬ Legible IsToggle (root.attribute? name)).length +
    unmet (Legible IsFactor (root.attribute? "repeat")) +
    unmet (Legible IsVersion (root.attribute? "api"))

def ofKernel (kernel : Element) : Nat :=
  unmet (Kernel.Named kernel) + unmet (Legible IsKey (kernel.attribute? "order")) +
    (kernel.elements.filter fun e => Kernel.Faulty e).length +
    ((Kernel.ranges kernel.elements).length - 1) + unmet (Kernel.Ranged kernel.elements)

def ofItem (e : Element) : Nat :=
  if e.name = "kernel" then ofKernel e
  else if e.name = "devinfo" then unmet (DeviceChoice.Sound e)
  else 0

def ofItems : List Element → Nat
  | [] => 0
  | e :: es => ofItem e + ofItems es

/-- The number of defects of a document. -/
def ofRoot (root : Element) : Nat :=
  ofSettings root + ofItems root.elements

end DefectCount

namespace Defect

@[simp]
theorem length_unmet (sound : Prop) [Decidable sound] (d : Defect) :
    (unmet sound d).length = DefectCount.unmet sound := by
  rw [unmet, DefectCount.unmet]
  split <;> rfl

theorem length_flatMap_unmet {sound : String → Prop} [DecidablePred sound]
    {d : String → Defect} {names : List String} :
    (names.flatMap fun name => unmet (sound name) (d name)).length =
      (names.filter fun name => ¬ sound name).length := by
  induction names with
  | nil => rfl
  | cons name names ih =>
      rw [List.flatMap_cons, List.length_append, ih, length_unmet, DefectCount.unmet]
      by_cases holds : sound name
      · simp [holds]
      · simp [holds, Nat.add_comm]

theorem length_ofSettings (root : Element) :
    (ofSettings root).length = DefectCount.ofSettings root := by
  simp only [ofSettings, DefectCount.ofSettings, List.length_append, length_unmet,
    length_flatMap_unmet]

theorem not_faulty_of_isRange {e : Element} (range : Kernel.isRange e) : ¬ Kernel.Faulty e := by
  have tag : e.name = "ndrange" := by simpa [Kernel.isRange] using range
  simp [Kernel.Faulty, tag, Role.ofTag?]

theorem length_ofParts_of_ranged (kernel : Element) (es : List Element) :
    (ofParts kernel true es).length =
      (es.filter fun e => Kernel.Faulty e).length + (Kernel.ranges es).length := by
  induction es with
  | nil => rfl
  | cons e es ih =>
      rw [ofParts, Kernel.ranges, List.filter_cons, List.filter_cons]
      by_cases range : Kernel.isRange e
      · simp [range, not_faulty_of_isRange range, ih, Kernel.ranges]
        omega
      · by_cases faulty : Kernel.Faulty e
        · simp [range, faulty, ih, Kernel.ranges, DefectCount.unmet]
          omega
        · simp [range, faulty, ih, Kernel.ranges, DefectCount.unmet]

/-- Whether a range is missing is known behind the last element only. -/
theorem length_ofParts (kernel : Element) (es : List Element) :
    (ofParts kernel false es).length + DefectCount.unmet (es.any Kernel.isRange) =
      (es.filter fun e => Kernel.Faulty e).length + ((Kernel.ranges es).length - 1) +
        DefectCount.unmet (Kernel.Ranged es) := by
  induction es with
  | nil => rfl
  | cons e es ih =>
      rw [ofParts, Kernel.ranges, List.filter_cons, List.filter_cons]
      by_cases range : Kernel.isRange e
      · have first : Kernel.Ranged (e :: es) ↔ WorkRange.Sound e := by
          simp [Kernel.Ranged, Kernel.ranges, range]
        simp [range, not_faulty_of_isRange range, length_ofParts_of_ranged, Kernel.ranges,
          DefectCount.unmet, first]
        omega
      · have later : Kernel.Ranged (e :: es) ↔ Kernel.Ranged es := by
          simp [Kernel.Ranged, Kernel.ranges, range]
        by_cases faulty : Kernel.Faulty e
        · simp [range, faulty, Kernel.ranges, DefectCount.unmet, later] at ih ⊢
          omega
        · simp [range, faulty, Kernel.ranges, DefectCount.unmet, later] at ih ⊢
          omega

theorem length_ofKernel (kernel : Element) :
    (ofKernel kernel).length = DefectCount.ofKernel kernel := by
  have parts := length_ofParts kernel kernel.elements
  simp only [ofKernel, DefectCount.ofKernel, List.length_append, length_unmet]
  omega

theorem length_flatMap_ofItem (es : List Element) :
    (es.flatMap ofItem).length = DefectCount.ofItems es := by
  induction es with
  | nil => rfl
  | cons e es ih =>
      have here : (ofItem e).length = DefectCount.ofItem e := by
        unfold ofItem DefectCount.ofItem
        split
        · exact length_ofKernel e
        · split
          · exact length_unmet _ _
          · rfl
      rw [List.flatMap_cons, List.length_append, here, ih, DefectCount.ofItems]

theorem length_ofRoot (root : Element) : (ofRoot root).length = DefectCount.ofRoot root := by
  rw [ofRoot, DefectCount.ofRoot, List.length_append, length_ofSettings, length_flatMap_ofItem]

end Defect
end KernelHost
