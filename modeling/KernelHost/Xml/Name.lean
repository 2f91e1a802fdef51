import KernelHost.Xml.Cursor

/-!
# Names

Names of elements and attributes, which one colon may part into a prefix and a base, and the plain
names of instructions and entities.
-/

namespace KernelHost.Xml

/-- The name of an element or an attribute as it is written. -/
structure QName where
  /-- The part in front of the colon, empty without one. -/
  head : String
  /-- The part behind the colon, or all of it. -/
  base : String
  deriving DecidableEq, Repr

/-- The name as messages write it. -/
def QName.text (name : QName) : String :=
  if name.head == "" then name.base else s!"{name.head}:{name.base}"

/-- Whether a list of characters begins as a name does. -/
def beginsName : List Char → Bool
  | [] => false
  | c :: _ => isNameStart c

/-- Parts a run of name characters at its colon; the parts have to begin as names do. -/
def QName.ofChars? (cs : List Char) : Option QName :=
  match cs.splitOn ':' with
  | [base] => if beginsName base then some ⟨"", .ofList base⟩ else none
  | [head, base] =>
    if (head.isEmpty || beginsName head) && beginsName base then
      some ⟨.ofList head, .ofList base⟩
    else none
  | _ => none

namespace Reader

/-- Takes the name of an element or an attribute. -/
def qname : Reader QName := do
  let start ← offset
  let cs ← run isNameChar
  match QName.ofChars? cs with
  | some name => return name
  | none => failAt start .invalidName

/-- Takes a name in which a colon is a character like others. -/
def plainName : Reader String := do
  let start ← offset
  let cs ← run isNameChar
  if beginsName cs then return .ofList cs else failAt start .invalidName

theorem takes_qname : Takes qname := by
  intro c a d e
  obtain ⟨_, _, h₁, e⟩ := bind_eq_ok e
  cases h₁
  obtain ⟨cs, m, h₂, e⟩ := bind_eq_ok e
  cases h₂
  cases h : QName.ofChars? (c.rest.takeWhile isNameChar) with
  | none =>
    rw [h] at e
    cases e
  | some name =>
    rw [h] at e
    cases e
    cases hr : c.rest with
    | nil => simp [hr, QName.ofChars?, beginsName] at h
    | cons x xs =>
      by_cases hx : isNameChar x = true
      · rw [Cursor.rest_drop, hr, List.takeWhile_cons_of_pos hx, List.length_cons,
          List.drop_succ_cons, List.length_drop, List.length_cons]
        omega
      · simp [hr, hx, QName.ofChars?, beginsName] at h

theorem keeps_plainName : Keeps plainName := by
  refine keeps_offset.bind fun start => (keeps_run _).bind fun cs => ?_
  split
  · exact keeps_pure _
  · exact (takes_failAt _ _).keeps

end Reader
end KernelHost.Xml
