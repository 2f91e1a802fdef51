import KernelHost.Proofs.Report.Sites
import KernelHost.Session

/-!
# The spans of diagnostics

In a text whose offsets fit into a word, the place of every diagnostic is a range of the text that
is not inverted, and only an empty text has no place to give.  So every report can be drawn, and
none of a text with characters is written without a place.
-/

namespace KernelHost

namespace Text

/-- The offset is one between two characters, or at either end of the text. -/
def Boundary (cs : List Char) (offset : Nat) : Prop :=
  ∃ front behind, cs = front ++ behind ∧ offset = byteLength front

theorem Boundary.le {cs : List Char} {offset : Nat} (boundary : Boundary cs offset) :
    offset ≤ byteLength cs := by
  obtain ⟨front, behind, rfl, rfl⟩ := boundary
  rw [byteLength_append]
  exact Nat.le_add_right _ _

theorem byteLength_pos {cs : List Char} (nonempty : cs ≠ []) : 0 < byteLength cs := by
  cases cs with
  | nil => exact absurd rfl nonempty
  | cons c cs =>
      rw [byteLength_cons]
      exact Nat.add_pos_left c.utf8Size_pos _

/-- A text is a line with the lines above and the lines below. -/
theorem eq_of_getElem?_lines {cs line : List Char} {above : Nat}
    (found : (lines cs)[above]? = some line) :
    cs = ((lines cs).take above).flatten ++ (line ++ ((lines cs).drop (above + 1)).flatten) := by
  obtain ⟨inside, rfl⟩ := List.getElem?_eq_some_iff.mp found
  conv_lhs => rw [← flatten_lines cs, ← List.take_append_drop above (lines cs)]
  rw [List.flatten_append, List.drop_eq_getElem_cons inside, List.flatten_cons]

end Text

namespace Span

/-- A span is a range of a text that is not inverted, and one that stands for no place only if the
text is empty. -/
structure Marks (source : String) (s : Span) : Prop where
  start_le_stop : s.start ≤ s.stop
  stop_le : s.stop.toNat ≤ source.utf8ByteSize
  eq_empty_of_nowhere : s = .nowhere → source = ""
  boundary : Text.Boundary source.toList s.start.toNat

/-- An empty text has no other range. -/
theorem Marks.eq_nowhere_iff {source : String} {s : Span} (marks : s.Marks source) :
    s = .nowhere ↔ source = "" := by
  refine ⟨marks.eq_empty_of_nowhere, fun empty => ?_⟩
  have stop := marks.stop_le
  have start := UInt32.le_iff_toNat_le.mp marks.start_le_stop
  rw [empty, String.utf8ByteSize_empty] at stop
  have first : s.start = 0 := UInt32.toNat_inj.mp (show _ = 0 by omega)
  have last : s.stop = 0 := UInt32.toNat_inj.mp (show _ = 0 by omega)
  calc s = ⟨s.start, s.stop⟩ := rfl
    _ = .nowhere := by rw [first, last]; rfl

variable {source : String} (small : source.utf8ByteSize < UInt32.size)

theorem toNat_toUInt32 {n : Nat} (small : n < UInt32.size) : n.toUInt32.toNat = n :=
  UInt32.toNat_ofNat_of_lt' small

include small

theorem marks_of_occupies {e : Xml.Element} (occupies : e.Occupies source.toList) :
    Marks source e.span := by
  obtain ⟨front, inside, behind, text, nonempty, start, stop⟩ := occupies
  have size : source.utf8ByteSize =
      Text.byteLength front + Text.byteLength inside + Text.byteLength behind := by
    rw [← Text.byteLength_toList, text, Text.byteLength_append, Text.byteLength_append]
  have wide : 0 < Text.byteLength inside := Text.byteLength_pos nonempty
  rw [Text.byteLength_append] at stop
  have startWord : e.span.start.toNat = Text.byteLength front := by
    rw [← start]
    exact toNat_toUInt32 (by omega)
  have stopWord : e.span.stop.toNat = Text.byteLength front + Text.byteLength inside := by
    rw [← stop]
    exact toNat_toUInt32 (by omega)
  refine ⟨?_, ?_, ?_, front, inside ++ behind, ?_, startWord⟩
  · rw [UInt32.le_iff_toNat_le, startWord, stopWord]
    exact Nat.le_add_right _ _
  · omega
  · intro nowhere
    have zero : e.span.stop.toNat = 0 := by rw [nowhere]; rfl
    omega
  · rw [text, List.append_assoc]

omit small in
/-- A row and a column stand for an offset between two characters. -/
theorem boundary_offsetAt (cs : List Char) (row column : Nat) :
    Text.Boundary cs (offsetAt cs row column) := by
  have ending : Text.Boundary cs (Text.byteLength cs) := ⟨cs, [], by simp, rfl⟩
  cases row with
  | zero => exact ending
  | succ above =>
      simp only [offsetAt]
      cases found : (Text.lines cs)[above]? with
      | none => exact ending
      | some line =>
          have split := Text.eq_of_getElem?_lines found
          refine ⟨((Text.lines cs).take above).flatten ++ line.take (column - 1),
            line.drop (column - 1) ++ ((Text.lines cs).drop (above + 1)).flatten, ?_, ?_⟩
          · rw [List.append_assoc, ← List.append_assoc (line.take _), List.take_append_drop]
            exact split
          · rw [Text.byteLength_append]

omit small in
/-- The next word, or the last one again. -/
theorem toNat_next (w : UInt32) :
    (if w + 1 = 0 then w else w + 1).toNat = min (w.toNat + 1) (UInt32.size - 1) := by
  have bound := w.toNat_lt_size
  have sum : (w + 1).toNat = (w.toNat + 1) % UInt32.size := UInt32.toNat_add w 1
  have words : UInt32.size = 4294967296 := rfl
  rw [words] at bound sum ⊢
  split
  · rename_i wraps
    rw [wraps, UInt32.toNat_zero] at sum
    omega
  · rename_i fits
    have differs : (w + 1).toNat ≠ 0 := fun zero => fits (UInt32.toNat_inj.mp zero)
    omega

omit small in
theorem offsetAt_le (row column : Nat) :
    offsetAt source.toList row column ≤ source.utf8ByteSize := by
  simpa using (boundary_offsetAt source.toList row column).le

theorem toNat_start_atPosition (row column : Nat) :
    (atPosition source row column).start.toNat = offsetAt source.toList row column :=
  toNat_toUInt32 (Nat.lt_of_le_of_lt (offsetAt_le row column) small)

/-- A single byte, unless the text ends where it would stand. -/
theorem toNat_stop_atPosition (row column : Nat) :
    (atPosition source row column).stop.toNat =
      min (offsetAt source.toList row column + 1) source.utf8ByteSize := by
  have start : (offsetAt source.toList row column).toUInt32.toNat =
      offsetAt source.toList row column :=
    toNat_start_atPosition small row column
  have size : (Text.byteLength source.toList).toUInt32.toNat = source.utf8ByteSize := by
    rw [Text.byteLength_toList]
    exact toNat_toUInt32 small
  calc (atPosition source row column).stop.toNat
      = min (min (offsetAt source.toList row column + 1) (UInt32.size - 1))
          source.utf8ByteSize := by
        rw [atPosition, UInt32.toNat_min, toNat_next, start, size]
    _ = min (offsetAt source.toList row column + 1) source.utf8ByteSize := by
        omega

theorem marks_atPosition (row column : Nat) : Marks source (atPosition source row column) := by
  have start := toNat_start_atPosition small row column
  have stop := toNat_stop_atPosition small row column
  have inside : offsetAt source.toList row column ≤ source.utf8ByteSize := offsetAt_le row column
  refine ⟨?_, ?_, ?_, ?_⟩
  · rw [UInt32.le_iff_toNat_le]
    omega
  · omega
  · intro nowhere
    have zero : (atPosition source row column).stop.toNat = 0 := by rw [nowhere]; rfl
    apply String.utf8ByteSize_eq_zero_iff.mp
    omega
  · rw [start]
    exact boundary_offsetAt source.toList row column

end Span

/-- In a text whose offsets fit into a word, every diagnostic marks a range of the text. -/
theorem marks_of_mem_diagnostics {source : String} (small : source.utf8ByteSize < UInt32.size)
    {d : Diagnostic} (mem : d ∈ diagnostics source) : d.span.Marks source := by
  rcases site_of_mem_diagnostics mem with ⟨root, e, document, inside, here⟩ | ⟨row, column, here⟩
  · rw [here]
    exact Span.marks_of_occupies small (Xml.everywhere_of_readDocument document e inside)
  · rw [here]
    exact Span.marks_atPosition small row column

/-! ## Reports -/

namespace Diagnostic

variable {source : String} (filename : String)

theorem reportAll_go {shown : List String} {ds : List Diagnostic} {lines : Diagnostic → List String}
    (drawn : ∀ d ∈ ds, d.reportLines? filename source = some (lines d)) :
    reportAll.go filename source shown ds = .ok (shown ++ ds.flatMap lines) := by
  induction ds generalizing shown with
  | nil => simp [reportAll.go]
  | cons d ds ih =>
      obtain ⟨here, rest⟩ := List.forall_mem_cons.mp drawn
      rw [reportAll.go, here]
      simp only [ih rest, List.flatMap_cons, List.append_assoc]

/-- Where each report can be drawn, all of them are, one behind the other. -/
theorem reportAll_eq_ok {ds : List Diagnostic} {lines : Diagnostic → List String}
    (drawn : ∀ d ∈ ds, d.reportLines? filename source = some (lines d)) :
    reportAll ds filename source = .ok (ds.flatMap lines) := by
  simpa [reportAll] using @reportAll_go _ filename [] _ _ drawn

/-- A range of the text is reported with a place, unless the text is empty. -/
theorem reportLines?_of_marks {d : Diagnostic} (marks : d.span.Marks source) :
    d.reportLines? filename source =
      some (if source = "" then d.plainLines else d.locatedLines filename source) := by
  have upright : ¬ d.span.stop < d.span.start := UInt32.not_lt.mpr marks.start_le_stop
  have nowhere : d.span.isNowhere ↔ source = "" := d.span.isNowhere_iff.trans marks.eq_nowhere_iff
  rw [reportLines?, if_neg upright]
  by_cases empty : source = ""
  · rw [if_pos (nowhere.mpr empty), if_pos empty]
  · rw [if_neg (mt nowhere.mp empty), if_neg empty]

end Diagnostic

theorem Session.generationEvents_ofText (filename source : String) :
    generationEvents filename source (.ofText source) =
      ((Stages.ofText source).log.map .log ++ [(report filename source (diagnostics source)).1],
        (report filename source (diagnostics source)).2) := by
  rw [generationEvents, Stages.generated_ofText]
  rfl

/-- The events of a generation: the log, and one report that is drawn. -/
theorem Session.generationEvents_drawn {source : String}
    (small : source.utf8ByteSize < UInt32.size) :
    (∀ d ∈ diagnostics source, d.span.start ≤ d.span.stop ∧
        d.span.stop.toNat ≤ source.utf8ByteSize ∧ (d.span = .nowhere → source = "")) ∧
      ∀ filename, generationEvents filename source (.ofText source) =
        ((Stages.ofText source).log.map .log ++
          [.report ((diagnostics source).flatMap fun d =>
            if source = "" then d.plainLines else d.locatedLines filename source)], true) := by
  have marks := fun d => marks_of_mem_diagnostics (d := d) small
  refine ⟨fun d mem => ?_, fun filename => ?_⟩
  · have here := marks d mem
    exact ⟨here.start_le_stop, here.stop_le, here.eq_empty_of_nowhere⟩
  · have drawn := Diagnostic.reportAll_eq_ok filename
      fun d mem => Diagnostic.reportLines?_of_marks filename (marks d mem)
    rw [generationEvents_ofText, report, drawn]

theorem Session.generationEvents_drawn_noProgram :
    "<é/>".utf8ByteSize < UInt32.size ∧
      (diagnostics "<é/>").map (·.span) = [⟨0, 5⟩] ∧
      (∀ d ∈ diagnostics "<é/>", d.span.start ≤ d.span.stop ∧
          d.span.stop.toNat ≤ "<é/>".utf8ByteSize ∧ (d.span = .nowhere → "<é/>" = "")) ∧
        ∀ filename, generationEvents filename "<é/>" (.ofText "<é/>") =
          ((Stages.ofText "<é/>").log.map .log ++
            [.report ((diagnostics "<é/>").flatMap fun d =>
              if "<é/>" = "" then d.plainLines else d.locatedLines filename "<é/>")], true) := by
  have small : "<é/>".utf8ByteSize < UInt32.size := by decide
  exact ⟨small, by decide +kernel, generationEvents_drawn small⟩

end KernelHost
