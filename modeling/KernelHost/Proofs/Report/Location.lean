import KernelHost.Proofs.Report.Spans
import Mathlib.Data.Nat.SuccPred
import Mathlib.Data.Prod.Lex
import Mathlib.Order.Interval.Set.Monotone

/-!
# The location in a report

A span counts bytes, and the header of a report is drawn as if it counted characters.  The two agree
on a text exactly as long as each character in front of the place is a single byte; and where the
bytes up to the end of the place outnumber the characters, nothing but the title is left of the
report.  Both directions need that different places of a text are worded differently.
-/

namespace KernelHost

namespace Text

/-! ## Positions -/

/-- Positions in the order of a text: by row, then by column. -/
def Position.rank (p : Position) : ℕ ×ₗ ℕ :=
  toLex (p.row, p.column)

theorem Position.rank_lt_rank {p q : Position} :
    p.rank < q.rank ↔ p.row < q.row ∨ p.row = q.row ∧ p.column < q.column :=
  Prod.Lex.toLex_lt_toLex

namespace terminatedPosition

/-- One more character leads to a later position. -/
theorem rank_walk_lt_succ {n : Nat} {p : Position} {cs : List Char} (inside : n < cs.length) :
    (walk n p cs).rank < (walk (n + 1) p cs).rank := by
  induction n generalizing p cs with
  | zero =>
      rw [Position.rank_lt_rank]
      match cs with
      | [] => simp at inside
      | [c] => exact .inr ⟨rfl, Nat.lt_succ_self _⟩
      | c :: d :: cs =>
          simp only [walk]
          split
          · exact .inl (Nat.lt_succ_self _)
          · exact .inr ⟨rfl, Nat.lt_succ_self _⟩
  | succ n ih =>
      match cs with
      | [] => simp at inside
      | [c] => simp at inside
      | c :: d :: cs =>
          have later : n < (d :: cs).length := by simpa using inside
          simp only [walk]
          split
          · exact ih later
          · exact ih later

end terminatedPosition

/-- Different places of a text have different positions. -/
theorem terminatedPosition_injOn (cs : List Char) :
    Set.InjOn (terminatedPosition · cs) (Set.Iic cs.length) := by
  have strict : StrictMonoOn (fun n => (terminatedPosition n cs).rank) (Set.Iic cs.length) := by
    apply strictMonoOn_Iic_of_lt_succ
    intro n inside
    exact terminatedPosition.rank_walk_lt_succ inside
  intro m m_mem n n_mem same
  exact strict.injOn m_mem n_mem (congrArg Position.rank same)

theorem Position.text_toList (p : Position) :
    p.text.toList = Nat.toDigits 10 p.row ++ ':' :: Nat.toDigits 10 p.column := by
  have text : p.text = p.row.repr ++ ":" ++ p.column.repr := rfl
  simp [text, String.toList_append]

theorem Position.text_injective : Function.Injective Position.text := by
  intro p q same
  have lists := congrArg String.toList same
  rw [text_toList, text_toList] at lists
  have colon (n : Nat) : ':' ∉ Nat.toDigits 10 n := fun mem =>
    absurd (Nat.isDigit_of_mem_toDigits (by decide) (by decide) mem) (by decide)
  obtain ⟨rows, -, columns⟩ := (List.append_cons_inj_of_notMem (colon _) (colon _)).mp lists
  have row : p.row = q.row := by simpa using congrArg (Nat.ofDigitChars 10 · 0) rows
  have column : p.column = q.column := by simpa using congrArg (Nat.ofDigitChars 10 · 0) columns
  cases p
  cases q
  simp_all

/-! ## Bytes and characters -/

theorem length_le_byteLength (cs : List Char) : cs.length ≤ byteLength cs := by
  induction cs with
  | nil => exact Nat.le_refl 0
  | cons c cs ih =>
      have one := c.utf8Size_pos
      rw [List.length_cons, byteLength_cons]
      omega

/-- Bytes and characters are the same number if every character is a single byte. -/
theorem byteLength_eq_length_iff {cs : List Char} :
    byteLength cs = cs.length ↔ ∀ c ∈ cs, c.utf8Size = 1 := by
  induction cs with
  | nil => simp
  | cons c cs ih =>
      have one := c.utf8Size_pos
      have least := length_le_byteLength cs
      rw [List.forall_mem_cons, ← ih, List.length_cons, byteLength_cons]
      omega

theorem length_charsBefore_le (offset : Nat) (cs : List Char) :
    (charsBefore offset cs).length ≤ cs.length := by
  induction cs generalizing offset with
  | nil => exact Nat.le_refl 0
  | cons c cs ih =>
      rw [charsBefore]
      split
      · exact Nat.zero_le _
      · exact Nat.succ_le_succ (ih _)

/-- The characters that begin before the end of a part in front are those of the part. -/
theorem charsBefore_byteLength_append (front behind : List Char) :
    charsBefore (byteLength front) (front ++ behind) = front := by
  induction front with
  | nil => cases behind <;> simp [charsBefore]
  | cons c front ih =>
      have one := c.utf8Size_pos
      rw [byteLength_cons, List.cons_append, charsBefore, if_neg (by omega),
        Nat.add_sub_cancel_left, ih]

end Text

namespace Diagnostic

variable {filename source : String} {d : Diagnostic}

/-- The lines of a report that locates the character which the place begins with. -/
def exactLines (d : Diagnostic) (filename source : String) : List String :=
  let cs := source.toList
  let position := Text.terminatedPosition (Text.charsBefore d.span.start.toNat cs).length cs
  s!"{titleWord d.severity}: {Text.firstLine d.message}" ::
    (s!"╭─[{filename}:{position.text}]" ::
      d.help.toList.map (fun help => s!"Help: {Text.firstLine help}") ++
      d.notes.getLast?.toList.map fun note => s!"Note: {Text.firstLine note}")

theorem header_injective :
    Function.Injective fun p : Text.Position => s!"╭─[{filename}:{p.text}]" := by
  intro p q same
  have texts : toString p.text = toString q.text := by simpa using same
  exact Text.Position.text_injective texts

/-- A located report is exact if its place is as many bytes behind the beginning of the text as
there are characters in front of it. -/
theorem locatedLines_eq_exactLines_iff :
    d.locatedLines filename source = d.exactLines filename source ↔
      fits d.span source.toList.length ∧
        d.span.start.toNat = (Text.charsBefore d.span.start.toNat source.toList).length := by
  have front := Text.length_charsBefore_le d.span.start.toNat source.toList
  simp only [locatedLines, exactLines]
  constructor
  · intro same
    have body := (List.cons.inj same).2
    cases fitting : fits d.span source.toList.length with
    | false =>
        rw [fitting] at body
        cases body
    | true =>
        rw [fitting] at body
        have inside : d.span.start.toNat ≤ source.toList.length := by
          simp only [fits, Bool.and_eq_true, decide_eq_true_eq] at fitting
          exact fitting.1.2
        have positions := header_injective (List.cons.inj body).1
        exact ⟨rfl, Text.terminatedPosition_injOn source.toList inside front positions⟩
  · rintro ⟨fitting, start⟩
    rw [if_pos fitting, ← start]

/-- The report of a place is exact if the place is not inverted, ends no more than one byte behind as
many bytes as there are characters, and begins behind as many bytes as characters. -/
theorem reportLines?_eq_exactLines_iff (nonempty : source ≠ "") (somewhere : d.span ≠ .nowhere) :
    d.reportLines? filename source = some (d.exactLines filename source) ↔
      d.span.start ≤ d.span.stop ∧ d.span.stop.toNat ≤ source.toList.length + 1 ∧
        (Text.charsBefore d.span.start.toNat source.toList).length = d.span.start.toNat := by
  have positive : 0 < source.toList.length :=
    List.length_pos_iff.mpr (mt String.toList_eq_nil_iff.mp nonempty)
  have front := Text.length_charsBefore_le d.span.start.toNat source.toList
  rw [reportLines?, if_neg (mt d.span.isNowhere_iff.mp somewhere)]
  by_cases inverted : d.span.stop < d.span.start
  · rw [if_pos inverted]
    constructor
    · intro nothing
      cases nothing
    · rintro ⟨upright, -, -⟩
      exact absurd inverted (UInt32.not_lt.mpr upright)
  · have upright := UInt32.not_lt.mp inverted
    have ordered := UInt32.le_iff_toNat_le.mp upright
    rw [if_neg inverted, Option.some_inj, locatedLines_eq_exactLines_iff]
    simp only [fits, Bool.and_eq_true, Bool.or_eq_true, decide_eq_true_eq, upright, true_and]
    omega

end Diagnostic

/-- What is said about a text is reported with its advice and with the location of the character at
the start of its place exactly if the place is not inverted, ends no more than one byte behind as
many bytes as there are characters, and begins behind as many bytes as characters.  In a text whose
offsets fit into a word the last means that each character in front is a single byte. -/
theorem report_exact_iff {source : String} {d : Diagnostic} (mem : d ∈ diagnostics source)
    (somewhere : d.span ≠ .nowhere) (filename : String) :
    (d.reportLines? filename source = some (d.exactLines filename source) ↔
      d.span.start ≤ d.span.stop ∧ d.span.stop.toNat ≤ source.toList.length + 1 ∧
        (Text.charsBefore d.span.start.toNat source.toList).length = d.span.start.toNat) ∧
      (source.utf8ByteSize < UInt32.size →
        d.span.start ≤ d.span.stop ∧
          Text.byteLength (Text.charsBefore d.span.start.toNat source.toList) =
            d.span.start.toNat ∧
          ((Text.charsBefore d.span.start.toNat source.toList).length = d.span.start.toNat ↔
            ∀ c ∈ Text.charsBefore d.span.start.toNat source.toList, c.utf8Size = 1)) := by
  have nonempty : source ≠ "" := by
    rintro rfl
    have marks := marks_of_mem_diagnostics (by decide) mem
    exact somewhere (marks.eq_nowhere_iff.mpr rfl)
  refine ⟨Diagnostic.reportLines?_eq_exactLines_iff nonempty somewhere, fun small => ?_⟩
  have marks := marks_of_mem_diagnostics small mem
  obtain ⟨front, behind, text, start⟩ := marks.boundary
  rw [start, text, Text.charsBefore_byteLength_append, ← Text.byteLength_eq_length_iff]
  exact ⟨marks.start_le_stop, rfl, eq_comm⟩

theorem report_exact_iff_noProgram :
    ∃ d ∈ diagnostics "<é/>", d.span ≠ .nowhere ∧
      (d.reportLines? "m.xml" "<é/>" = some (d.exactLines "m.xml" "<é/>") ↔
        d.span.start ≤ d.span.stop ∧ d.span.stop.toNat ≤ "<é/>".toList.length + 1 ∧
          (Text.charsBefore d.span.start.toNat "<é/>".toList).length = d.span.start.toNat) ∧
        d.span.start ≤ d.span.stop ∧
          Text.byteLength (Text.charsBefore d.span.start.toNat "<é/>".toList) =
            d.span.start.toNat ∧
          ((Text.charsBefore d.span.start.toNat "<é/>".toList).length = d.span.start.toNat ↔
            ∀ c ∈ Text.charsBefore d.span.start.toNat "<é/>".toList, c.utf8Size = 1) := by
  have spans : (diagnostics "<é/>").map (·.span) = [⟨0, 5⟩] := by decide +kernel
  have here : (⟨0, 5⟩ : Span) ∈ (diagnostics "<é/>").map (·.span) := by simp [spans]
  obtain ⟨d, mem, span⟩ := List.mem_map.mp here
  have somewhere : d.span ≠ .nowhere := by
    rw [span]
    decide
  obtain ⟨exact_iff, within⟩ := report_exact_iff mem somewhere "m.xml"
  exact ⟨d, mem, somewhere, exact_iff, within (by decide)⟩

/-- None of the three reports about this text is exact: with two characters of two bytes, the place
of the first ends too far behind, and one of these characters stands in front of the others. -/
theorem report_inexact_twoBytes :
    (diagnostics "<é><kernel/></é>").map (·.span) = [⟨0, 18⟩, ⟨4, 13⟩, ⟨4, 13⟩] ∧
      ∀ d ∈ diagnostics "<é><kernel/></é>",
        d.reportLines? "m.xml" "<é><kernel/></é>" ≠
          some (d.exactLines "m.xml" "<é><kernel/></é>") := by
  have spans : (diagnostics "<é><kernel/></é>").map (·.span) =
      [⟨0, 18⟩, ⟨4, 13⟩, ⟨4, 13⟩] := by decide +kernel
  have inexact : ∀ s ∈ ([⟨0, 18⟩, ⟨4, 13⟩, ⟨4, 13⟩] : List Span), s ≠ .nowhere ∧
      ¬ (s.start ≤ s.stop ∧ s.stop.toNat ≤ "<é><kernel/></é>".toList.length + 1 ∧
        (Text.charsBefore s.start.toNat "<é><kernel/></é>".toList).length = s.start.toNat) := by
    decide
  refine ⟨spans, fun d mem exact => ?_⟩
  have span : d.span ∈ ([⟨0, 18⟩, ⟨4, 13⟩, ⟨4, 13⟩] : List Span) := by
    rw [← spans]
    exact List.mem_map_of_mem mem
  obtain ⟨somewhere, unmet⟩ := inexact d.span span
  exact unmet ((Diagnostic.reportLines?_eq_exactLines_iff (by decide) somewhere).mp exact)

end KernelHost
