import KernelHost.Proofs.Code.Constant
import KernelHost.Proofs.Manifest.Sound
import KernelHost.Proofs.Plan.Checks
import KernelHost.Proofs.Scope.Extents
import Mathlib.Tactic.NormNum

/-!
# Tolerances

A tolerance stands in the program as it stands in the manifest, where it is read as a decimal
number.  The two agree if there is a point or an exponent; a tolerance of digits alone is an integer
constant of the program, which may be octal or have no type.
-/

namespace KernelHost

open Code (Constant Marked SignedConstant)

/-- The number that a decimal numeral denotes. -/
def Text.Decimal.toRat (d : Text.Decimal) : ℚ :=
  if d.negative then -(d.coefficient * 10 ^ d.exponent) else d.coefficient * 10 ^ d.exponent

/-! ## Signs of doubles -/

namespace Double

theorem isFinite_iff (x : Double) : x.isFinite ↔ x.exponentField ≠ 2047 := by
  unfold isFinite datum
  split_ifs <;> simp_all

/-- The sign is above the exponent. -/
theorem exponentField_ofFields (negative : Bool) (exponent fraction : Nat) :
    (ofFields negative exponent fraction).exponentField =
      (ofFields false exponent fraction).exponentField := by
  have sign : twoTo 63 = 9223372036854775808 := rfl
  have field : twoTo 52 = 4503599627370496 := rfl
  have width : twoTo 11 = 2048 := rfl
  cases negative with
  | false => rfl
  | true =>
      simp only [exponentField, ofFields, if_true, Bool.false_eq_true, if_false,
        Nat.toUInt64_eq, UInt64.toNat_ofNat', sign, field, width]
      omega

theorem isFinite_ofDecimal (d : Text.Decimal) :
    (ofDecimal d).isFinite ↔ (ofDecimal { d with negative := false }).isFinite := by
  have finite (negative : Bool) (steps : Nat) :
      (ofDatum (.finite negative steps)).exponentField =
        (ofDatum (.finite false steps)).exponentField := by
    unfold ofDatum
    dsimp only
    split_ifs <;> exact exponentField_ofFields ..
  have infinite (negative : Bool) :
      (ofDatum (.infinite negative)).exponentField = (ofDatum (.infinite false)).exponentField :=
    exponentField_ofFields ..
  have rounded (negative : Bool) (num den : Nat) :
      (ofDatum (.rounded negative num den)).exponentField =
        (ofDatum (.rounded false num den)).exponentField := by
    unfold Datum.rounded
    dsimp only
    split_ifs
    · exact finite ..
    · exact infinite ..
  have same : (ofDecimal d).exponentField =
      (ofDecimal { d with negative := false }).exponentField := by
    unfold ofDecimal
    dsimp only
    split_ifs
    · exact finite ..
    · exact infinite ..
    · exact rounded ..
    · exact rounded ..
  rw [isFinite_iff, isFinite_iff, same]

theorem exists_decimal_of_isFinite {numeral : Text.RealNumeral}
    (finite : (ofNumeral numeral).isFinite) : ∃ d, numeral = .decimal d := by
  have special : (ofDatum .nan).isFinite = false ∧
      ∀ negative, (ofDatum (.infinite negative)).isFinite = false := by
    decide
  cases numeral with
  | decimal d => exact ⟨d, rfl⟩
  | infinite negative => simp [ofNumeral, special.2] at finite
  | nan => simp [ofNumeral, special.1] at finite

end Double

/-! ## Numerals as constants -/

section Numerals

variable {s : String} {d : Text.Decimal} (read : Text.realNumeral? s = some (.decimal d))

include read

/-- What a numeral denotes in the program, if it is a constant, is one number. -/
theorem signedConstant_unique {q q' : ℚ} (denotes : SignedConstant s.toList q)
    (denotes' : SignedConstant s.toList q') : q = q' := by
  obtain ⟨rest, sign, shape⟩ := Text.unsigned_of_realNumeral? read
  obtain ⟨r, constant, rfl⟩ := (Code.signedConstant_iff sign shape).mp denotes
  obtain ⟨r', constant', rfl⟩ := (Code.signedConstant_iff sign shape).mp denotes'
  rw [constant.unique constant']

/-- When a numeral denotes the same number in the program as in the manifest. -/
theorem signedConstant_toRat_iff (finite : (Double.ofDecimal d).isFinite) :
    SignedConstant s.toList d.toRat ↔
      Marked s.toList ∨ d.coefficient < 8 ∨
        s.toList.find? Char.isDigit ≠ some '0' ∧ d.coefficient < twoTo 63 := by
  obtain ⟨rest, sign, shape⟩ := Text.unsigned_of_realNumeral? read
  have typed := (Double.isFinite_ofDecimal d).mp finite
  have behind : SignedConstant s.toList d.toRat ↔
      Constant rest (d.coefficient * 10 ^ d.exponent) := by
    rw [Code.signedConstant_iff sign shape, Text.Decimal.toRat]
    cases d.negative <;> simp [neg_inj]
  obtain ⟨marks, first⟩ := Code.marked_iff_of_sign sign
  rw [behind, Code.constant_iff shape typed, marks, first]
  refine or_congr_right' fun plain => ?_
  obtain ⟨digits, -⟩ := Code.digits_of_not_marked shape plain
  obtain ⟨c, cs, rfl⟩ := List.exists_cons_of_ne_nil digits.visible
  rw [List.find?_cons_of_pos (digits.digits c List.mem_cons_self), List.head?_cons]

end Numerals

/-! ## Tolerances of variables -/

/-- A tolerance is a decimal number that is rounded to a finite double. -/
theorem Variable.decimal_of_readTolerance {e : Xml.Element} {t : Tolerance}
    (read : readTolerance e = .ok (some t)) :
    ∃ text d, e.attribute? "epsilon" = some text ∧ t.text = Text.trim text ∧
      Text.realNumeral? t.text = some (.decimal d) ∧ t.value = .ofDecimal d ∧
      t.value.isFinite := by
  obtain ⟨given, sound⟩ := given_of_readTolerance read
  cases entry : e.attribute? "epsilon" with
  | none =>
      rw [entry] at given
      cases given
  | some text =>
      rw [entry] at given
      cases given with
      | written reads =>
          obtain ⟨numeral, reads, made⟩ := Option.map_eq_some_iff.mp reads
          have trimmed : t.text = Text.trim text := by rw [← Option.some.inj made]
          have value : t.value = .ofNumeral numeral := by rw [← Option.some.inj made]
          obtain ⟨finite, -⟩ := Double.nonNegative_iff.mp (sound t rfl)
          rw [value] at finite
          obtain ⟨d, rfl⟩ := Double.exists_decimal_of_isFinite finite
          exact ⟨text, d, rfl, trimmed, trimmed ▸ reads, value, value ▸ finite⟩

/-- A variable with a reference copy has its tolerance declared as it is written. -/
theorem Host.declareValue_mem_body {p : Plan} {w : Placed} {t : Tolerance}
    (mem : w ∈ p.hostPlaced) (copied : w.layout.reference.isSome)
    (held : w.decl.tolerance = some t) :
    declareValue "double" (.tolerance w.decl.name) (.verbatim t.text) ∈ body p := by
  obtain ⟨contents, reference⟩ := Option.isSome_iff_exists.mp copied
  have declared : declareValue "double" (.tolerance w.decl.name) (.verbatim t.text) ∈
      declareVariable p.template w := by
    simp [declareVariable, reference, held]
  rw [body_eq]
  exact List.mem_append_left _ (List.mem_append_right _ (List.mem_flatMap.mpr ⟨w, mem, declared⟩))

/-- The tolerance of a variable as the program declares it, and as its comparison is evaluated on
the side of the host: the two are one number if the text has a point or an exponent, and otherwise
only if its digits are not octal and not too many. -/
theorem tolerance_of_read {role : Role} {e : Xml.Element} {v : Variable} {t : Tolerance}
    (read : Variable.read role e = .ok v) (held : v.tolerance = some t) :
    ∃ text d, e.attribute? "epsilon" = some text ∧ t.text = Text.trim text ∧
      Text.realNumeral? t.text = some (.decimal d) ∧ t.value = .ofDecimal d ∧
      (∀ (p : Plan), ∀ w ∈ p.hostPlaced, w.decl = v → w.layout.reference.isSome →
        Host.declareValue "double" (.tolerance v.name) (.verbatim t.text) ∈ Host.body p) ∧
      (∀ (w : Placed) (c : Check), w.decl = v → w.check? = some c →
        c.comparison = .within (.var (.tolerance v.name)) t.text t.value) ∧
      (∀ q q', SignedConstant t.text.toList q → SignedConstant t.text.toList q' → q = q') ∧
      (SignedConstant t.text.toList d.toRat ↔
        Marked t.text.toList ∨ d.coefficient < 8 ∨
          t.text.toList.find? Char.isDigit ≠ some '0' ∧ d.coefficient < twoTo 63) := by
  have readTolerance := (Variable.readFrom_of_read read).tolerance
  rw [held] at readTolerance
  obtain ⟨text, d, entry, trimmed, reads, value, finite⟩ :=
    Variable.decimal_of_readTolerance readTolerance
  refine ⟨text, d, entry, trimmed, reads, value, ?_, ?_, ?_, ?_⟩
  · rintro p w mem rfl copied
    exact Host.declareValue_mem_body mem copied held
  · rintro w c rfl made
    rw [(Placed.comparedBy_of_check? made).comparison, held]
    rfl
  · exact fun q q' => signedConstant_unique reads
  · exact signedConstant_toRat_iff reads (value ▸ finite)

/-- An output with a tolerance. -/
def toleratedOutput : Xml.Element :=
  .mk "output" [⟨none, "name", "b"⟩, ⟨none, "type", "float"⟩, ⟨none, "nmemb", "2"⟩,
    ⟨none, "arg", "1"⟩, ⟨none, "epsilon", "0.5"⟩] [] 0 0

theorem tolerance_of_read_toleratedOutput :
    ∃ v t d, Variable.read .output toleratedOutput = .ok v ∧ v.tolerance = some t ∧
      t.text = "0.5" ∧ Text.realNumeral? t.text = some (.decimal d) ∧ t.value = .ofDecimal d ∧
      SignedConstant t.text.toList d.toRat := by
  have evaluated :
      ((Variable.read .output toleratedOutput).toOption.bind (·.tolerance)).isSome := by
    decide +kernel
  obtain ⟨t, found⟩ := Option.isSome_iff_exists.mp evaluated
  obtain ⟨v, read, held⟩ := Option.bind_eq_some_iff.mp found
  have read := Checked.toOption_eq_some.mp read
  obtain ⟨text, d, entry, trimmed, reads, value, -, -, -, means⟩ := tolerance_of_read read held
  obtain rfl : "0.5" = text := Option.some.inj entry
  have written : t.text = "0.5" := trimmed.trans (by decide)
  have marked : Marked t.text.toList := by
    rw [written]
    exact ⟨'.', by decide, .inl rfl⟩
  exact ⟨v, t, d, read, held, written, reads, value, means.mpr (.inl marked)⟩

/-- A manifest with a tolerance that begins with a zero. -/
def octalManifest : String :=
  "<k program='p'><kernel name='f'>" ++
    "<output name='b' type='float' nmemb='2' arg='0' epsilon='010'/>" ++
    "<ndrange><global>1</global></ndrange></kernel></k>"

set_option maxRecDepth 100000 in
/-- The manifest is accepted with a tolerance of ten, and the program declares one of eight. -/
theorem octal_of_generate :
    ∃ g m p w t, generate octalManifest = .ok g ∧ Manifest.read octalManifest = .ok m ∧
      Plan.ofManifest m = .ok p ∧ g.program = (Host.Program.ofPlan p).text ∧
      w ∈ p.hostPlaced ∧ w.decl.tolerance = some t ∧ t.text = "010" ∧
      Text.realNumeral? t.text = some (.decimal ⟨false, 10, 0⟩) ∧
      t.value = .ofDecimal ⟨false, 10, 0⟩ ∧
      Host.declareValue "double" (.tolerance w.decl.name) (.verbatim t.text) ∈ Host.body p ∧
      SignedConstant t.text.toList 8 ∧ ¬ SignedConstant t.text.toList 10 := by
  obtain ⟨m, p, read, planned, holds⟩ := Plan.exists_planned octalManifest
    (fun _ p => p.hostPlaced.any fun w => w.layout.reference.isSome &&
      w.decl.tolerance.any fun t => t.text == "010" && t.value == .ofDecimal ⟨false, 10, 0⟩)
    (by decide +kernel)
  simp only [List.any_eq_true, Option.any_eq_true, Bool.and_eq_true, beq_iff_eq] at holds
  obtain ⟨w, mem, copied, t, held, text, value⟩ := holds
  have generated := Plan.generate_eq_ok.mpr ⟨m, p, read, planned, rfl⟩
  have reads : Text.realNumeral? "010" = some (.decimal ⟨false, 10, 0⟩) := by decide
  have eight : SignedConstant "010".toList 8 := by
    have constant : Constant ['0', '1', '0'] (Text.ofBase 8 ['1', '0']) :=
      .octal (List.all_eq_true.mp (by decide)) (by decide)
    have base : Text.ofBase 8 ['1', '0'] = 8 := by decide
    rw [base] at constant
    exact ⟨false, _, _, .absent _, constant, rfl⟩
  have notTen : ¬ SignedConstant "010".toList 10 := fun ten =>
    absurd (signedConstant_unique reads eight ten) (by norm_num)
  rw [← text] at reads eight notTen
  exact ⟨_, m, p, w, t, generated, read, planned, rfl, mem, held, text, reads, value,
    Host.declareValue_mem_body mem copied held, eight, notTen⟩

end KernelHost
