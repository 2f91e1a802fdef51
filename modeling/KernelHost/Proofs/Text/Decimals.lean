import KernelHost.Proofs.Text.Digits
import KernelHost.Text.Decimal

/-!
# Decimal numerals

An unsigned numeral is digits, digits with a point among them, or either of them with an exponent.
These shapes are all that is read as a decimal number.
-/

namespace KernelHost.Text

/-- A mark, at most one sign and digits denote a power of ten. -/
inductive Exponent : List Char → Int → Prop
  | plain {mark : Char} {ds : List Char} {n : Nat} (marked : mark = 'e' ∨ mark = 'E')
      (digits : DigitSequence ds n) : Exponent (mark :: ds) n
  | positive {mark : Char} {ds : List Char} {n : Nat} (marked : mark = 'e' ∨ mark = 'E')
      (digits : DigitSequence ds n) : Exponent (mark :: '+' :: ds) n
  | negative {mark : Char} {ds : List Char} {n : Nat} (marked : mark = 'e' ∨ mark = 'E')
      (digits : DigitSequence ds n) : Exponent (mark :: '-' :: ds) (-n)

theorem Exponent.exists_mark {cs : List Char} {e : Int} (scale : Exponent cs e) :
    ∃ mark ds, cs = mark :: ds ∧ (mark = 'e' ∨ mark = 'E') := by
  cases scale with
  | plain marked | positive marked | negative marked => exact ⟨_, _, rfl, marked⟩

theorem exponent?_eq_some_iff {cs : List Char} {e : Int} :
    exponent? cs = some e ↔ cs = [] ∧ e = 0 ∨ Exponent cs e := by
  constructor
  · intro read
    unfold exponent? at read
    split at read
    · exact .inl ⟨rfl, (Option.some.inj read).symm⟩
    · rename_i mark cs
      simp only [Bool.or_eq_true, beq_iff_eq, Option.ite_none_right_eq_some] at read
      obtain ⟨marked, read⟩ := read
      split at read
      all_goals
        simp only [Option.map_eq_some_iff, Option.bind_eq_bind, Option.bind_eq_some_iff,
          Option.pure_def, Option.some.injEq, digits?_eq_some] at read
        obtain ⟨_, ⟨n, digits, rfl⟩, rfl⟩ := read
      · exact .inr (.negative marked digits)
      · exact .inr (.positive marked digits)
      · exact .inr (.plain marked digits)
  · rintro (⟨rfl, rfl⟩ | scale)
    · rfl
    · cases scale with
      | @plain mark ds n marked digits =>
          obtain ⟨c, ds, rfl⟩ := List.exists_cons_of_ne_nil digits.visible
          have noSign := ne_sign_of_isDigit (digits.digits c List.mem_cons_self)
          simp [exponent?, marked, noSign, digits?_eq_some.mpr digits]
      | positive marked digits => simp [exponent?, marked, digits?_eq_some.mpr digits]
      | negative marked digits => simp [exponent?, marked, digits?_eq_some.mpr digits]

/-- The shapes of an unsigned numeral, with its digits as one number and the power of ten that
places them. -/
inductive Unsigned : List Char → Nat → Int → Prop
  | digits {cs : List Char} {n : Nat} (digits : DigitSequence cs n) : Unsigned cs n 0
  | point {whole part tail : List Char} {n : Nat} {e : Int}
      (digits : DigitSequence (whole ++ part) n) (scale : tail = [] ∧ e = 0 ∨ Exponent tail e) :
      Unsigned (whole ++ '.' :: part ++ tail) n (e - part.length)
  | scientific {whole tail : List Char} {n : Nat} {e : Int} (digits : DigitSequence whole n)
      (scale : Exponent tail e) : Unsigned (whole ++ tail) n e

section Reading

variable {negative : Bool} {whole part tail : List Char} {n : Nat} {e : Int}

theorem not_isDigit_of_exponent? (scale : exponent? tail = some e) :
    ∀ c ∈ tail.head?, c.isDigit = false := by
  rcases exponent?_eq_some_iff.mp scale with ⟨rfl, -⟩ | scale
  · simp
  · obtain ⟨mark, ds, rfl, rfl | rfl⟩ := scale.exists_mark <;> simp [Char.isDigit]

theorem unsignedDecimal?_point (digits : DigitSequence (whole ++ part) n)
    (scale : exponent? tail = some e) :
    unsignedDecimal? negative (whole ++ '.' :: part ++ tail) =
      some ⟨negative, n, e - part.length⟩ := by
  obtain ⟨visible, digits, value⟩ := digits
  obtain ⟨inWhole, inPart⟩ := List.forall_mem_append.mp digits
  have stop : ∀ c ∈ ('.' :: (part ++ tail)).head?, c.isDigit = false := by simp [Char.isDigit]
  obtain ⟨front, rest⟩ := takeWhile_append_stop inWhole stop
  obtain ⟨middle, back⟩ := takeWhile_append_stop inPart (not_isDigit_of_exponent? scale)
  rw [List.append_assoc, List.cons_append, unsignedDecimal?, front, rest]
  simp only [middle, back, scale, value]
  simp [visible]

theorem unsignedDecimal?_whole (digits : DigitSequence whole n) (scale : exponent? tail = some e) :
    unsignedDecimal? negative (whole ++ tail) = some ⟨negative, n, e⟩ := by
  obtain ⟨visible, digits, value⟩ := digits
  obtain ⟨front, rest⟩ := takeWhile_append_stop digits (not_isDigit_of_exponent? scale)
  have noPoint : ∀ more, tail ≠ '.' :: more := by
    rintro more rfl
    simp [exponent?] at scale
  rw [unsignedDecimal?, front, rest]
  split
  rename_i fraction more split
  have parts : fraction = [] ∧ more = tail := by
    revert split
    cases tail with
    | nil => simp +contextual
    | cons c tail =>
        split
        · rename_i same
          exact absurd same (noPoint _)
        · simp +contextual [eq_comm]
  obtain ⟨rfl, rfl⟩ := parts
  simp [visible, scale, value]

theorem unsigned_of_unsignedDecimal? {cs : List Char} {d : Decimal}
    (read : unsignedDecimal? negative cs = some d) :
    d.negative = negative ∧ Unsigned cs d.coefficient d.exponent := by
  have parted := List.takeWhile_append_dropWhile (p := Char.isDigit) (l := cs)
  have inWhole : ∀ c ∈ cs.takeWhile Char.isDigit, c.isDigit :=
    List.all_eq_true.mp List.all_takeWhile
  revert parted inWhole read
  rw [unsignedDecimal?]
  generalize cs.takeWhile Char.isDigit = whole
  generalize cs.dropWhile Char.isDigit = rest
  intro read parted inWhole
  split at read
  rename_i part tail split
  split at read
  · cases read
  · rename_i visible
    obtain ⟨e, scale, rfl⟩ := Option.map_eq_some_iff.mp read
    refine ⟨rfl, ?_⟩
    split at split
    · rename_i more
      obtain ⟨rfl, rfl⟩ := Prod.mk.inj split
      have back := List.takeWhile_append_dropWhile (p := Char.isDigit) (l := more)
      have inPart : ∀ c ∈ more.takeWhile Char.isDigit, c.isDigit :=
        List.all_eq_true.mp List.all_takeWhile
      have digits : DigitSequence (whole ++ more.takeWhile Char.isDigit) _ :=
        ⟨by simpa using visible, List.forall_mem_append.mpr ⟨inWhole, inPart⟩, rfl⟩
      have shape := Unsigned.point digits (exponent?_eq_some_iff.mp scale)
      rwa [List.append_assoc, List.cons_append, back, parted] at shape
    · obtain ⟨rfl, rfl⟩ := Prod.mk.inj split
      have digits : DigitSequence whole _ := ⟨by simpa using visible, inWhole, rfl⟩
      rw [← parted]
      simp only [List.append_nil, List.length_nil, Nat.cast_zero, Int.sub_zero]
      rcases exponent?_eq_some_iff.mp scale with ⟨rfl, rfl⟩ | scale
      · rw [List.append_nil]
        exact .digits digits
      · exact .scientific digits scale

/-- Everything of one of these shapes is read, and nothing else is. -/
theorem unsignedDecimal?_eq_some_iff {cs : List Char} :
    unsignedDecimal? negative cs = some ⟨negative, n, e⟩ ↔ Unsigned cs n e := by
  constructor
  · intro read
    exact (unsigned_of_unsignedDecimal? read).2
  · intro shape
    cases shape with
    | digits digits =>
        have read : unsignedDecimal? negative (cs ++ []) = some ⟨negative, n, 0⟩ :=
          unsignedDecimal?_whole digits rfl
        rwa [List.append_nil] at read
    | point digits scale =>
        exact unsignedDecimal?_point digits (exponent?_eq_some_iff.mpr scale)
    | scientific digits scale =>
        exact unsignedDecimal?_whole digits (exponent?_eq_some_iff.mpr (.inr scale))

end Reading

/-! ## Signs -/

/-- A sign may stand in front of a numeral; whether it is a minus sign, and the rest. -/
inductive Sign : List Char → Bool → List Char → Prop
  | absent (cs : List Char) : Sign cs false cs
  | plus (cs : List Char) : Sign ('+' :: cs) false cs
  | minus (cs : List Char) : Sign ('-' :: cs) true cs

theorem unsigned_of_realNumeral? {s : String} {d : Decimal}
    (read : realNumeral? s = some (.decimal d)) :
    ∃ rest, Sign s.toList d.negative rest ∧ Unsigned rest d.coefficient d.exponent := by
  obtain ⟨negative, rest, sign, read⟩ :
      ∃ negative rest, Sign s.toList negative rest ∧
        unsignedDecimal? negative rest = some d := by
    rw [realNumeral?] at read
    split at read
    rename_i negative rest parted
    refine ⟨negative, rest, ?_, ?_⟩
    · split at parted <;> obtain ⟨rfl, rfl⟩ := Prod.mk.inj parted
      · rename_i same
        rw [same]
        exact .minus _
      · rename_i same
        rw [same]
        exact .plus _
      · exact .absent _
    · dsimp only at read
      split_ifs at read
      · simp at read
      · simp at read
      · simpa using read
  obtain ⟨rfl, shape⟩ := unsigned_of_unsignedDecimal? read
  exact ⟨rest, sign, shape⟩

end KernelHost.Text
