/-!
# Similarity of words

How much a word resembles another one, so that a misspelled name can be answered with the name that
may have been meant.  Equal characters are partners if their places are near each other.  The
likeness is the mean of three shares: the partners among the characters of each word, and the
partners that stand in the same order.
-/

namespace KernelHost.Text

/-- A fraction of two natural numbers. -/
structure Fraction where
  /-- The part. -/
  num : Nat
  /-- The whole. -/
  den : Nat
  deriving DecidableEq, Repr

/-- Whether a fraction is at most another one. -/
def Fraction.atMost (x y : Fraction) : Bool :=
  x.num * y.den ≤ y.num * x.den

/-- How far apart the places of partners may be in words of the given lengths. -/
def reach (m n : Nat) : Nat :=
  max m n / 2 - 1

/--
The partners of the characters of a word, each with its place, among those of another one that are
still free: the first of them that is equal and near enough.
-/
def partners (reach : Nat) : List (Char × Nat) → List (Char × Nat) → List (Char × Nat)
  | [], _ => []
  | (c, i) :: word, free =>
    match free.find? fun (d, j) => d == c && i ≤ j + reach && j ≤ i + reach with
    | some partner => partner :: partners reach word (free.erase partner)
    | none => partners reach word free

/-- Every character finds at most one partner. -/
theorem length_partners_le (reach : Nat) (word free : List (Char × Nat)) :
    (partners reach word free).length ≤ word.length := by
  induction word generalizing free with
  | nil => simp [partners]
  | cons p word ih =>
    unfold partners
    split
    · simp only [List.length_cons]
      exact Nat.succ_le_succ (ih _)
    · exact Nat.le_succ_of_le (ih _)

/-- The likeness of two words, zero if no character has a partner. -/
def likeness (a b : String) : Fraction :=
  let word := a.toList.zipIdx
  let other := b.toList.zipIdx
  let m := word.length
  let n := other.length
  let found := partners (reach m n) word other
  let ordered := other.filter found.contains
  let strays := (found.zip ordered).countP fun (p, q) => p.1 ≠ q.1
  let k := found.length
  if k = 0 then ⟨0, 1⟩ else ⟨k * n * k + k * m * k + (k - strays / 2) * m * n, 3 * m * n * k⟩

/-- The likeness from which on a word counts as similar. -/
def similar : Fraction := ⟨7, 10⟩

/-- The word that resembles a given one most, the last of several, if any is similar. -/
def closest? (word : String) (candidates : List String) : Option String :=
  (candidates.foldl choose none).map (·.1)
where
  /-- The better one of the best so far and a candidate. -/
  choose (best : Option (String × Fraction)) (candidate : String) : Option (String × Fraction) :=
    let likeness := likeness word candidate
    if (best.elim similar (·.2)).atMost likeness then some (candidate, likeness) else best

end KernelHost.Text
