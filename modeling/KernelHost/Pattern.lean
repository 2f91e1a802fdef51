import KernelHost.Pattern.Meaning
import KernelHost.Pattern.Memory
import KernelHost.Pattern.Reader
import KernelHost.Pattern.Search

/-!
# Patterns from texts

A text is refused as a pattern for the first of these: it cannot be read, its parts stand too deep
inside of each other, what it says has no meaning, or the pattern cannot be searched for.
-/

namespace KernelHost.Pattern

/-- Refuses a pattern that cannot be searched for. -/
def check (p : Pattern) : Except PatternFault Pattern :=
  if PatternFault.memoryLimit < p.memory false then .error .tooLarge
  else if p.needsAllScripts then .error .edgeUnavailable
  else if PatternFault.memoryLimit < p.memory true then .error .tooLarge
  else .ok p

/-- Reads a pattern. -/
def ofText (text : String) : Except PatternFault Pattern := do
  let form ← Form.ofText text
  if PatternFault.depthLimit < form.depth then .error .tooDeep
  else (← ofForm form).check

/-- What is not refused needs no words of other scripts and fits into the memory. -/
theorem check_eq_ok_iff {p q : Pattern} :
    p.check = .ok q ↔ q = p ∧ p.needsAllScripts = false ∧
      p.memory false ≤ PatternFault.memoryLimit ∧ p.memory true ≤ PatternFault.memoryLimit := by
  unfold check
  split
  case isTrue large =>
    exact ⟨nofun, fun ⟨_, _, fits, _⟩ => absurd fits (Nat.not_le_of_lt large)⟩
  case isFalse small =>
    split
    case isTrue needed =>
      exact ⟨nofun, fun ⟨_, unneeded, _⟩ => absurd needed (by rw [unneeded]; exact nofun)⟩
    case isFalse unneeded =>
      split
      case isTrue large =>
        exact ⟨nofun, fun ⟨_, _, _, fits⟩ => absurd fits (Nat.not_le_of_lt large)⟩
      case isFalse fits =>
        refine ⟨fun h => ?_, fun ⟨h, _⟩ => congrArg _ h.symm⟩
        exact ⟨(Except.ok.inj h).symm, Bool.eq_false_iff.mpr unneeded, Nat.le_of_not_lt small,
          Nat.le_of_not_lt fits⟩

end KernelHost.Pattern
