import KernelHost.Problem

/-!
# Checked values

The result of a step that may meet problems: a value, or at least one problem.  Steps that do not
depend on one another are joined by `Checked.both`, which keeps the problems of either; a step that
needs the value of another follows it by the monad of `Except`.
-/

namespace KernelHost

/-- At least one problem. -/
structure Problems where
  /-- The one that was met first. -/
  first : At Problem
  /-- The others, in the order in which they were met. -/
  others : List (At Problem) := []
  deriving DecidableEq, Repr

namespace Problems

/-- All problems, in order. -/
def toList (ps : Problems) : List (At Problem) :=
  ps.first :: ps.others

/-- The problems of two steps. -/
def append (ps qs : Problems) : Problems :=
  ⟨ps.first, ps.others ++ qs.toList⟩

@[simp]
theorem toList_append (ps qs : Problems) : (ps.append qs).toList = ps.toList ++ qs.toList := by
  simp [append, toList]

theorem toList_ne_nil (ps : Problems) : ps.toList ≠ [] := by
  simp [toList]

end Problems

/-- A value, or the problems that stand in its way. -/
abbrev Checked (α : Type) := Except Problems α

namespace Checked

/-- Fails with one problem. -/
def fail {α : Type} (what : Problem) (span : Span) : Checked α :=
  .error ⟨⟨what, span⟩, []⟩

/-- The value, if nothing stands in its way, or else one problem. -/
def ofOption {α : Type} (what : Problem) (span : Span) : Option α → Checked α
  | some a => .ok a
  | none => fail what span

/-- The problems, none for a value. -/
def problems {α : Type} : Checked α → List (At Problem)
  | .ok _ => []
  | .error ps => ps.toList

/-- The values of two steps, or the problems of either. -/
def both {α β : Type} (x : Checked α) (y : Checked β) : Checked (α × β) :=
  match x, y with
  | .ok a, .ok b => .ok (a, b)
  | .ok _, .error qs => .error qs
  | .error ps, .ok _ => .error ps
  | .error ps, .error qs => .error (ps.append qs)

@[simp]
theorem problems_both {α β : Type} (x : Checked α) (y : Checked β) :
    (both x y).problems = x.problems ++ y.problems := by
  cases x <;> cases y <;> simp [both, problems]

/-- The values of one step for each member of a list, or the problems of all of them. -/
def each {α β : Type} (f : α → Checked β) : List α → Checked (List β)
  | [] => .ok []
  | a :: as => (both (f a) (each f as)).map fun (b, bs) => b :: bs

@[simp]
theorem problems_map {α β : Type} (f : α → β) (x : Checked α) :
    problems (x.map f) = x.problems := by
  cases x <;> rfl

@[simp]
theorem problems_each {α β : Type} (f : α → Checked β) (as : List α) :
    (each f as).problems = as.flatMap fun a => (f a).problems := by
  induction as with
  | nil => rfl
  | cons a as ih => simp [each, ih]

/-- Succeeds if a list of problems is empty. -/
def ofProblems : List (At Problem) → Checked Unit
  | [] => .ok ()
  | p :: ps => .error ⟨p, ps⟩

@[simp]
theorem problems_ofProblems (ps : List (At Problem)) : (ofProblems ps).problems = ps := by
  cases ps <;> rfl

end Checked
end KernelHost
