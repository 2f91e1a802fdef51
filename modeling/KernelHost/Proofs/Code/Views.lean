import KernelHost.Host.Program

/-!
# Views of statements

What a block of statements declares and what it calls, wherever it stands in the block.  Every view
reads one statement at a time; `Stmt.allWithin` lists the statements of a block with those inside
them, in the order in which they are written.  In the same way `Each` asks something of every
statement of a block.
-/

namespace KernelHost.Code

mutual

/-- A statement with the statements inside it. -/
def Stmt.within : Stmt → List Stmt
  | .when condition body => .when condition body :: Stmt.allWithin body
  | .choose condition body otherwise =>
    .choose condition body otherwise :: (Stmt.allWithin body ++ Stmt.allWithin otherwise)
  | .count index bound body => .count index bound body :: Stmt.allWithin body
  | .repeatWhile condition body => .repeatWhile condition body :: Stmt.allWithin body
  | s => [s]

/-- The statements of a block with the statements inside them. -/
def Stmt.allWithin : List Stmt → List Stmt
  | [] => []
  | s :: ss => s.within ++ Stmt.allWithin ss

end

attribute [local simp] Stmt.within Stmt.allWithin

namespace Stmt

@[simp]
theorem allWithin_append (ss ts : List Stmt) :
    allWithin (ss ++ ts) = allWithin ss ++ allWithin ts := by
  induction ss with
  | nil => rfl
  | cons s ss ih => simp [ih]

/-- The variables that a statement declares by itself. -/
def declares : Stmt → List Var
  | .declare _ items => items.map (·.var)
  | .declareList _ var _ _ => [var]
  | _ => []

end Stmt

/-- What an initialization calls. -/
def Initial.callees : Initial → List Callee
  | .result call => [call.callee]
  | _ => []

/-- What a condition calls. -/
def Condition.callees : Condition → List Callee
  | .holds _ => []
  | .givesOne call => [call.callee]

/-- What a statement calls by itself. -/
def Stmt.calls : Stmt → List Callee
  | .declare _ items => items.flatMap (·.initial.callees)
  | .store _ call | .perform call | .guarded _ call => [call.callee]
  | .ensure condition failure =>
    .assertCall :: condition.callees ++ [failure.call.callee]
  | _ => []

/-- What a view shows of the statements of a block and those inside them. -/
def gather {α : Type} (view : Stmt → List α) (ss : List Stmt) : List α :=
  (Stmt.allWithin ss).flatMap view

/-! ## Blocks put together -/

section Blocks

variable {α β : Type} (view : Stmt → List α)

@[simp]
theorem gather_nil : gather view [] = [] := rfl

@[simp]
theorem gather_append (ss ts : List Stmt) :
    gather view (ss ++ ts) = gather view ss ++ gather view ts := by
  simp [gather]

theorem gather_cons (s : Stmt) (ss : List Stmt) :
    gather view (s :: ss) = s.within.flatMap view ++ gather view ss := by
  simp [gather]

@[simp]
theorem gather_ite (c : Prop) [Decidable c] (ss ts : List Stmt) :
    gather view (if c then ss else ts) = if c then gather view ss else gather view ts :=
  apply_ite (gather view) c ss ts

@[simp]
theorem gather_flatMap (bs : List β) (f : β → List Stmt) :
    gather view (bs.flatMap f) = bs.flatMap fun b => gather view (f b) := by
  induction bs with
  | nil => rfl
  | cons b bs ih => simp [ih]

@[simp]
theorem gather_map (bs : List β) (f : β → Stmt) :
    gather view (bs.map f) = bs.flatMap fun b => (f b).within.flatMap view := by
  induction bs with
  | nil => rfl
  | cons b bs ih => simp [gather_cons, ih]

/-- What shows nothing of each part shows nothing at all. -/
theorem flatMap_nothing (bs : List β) : bs.flatMap (fun _ => ([] : List α)) = [] :=
  List.flatMap_eq_nil_iff.mpr fun _ _ => rfl

theorem flatMap_within_repeatWhile (c : Expr) (body : List Stmt) :
    (Stmt.repeatWhile c body).within.flatMap view =
      view (.repeatWhile c body) ++ gather view body := by
  simp [gather]

end Blocks

/-! ## Conditions on all statements -/

/-- Every statement of a block, and every one inside it, satisfies a condition. -/
def Each (q : Stmt → Prop) (ss : List Stmt) : Prop :=
  ∀ s ∈ Stmt.allWithin ss, q s

namespace Each

variable {α : Type} {q : Stmt → Prop} {ss ts : List Stmt}

@[simp]
theorem nil : Each q [] := by
  simp [Each]

@[simp]
theorem append_iff : Each q (ss ++ ts) ↔ Each q ss ∧ Each q ts := by
  simp only [Each, Stmt.allWithin_append, List.forall_mem_append]

@[simp]
theorem cons_iff {s : Stmt} : Each q (s :: ss) ↔ (∀ t ∈ s.within, q t) ∧ Each q ss := by
  simp only [Each, Stmt.allWithin, List.forall_mem_append]

@[simp]
theorem flatMap_iff {as : List α} {f : α → List Stmt} :
    Each q (as.flatMap f) ↔ ∀ a ∈ as, Each q (f a) := by
  induction as with
  | nil => simp
  | cons a as ih => simp [ih]

@[simp]
theorem map_iff {as : List α} {f : α → Stmt} :
    Each q (as.map f) ↔ ∀ a ∈ as, ∀ t ∈ (f a).within, q t := by
  induction as with
  | nil => simp
  | cons a as ih => simp [ih]

@[simp]
theorem reverse_iff : Each q ss.reverse ↔ Each q ss := by
  induction ss with
  | nil => simp
  | cons s ss ih => simp [ih, and_comm]

@[simp]
theorem ite {c : Prop} [Decidable c] :
    Each q (if c then ss else ts) ↔ if c then Each q ss else Each q ts := by
  by_cases holds : c <;> simp [holds]

theorem of_mem (each : Each q ss) {s : Stmt} (mem : s ∈ ss) : q s := by
  obtain ⟨front, back, rfl⟩ := List.append_of_mem mem
  have self : s ∈ s.within := by cases s <;> simp
  exact (cons_iff.mp (append_iff.mp each).2).1 s self

end Each

/-- Statements without a body. -/
@[simp]
theorem within_leaf :
    Stmt.blank.within = [.blank] ∧
      (∀ text, (Stmt.comment text).within = [.comment text]) ∧
      (∀ type items, (Stmt.declare type items).within = [.declare type items]) ∧
      (∀ type var size content, (Stmt.declareList type var size content).within =
        [.declareList type var size content]) ∧
      (∀ target value, (Stmt.assign target value).within = [.assign target value]) ∧
      (∀ target value, (Stmt.increase target value).within = [.increase target value]) ∧
      (∀ var, (Stmt.increment var).within = [.increment var]) ∧
      (∀ target call, (Stmt.store target call).within = [.store target call]) ∧
      (∀ call, (Stmt.perform call).within = [.perform call]) ∧
      (∀ c failure, (Stmt.ensure c failure).within = [.ensure c failure]) ∧
      (∀ c call, (Stmt.guarded c call).within = [.guarded c call]) ∧
      Stmt.cleanupLabel.within = [.cleanupLabel] ∧
      ∀ value, (Stmt.leave value).within = [.leave value] := by
  simp

section Within

variable {q : Stmt → Prop} {c : Expr} {body otherwise : List Stmt}

@[simp]
theorem forall_within_when :
    (∀ t ∈ (Stmt.when c body).within, q t) ↔ q (.when c body) ∧ Each q body := by
  simp [Each]

@[simp]
theorem forall_within_choose :
    (∀ t ∈ (Stmt.choose c body otherwise).within, q t) ↔
      q (.choose c body otherwise) ∧ Each q body ∧ Each q otherwise := by
  simp [Each, or_imp, forall_and]

@[simp]
theorem forall_within_count {index : Var} {bound : Nat} :
    (∀ t ∈ (Stmt.count index bound body).within, q t) ↔
      q (.count index bound body) ∧ Each q body := by
  simp [Each]

@[simp]
theorem forall_within_repeatWhile :
    (∀ t ∈ (Stmt.repeatWhile c body).within, q t) ↔ q (.repeatWhile c body) ∧ Each q body := by
  simp [Each]

end Within

end KernelHost.Code
