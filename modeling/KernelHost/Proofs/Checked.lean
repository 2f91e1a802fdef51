import KernelHost.Checked
import Mathlib.Data.List.Forall2

/-!
# Steps that succeed

What the success of a step says about the steps that it is made of.  Later modules take checked
computations apart with these equivalences and never look at their problems.
-/

namespace KernelHost

/-- What is related to members with one property has another one if the relation carries over. -/
theorem forall_mem_of_forall₂ {α β : Type} {R : α → β → Prop} {p : α → Prop} {q : β → Prop}
    {as : List α} {bs : List β} (related : List.Forall₂ R as bs)
    (carry : ∀ a b, R a b → p a → q b) (all : ∀ a ∈ as, p a) : ∀ b ∈ bs, q b := by
  induction related with
  | nil => simp
  | cons head _ ih =>
      obtain ⟨here, rest⟩ := List.forall_mem_cons.mp all
      exact List.forall_mem_cons.mpr ⟨carry _ _ head here, ih rest⟩

namespace Checked

variable {α β : Type}

@[simp]
theorem bind_eq_ok {x : Checked α} {f : α → Checked β} {b : β} :
    (x >>= f) = .ok b ↔ ∃ a, x = .ok a ∧ f a = .ok b := by
  cases x <;> simp [bind, Except.bind]

@[simp]
theorem pure_eq_ok {a b : α} : (pure a : Checked α) = .ok b ↔ a = b := by
  simp [pure, Except.pure]

@[simp]
theorem map_eq_ok {f : α → β} {x : Checked α} {b : β} :
    x.map f = .ok b ↔ ∃ a, x = .ok a ∧ f a = b := by
  cases x <;> simp [Except.map]

@[simp]
theorem fail_ne_ok {what : Problem} {span : Span} {a : α} : fail what span ≠ .ok a := by
  simp [fail]

@[simp]
theorem ofOption_eq_ok {what : Problem} {span : Span} {o : Option α} {a : α} :
    ofOption what span o = .ok a ↔ o = some a := by
  cases o <;> simp [ofOption]

@[simp]
theorem both_eq_ok {x : Checked α} {y : Checked β} {c : α × β} :
    both x y = .ok c ↔ x = .ok c.1 ∧ y = .ok c.2 := by
  obtain ⟨a, b⟩ := c
  cases x <;> cases y <;> simp [both]

@[simp]
theorem ofProblems_eq_ok {ps : List (At Problem)} {u : Unit} :
    ofProblems ps = .ok u ↔ ps = [] := by
  cases ps <;> simp [ofProblems]

/-- A step for each member of a list succeeds if the step for every member does. -/
theorem each_eq_ok {f : α → Checked β} {as : List α} {bs : List β} :
    each f as = .ok bs ↔ List.Forall₂ (fun a b => f a = .ok b) as bs := by
  induction as generalizing bs with
  | nil => simp [each, eq_comm]
  | cons a as ih =>
      simp only [each, map_eq_ok, both_eq_ok, ih, List.forall₂_cons_left_iff]
      constructor
      · rintro ⟨⟨b, rest⟩, ⟨head, tail⟩, rfl⟩
        exact ⟨b, rest, head, tail, rfl⟩
      · rintro ⟨b, rest, head, tail, rfl⟩
        exact ⟨(b, rest), ⟨head, tail⟩, rfl⟩

/-- What the steps keep of the members, the list of their values keeps. -/
theorem map_eq_of_each {γ : Type} {f : α → Checked β} {as : List α} {bs : List β} {g : β → γ}
    {h : α → γ} (done : each f as = .ok bs) (kept : ∀ a b, f a = .ok b → g b = h a) :
    bs.map g = as.map h := by
  have pairs := each_eq_ok.mp done
  clear done
  induction pairs with
  | nil => rfl
  | cons head _ ih => rw [List.map_cons, List.map_cons, kept _ _ head, ih]

/-- Every value comes from a member. -/
theorem mem_of_each {f : α → Checked β} {as : List α} {bs : List β}
    (done : each f as = .ok bs) {b : β} (mem : b ∈ bs) : ∃ a ∈ as, f a = .ok b := by
  have sources : ∀ b ∈ bs, ∃ a ∈ as, f a = .ok b :=
    forall_mem_of_forall₂ (p := (· ∈ as)) (each_eq_ok.mp done)
      (fun a _ step a_mem => ⟨a, a_mem, step⟩) fun _ => id
  exact sources b mem

/-! ## Values alone -/

theorem toOption_eq_some {x : Checked α} {a : α} : x.toOption = some a ↔ x = .ok a := by
  cases x <;> simp [Except.toOption]

@[simp]
theorem toOption_fail {what : Problem} {span : Span} :
    (fail what span : Checked α).toOption = none := rfl

@[simp]
theorem toOption_pure {a : α} : (pure a : Checked α).toOption = some a := rfl

@[simp]
theorem toOption_ofOption {what : Problem} {span : Span} {o : Option α} :
    (ofOption what span o).toOption = o := by
  cases o <;> rfl

@[simp]
theorem toOption_map {f : α → β} {x : Checked α} : (x.map f).toOption = x.toOption.map f := by
  cases x <;> rfl

@[simp]
theorem toOption_bind {x : Checked α} {f : α → Checked β} :
    (x >>= f).toOption = x.toOption.bind fun a => (f a).toOption := by
  cases x <;> rfl

@[simp]
theorem toOption_both {x : Checked α} {y : Checked β} :
    (both x y).toOption = x.toOption.bind fun a => y.toOption.map fun b => (a, b) := by
  cases x <;> cases y <;> rfl

@[simp]
theorem toOption_ofProblems {ps : List (At Problem)} :
    (ofProblems ps).toOption = if ps.isEmpty then some () else none := by
  cases ps <;> rfl

/-- Steps that differ by a map of the members and of the values differ so as a whole. -/
theorem toOption_each_map {α' β' : Type} {f : α → Checked β} {g : α' → Checked β'}
    (e : α → α') (h : β → β') (same : ∀ a, (g (e a)).toOption = (f a).toOption.map h)
    (as : List α) : (each g (as.map e)).toOption = (each f as).toOption.map (List.map h) := by
  induction as with
  | nil => rfl
  | cons a as ih =>
      simp only [List.map_cons, each, toOption_map, toOption_both, same, ih]
      cases (f a).toOption <;> cases (each f as).toOption <;> rfl

end Checked
end KernelHost
