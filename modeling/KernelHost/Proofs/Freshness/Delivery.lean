import KernelHost.Proofs.Freshness.Passes
import KernelHost.Proofs.Freshness.Reachability

/-!
# Delivery

Whenever the host program of a manifest launches a kernel, the kernel finds at its arguments what
the variables for them hold on the host at that moment.  When a pass is over, the outputs hold on
the host what their buffers hold.
-/

namespace KernelHost.Host

open Code (Config Contract Reaches Stmt)

variable {α : Type} {p : Plan}

/-- The clean-up launches nothing. -/
theorem dataTriple_cleanup {P : Data α → Prop} :
    DataTriple p P (cleanup p).tail fun _ => True := by
  obtain ⟨releases, sure, clean⟩ := cleanup_eq p
  have leave : DataTriple (α := α) p (fun _ => True) [.leave (.var .exitCode)] fun _ => True :=
    .leave fun a _ => observed_of_silent rfl (by simp) a
  rw [clean]
  exact .cons (s := .cleanupLabel) (.idle rfl) (.append (dataTriple_of_sure sure) leave)

/-- The main path and the clean-up behind it. -/
theorem dataTriple_body (wellFormed : p.WellFormed) :
    DataTriple (α := α) p (fun _ => True) (body p) fun _ => True := by
  have declared : DataTriple (α := α) p (fun _ => True) (declarations p) fun _ => True :=
    dataTriple_of_sure (sure_declarations p)
  have verdict : DataTriple (α := α) p (fun _ => True) (verdict p) fun _ => True :=
    dataTriple_of_sure (sure_verdict p)
  have clean : DataTriple (α := α) p (fun _ => True) (cleanup p) fun _ => True := by
    obtain ⟨releases, -, split⟩ := cleanup_eq p
    have tail := dataTriple_cleanup (α := α) (p := p) (P := fun _ => True)
    rw [split] at tail ⊢
    exact .cons (s := .blank) (.idle rfl) tail
  exact .append (.append (.append (.append (.append (.append declared
    (dataTriple_hostVariables wellFormed)) (dataTriple_hookCall (P := Extended p) .preamble))
    (dataTriple_setup wellFormed)) (dataTriple_run wellFormed)) verdict) clean

/-- Kernels are launched on fresh data, and passes end with fetched outputs. -/
theorem fresh_of_reaches {source : String} {m : Manifest}
    (read : Manifest.read source = .ok m) (planned : Plan.ofManifest m = .ok p) {a b : Stores α}
    {s : Stmt} {rest : List Stmt}
    (run : Reaches (storeMachine α) (Program.ofPlan p).body ⟨(Program.ofPlan p).body, a⟩
      ⟨s :: rest, b⟩) :
    (∀ k ∈ p.kernels, launched? s = some k.kernel.ident → b.data.Fresh k) ∧
      (s = .increment .iterations → b.data.Fetched p) := by
  have wellFormed :=
    (Plan.arranges_of_ofManifest planned).wellFormed (Manifest.admitted_of_read read)
  have clean : (dataContract α p).Triple (dataContract α p).atLanding
      (Code.landing (dataContract α p).program) fun _ => True := by
    have tail := dataTriple_cleanup (α := α) (p := p) (P := fun _ => True)
    rw [← landing_body] at tail
    exact tail
  have safe := Contract.safe_of_triples (dataTriple_body wellFormed) clean (a := a) trivial
  by_cases looked : s.isPlain ∨ s.isLeave
  · exact Contract.observed_of_reaches safe run rfl looked
  · refine ⟨fun k _ launched => absurd launched ?_, fun counted => absurd counted ?_⟩
    · unfold launched?
      split <;> simp_all [Stmt.isPlain]
    · rintro rfl
      exact looked (.inl rfl)

theorem fresh_of_reaches_sampleManifest :
    ∃ (m : Manifest) (p : Plan) (k : PlannedKernel) (a b c : Stores Nat) (s : Stmt)
      (behind rest : List Stmt),
      Manifest.read Plan.sampleManifest = .ok m ∧ Plan.ofManifest m = .ok p ∧ k ∈ p.kernels ∧
        launched? s = some k.kernel.ident ∧
        Reaches (storeMachine Nat) (Program.ofPlan p).body ⟨(Program.ofPlan p).body, a⟩
          ⟨s :: behind, b⟩ ∧
        b.data.Fresh k ∧
        Reaches (storeMachine Nat) (Program.ofPlan p).body ⟨(Program.ofPlan p).body, a⟩
          ⟨.increment .iterations :: rest, c⟩ ∧
        c.data.Fetched p := by
  obtain ⟨m, p, read, planned, kernels⟩ := Plan.sampleManifest_planned
  obtain ⟨k, mem⟩ := List.exists_mem_of_ne_nil _ kernels
  have wellFormed :=
    (Plan.arranges_of_ofManifest planned).wellFormed (Manifest.admitted_of_read read)
  let a : Stores Nat :=
    ⟨⟨fun _ => 0, ⟨fun _ => none, fun _ => none, fun _ => none, fun _ _ => none⟩⟩, true⟩
  obtain ⟨b, c, s, behind, rest, launched, begins, ends⟩ :=
    exists_reaches_launch wellFormed mem (a := a) ⟨⟨0, fun _ _ => rfl⟩, rfl⟩
  refine ⟨m, p, k, a, b, c, s, behind, rest, read, planned, mem, launched, begins, ?_,
    begins.trans ends, ?_⟩
  · exact (fresh_of_reaches read planned begins).1 k mem launched
  · exact (fresh_of_reaches read planned (begins.trans ends)).2 rfl

end KernelHost.Host
