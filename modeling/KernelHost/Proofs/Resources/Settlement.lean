import KernelHost.Proofs.Resources.Completion
import KernelHost.Proofs.Resources.Release

/-!
# Settlement

Wherever the host program of a manifest ends, everything that it acquired has been released, once
and by the call for it, and nothing else has been.
-/

namespace KernelHost.Host

open Code (Config Contract Expr Reaches Stmt)

variable {p : Plan}

/-- The main path and the clean-up behind it. -/
theorem triple_body (wellFormed : p.WellFormed) :
    BooksTriple p (Declared [] []) (body p) fun _ => True := by
  have clean : BooksTriple p (Ready p (slotHandles p)) (cleanup p) fun _ => True :=
    .cons (s := .blank) (.idle rfl) (.weaken (triple_cleanup wellFormed)
      (fun _ ready => ready.holds) fun _ done => done)
  exact .append (.append (.append (.append (.append (.append triple_declarations
    (triple_hostVariables wellFormed)) (triple_spares (sparesAll_hookCall .preamble)))
    (triple_setup wellFormed)) (triple_run wellFormed)) (triple_spares sparesAll_verdict)) clean

/-- Wherever the host program of a manifest ends, everything is settled. -/
theorem settled_of_reaches_leave {source : String} {m : Manifest}
    (read : Manifest.read source = .ok m) (planned : Plan.ofManifest m = .ok p) {a b : Ledger}
    (start : a.books.deeds = []) {value : Expr} {rest : List Stmt}
    (run : Reaches ledgerMachine (Program.ofPlan p).body ⟨(Program.ofPlan p).body, a⟩
      ⟨.leave value :: rest, b⟩) :
    Settled b.books.deeds := by
  have wellFormed :=
    (Plan.arranges_of_ofManifest planned).wellFormed (Manifest.admitted_of_read read)
  have declared : Declared [] [] a.books :=
    ⟨⟨⟨[], start ▸ .nil, by simp⟩, by simp⟩, by simp⟩
  have clean : (resourceContract p).Triple (resourceContract p).atLanding
      (Code.landing (resourceContract p).program) fun _ => True := by
    have triple := triple_cleanup wellFormed
    rw [← landing_body] at triple
    exact triple
  have safe := Contract.safe_of_triples (triple_body wellFormed) clean declared
  exact Contract.observed_of_reaches safe run rfl (.inr rfl) rfl

theorem settled_of_reaches_leave_sampleManifest :
    ∃ m p a b value rest, Manifest.read Plan.sampleManifest = .ok m ∧ Plan.ofManifest m = .ok p ∧
      a.books.deeds = [] ∧
      Reaches ledgerMachine (Program.ofPlan p).body ⟨(Program.ofPlan p).body, a⟩
        ⟨.leave value :: rest, b⟩ ∧
      Settled b.books.deeds := by
  obtain ⟨m, p, read, planned, -⟩ := Plan.sampleManifest_planned
  let a : Ledger := ⟨⟨fun _ => .other, []⟩, fun _ => 0⟩
  obtain ⟨b, value, rest, run⟩ := exists_reaches_leave p a
  exact ⟨m, p, a, b, value, rest, read, planned, rfl, run,
    settled_of_reaches_leave read planned (a := a) rfl run⟩

end KernelHost.Host
