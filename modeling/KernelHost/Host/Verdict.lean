import KernelHost.Host.Phase

/-!
# Verdict

What happens behind the run: the report of the time spent, and the comparison of the outputs with
what was expected of them.
-/

namespace KernelHost.Host

open Code (Expr Piece Stmt Var)

/-- Reports the time spent on kernels, if it was measured. -/
def profilingReport (p : Plan) : List Stmt :=
  if p.settings.profiling then
    [.blank, .comment "Print profiling results",
      .perform ⟨.printf,
        [.literal [.text "Elapsed time spent on kernels: ", .conversion "ld",
            .text " us; Average time per iteration: ", .conversion "lf", .text " us.\\n"],
          .var .execTime,
          .binary .div (.var .execTime) (.cast "double" (.var .iterations))]⟩]
  else []

/-- The message about a mismatch. -/
def mismatchFormat (c : Check) : List Piece :=
  [.text "Variable "] ++ c.location ++
    [.text ": expected ", .conversion c.format, .text " got ", .conversion c.format,
      .text (c.comparison.note ++ ".\\n")]

/-- Reports a mismatch; the first one ends the announced step. -/
def reportMismatch (c : Check) : List Stmt :=
  [.when (.not (.var .invalidDataFound))
      [.perform ⟨.printFail, []⟩, .assign (.var .invalidDataFound) (.constant "true")],
    .perform ⟨.printf,
      .literal (mismatchFormat c) :: c.locationArgs.map Expr.var ++ [c.expected, c.actual]⟩]

/-- Statements for each tuple of indices of a nest of loops. -/
def nest (loops : List (Var × Nat)) (body : List Stmt) : List Stmt :=
  loops.foldr (fun (index, bound) inner => [.count index bound inner]) body

/-- The comparison of an output. -/
def compareOutput (c : Check) : List Stmt :=
  nest c.loops [.when c.test (reportMismatch c)]

/-- The comparison of all outputs, if any is validated. -/
def validation (p : Plan) : List Stmt :=
  if p.checks.isEmpty then []
  else
    [.blank, .comment "Validate received data", announce false "Validating received data..."] ++
      p.checks.flatMap compareOutput ++
      [.choose (.not (.var .invalidDataFound)) [succeed]
        [.assign (.var .exitCode) (.constant "EXIT_FAILURE")]]

/-- Everything behind the run. -/
def verdict (p : Plan) : List Stmt :=
  hookCall p .postamble ++ profilingReport p ++ validation p

end KernelHost.Host
