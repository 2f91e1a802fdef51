import KernelHost.Host.Header
import KernelHost.Host.Release
import KernelHost.Host.Run
import KernelHost.Host.Verdict

/-!
# Host programs

A host program is a header and the statements of `main`.  `Program.ofPlan` puts the sections
together, and `Program.text` writes them down.
-/

namespace KernelHost.Host

open Code (Line Stmt)

/-- A host program. -/
structure Program where
  /-- The lines in front of `main`. -/
  header : List String
  /-- The statements of `main`. -/
  body : List Stmt

/-- The statements of `main` for a plan. -/
def body (p : Plan) : List Stmt :=
  declarations p ++ hostVariables p ++ hookCall p .preamble ++ setup p ++ run p ++ verdict p ++
    cleanup p

namespace Program

/-- The host program of a plan. -/
def ofPlan (p : Plan) : Program where
  header := Host.header p
  body := Host.body p

/-- The lines of a host program. -/
def lines (program : Program) : List Line :=
  program.header.map (⟨0, ·⟩) ++ [⟨0, ""⟩, ⟨0, "int main(void) \x7b"⟩] ++
    Stmt.block 1 program.body ++ [⟨0, "\x7d"⟩]

/-- The text of a host program; every line is ended. -/
def text (program : Program) : String :=
  "\n".intercalate (program.lines.map Line.render) ++ "\n"

end Program
end KernelHost.Host
