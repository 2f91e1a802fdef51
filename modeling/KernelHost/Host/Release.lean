import KernelHost.Host.Declarations

/-!
# Release

The end of the host program, which success and every failure reach.  What was acquired is released
in the reverse order; what was not is null.
-/

namespace KernelHost.Host

open Code (Callee Stmt Var)

/-- Releases what a variable holds, if it holds something. -/
def release (callee : Callee) (var : Var) : Stmt :=
  .guarded (.var var) ⟨callee, [.var var]⟩

/-- A titled group of releases, if there are any. -/
def releaseGroup (title : String) (releases : List Stmt) : List Stmt :=
  if releases.isEmpty then [] else [.blank, .comment title] ++ releases

/-- The clean-up. -/
def cleanup (p : Plan) : List Stmt :=
  [.blank, .cleanupLabel] ++
    releaseGroup "Dealloc events"
      ((List.range p.schedule.boundaries).reverse.map (releaseList p)) ++
    releaseGroup "Dealloc buffers"
      (p.buffers.reverse.map fun b => release .clReleaseMemObject b.handle) ++
    releaseGroup "Dealloc kernels"
      (p.kernels.reverse.map fun k => release .clReleaseKernel (.kernel k.kernel.ident)) ++
    releaseGroup "Dealloc program"
      [release .clReleaseProgram .program, release .free .programContent,
        release .fclose .programFile] ++
    releaseGroup "Dealloc queues"
      (p.kernels.reverse.map fun k => release .clReleaseCommandQueue (.queue k.kernel.ident)) ++
    releaseGroup "Last OpenCL variables"
      [release .clReleaseContext .context, release .free .devices, release .free .platforms] ++
    hookCall p .cleanup ++
    releaseGroup "Dealloc variables" ((heap p).reverse.map (release .free)) ++
    [.blank, .leave (.var .exitCode)]

end KernelHost.Host
