/-
**Histories of a compiler.**

A compiler is asked to compile, and its cache is emptied now and then, of what is in memory or of
everything.  A history is the list of these steps.

Main definitions:

* `CompilerStep` — the steps;
* `Compiler.afterStep` — the compiler after one step;
* `Compiler.answers` — the answers to the jobs of a history, in order;
* `CompilerStep.jobs` — the jobs of a history, in order.

Main results:

* `Compiler.maxDepth_afterStep` — no step changes the limit of nesting.
-/

import Shaderworks.Proofs.Bytecode.Outcome

set_option autoImplicit false

namespace Shaderworks

/-- A step in the life of a compiler. -/
inductive CompilerStep where
  /-- It is asked to compile a job. -/
  | compile (job : CompileJob)
  /-- Its cache drops what is in memory. -/
  | evict
  /-- Its cache is emptied. -/
  | clear

/-- The jobs of a history, in order. -/
def CompilerStep.jobs : List CompilerStep → List CompileJob
  | [] => []
  | .compile job :: steps => job :: jobs steps
  | _ :: steps => jobs steps

namespace Compiler

/-- The compiler after one step. -/
def afterStep (tools : Toolchain) (c : Compiler) : CompilerStep → Compiler
  | .compile job => (c.compile tools job).2
  | .evict => { c with cache := c.cache.evict }
  | .clear => { c with cache := c.cache.clear }

/-- The answers to the jobs of a history, in order. -/
def answers (tools : Toolchain) : Compiler → List CompilerStep → List (Except Failure Artifact)
  | _, [] => []
  | c, .compile job :: steps =>
      (c.compile tools job).1 :: answers tools (c.compile tools job).2 steps
  | c, step :: steps => answers tools (c.afterStep tools step) steps

/-- No step changes the limit of nesting. -/
theorem maxDepth_afterStep (tools : Toolchain) (c : Compiler) (step : CompilerStep) :
    (c.afterStep tools step).maxDepth = c.maxDepth := by
  cases step with
  | compile job => exact maxDepth_compile tools c job
  | evict => rfl
  | clear => rfl

end Compiler

end Shaderworks
