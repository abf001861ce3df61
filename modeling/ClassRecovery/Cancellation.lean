/-
  Cancelling an analysis.

  An analysis asks at certain points whether it is to stop.  The answer may depend on the work done so
  far: on how often it asked, and on how often it used the program's decompiler and its dataflow.
-/

namespace ClassRecovery

/-- The work an analysis has done. -/
structure Workload where
  /-- How often it asked whether to stop. -/
  checks : Nat := 0
  /-- How many functions were decompiled. -/
  decompilations : Nat := 0
  /-- How many registers were asked for. -/
  queries : Nat := 0
  deriving DecidableEq, Repr

namespace Workload

/-- The work after one more check. -/
def checked (w : Workload) : Workload := { w with checks := w.checks + 1 }

end Workload

/-- When an analysis is to stop. -/
abbrev CancelPolicy := Workload → Bool

namespace CancelPolicy

/-- Going on to the end. -/
def never : CancelPolicy := fun _ => false

/-- Stopping at the first check. -/
def always : CancelPolicy := fun _ => true

end CancelPolicy

end ClassRecovery
