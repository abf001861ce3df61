/-
  Attributors that see the same.

  Attribution looks at the functions of a program, at their bodies, and at the candidates of classes.  Where two
  programs agree on these, every class comes out the same (`Attributor.SeesSame.attributeClass`).
-/
import ClassRecovery.Session

namespace ClassRecovery

namespace Program

theorem followThunksWithin_congr {p p' : Program} (h : p'.functions = p.functions) :
    p'.followThunksWithin = p.followThunksWithin := by
  funext fuel
  induction fuel with
  | zero => rfl
  | succ fuel ih =>
    funext f
    simp only [followThunksWithin, functionAt?, h, ih]

theorem followThunks_congr {p p' : Program} (h : p'.functions = p.functions) :
    p'.followThunks = p.followThunks := by
  funext f
  rw [followThunks, followThunks, followThunksWithin_congr h, h]

theorem resolveThunkWithin_congr {p p' : Program} (h : p'.functions = p.functions) (fuel : Nat)
    (visited : List Address) :
    p'.resolveThunkWithin visited fuel = p.resolveThunkWithin visited fuel := by
  induction fuel generalizing visited with
  | zero => rfl
  | succ fuel ih =>
    funext address
    simp only [resolveThunkWithin, functionAt?, h, ih]

theorem resolveThunk_congr {p p' : Program} (h : p'.functions = p.functions) :
    p'.resolveThunk = p.resolveThunk := by
  funext address
  rw [resolveThunk, resolveThunk, resolveThunkWithin_congr h, h]

end Program

namespace Attributor

/-- The attributors have the same settings, and see the same functions, bodies and candidates. -/
structure SeesSame (a a' : Attributor) : Prop where
  config : a'.config = a.config
  pointerSize : a'.pointerSize = a.pointerSize
  functions : a'.program.functions = a.program.functions
  bodies : a'.program.bodies = a.program.bodies
  decompileFailures : a'.program.decompileFailures = a.program.decompileFailures
  candidates : a'.program.candidates a'.pointerSize = a.program.candidates a.pointerSize

namespace SeesSame

variable {a a' : Attributor} (h : a.SeesSame a')

include h

theorem matchCandidate : a'.matchCandidate = a.matchCandidate := by
  funext id table candidate
  simp only [Attributor.matchCandidate, matchBody, Program.functionAt?, Program.body, h.functions,
    h.bodies, h.decompileFailures, h.config, Program.resolveThunk_congr h.functions]

theorem runCandidate : a'.runCandidate = a.runCandidate := by
  funext run candidate outcome m
  simp only [Attributor.runCandidate, commit, records, h.matchCandidate, h.config]

theorem runCandidates (policy : CancelPolicy) (run : ClassRun) (candidates : List Candidate)
    (outcome : ClassAttribution) (s : AnalysisState) :
    a'.runCandidates policy run candidates outcome s = a.runCandidates policy run candidates outcome s := by
  induction candidates generalizing outcome s with
  | nil => rfl
  | cons candidate candidates ih =>
    simp only [Attributor.runCandidates, decompiles, Program.functionAt?, h.functions, h.runCandidate, ih]
    rfl

/-- **Every class comes out the same.** -/
theorem attributeClass : a'.attributeClass = a.attributeClass := by
  funext policy id s
  simp only [Attributor.attributeClass, h.candidates, h.runCandidates]

theorem attributeAll (policy : CancelPolicy) (ids : List ClassId) (report : AnalysisReport)
    (s : AnalysisState) :
    Session.attributeAll a' policy ids report s = Session.attributeAll a policy ids report s := by
  induction ids generalizing report s with
  | nil => rfl
  | cons id ids ih => simp only [Session.attributeAll, h.attributeClass, ih]

end SeesSame

end Attributor

end ClassRecovery
