/-
  Attributing the constructors and destructors of one class.

  Every candidate is matched, and what a matched candidate shows is recorded at once.  Before each candidate the
  run may be cancelled.  If a candidate was accepted by then, the class counts as attributed but
  interrupted, and the next run goes on with the candidates that were not looked at; otherwise
  the class is as if it had never been analysed.
-/
import ClassRecovery.Attribution.Matching
import ClassRecovery.Cancellation

namespace ClassRecovery

/-- What attributing a class gave. -/
structure ClassAttribution where
  owner : ClassId
  state : AttributionState := .notAnalyzed
  attributions : List Attribution := []
  /-- The candidates that did not fit, by address. -/
  rejections : List (Address × Rejection) := []
  /-- Why the class was not analysed. -/
  skipped : Option Rejection := none
  deriving DecidableEq

/-- The model and the work an analysis has come to. -/
structure AnalysisState where
  model : ClassModel
  work : Workload := {}

namespace ClassModel

/-- Sets the state of a class, with a journal. -/
def noteState (m : ClassModel) (id : ClassId) (state : AttributionState) : Noted ClassModel := do
  Noted.note (.stateSet id state)
  return m.setState id state

/-- Records functions one after the other. -/
def recordAll (m : ClassModel) : List AttributedFunction → Noted ClassModel
  | [] => pure m
  | f :: rest => do
    Noted.noteAll (m.recordEvents f)
    (m.record f).recordAll rest

end ClassModel

namespace Attributor

/-- Records what a matched candidate shows. -/
def commit (a : Attributor) (m : ClassModel) (found : Attribution) : Noted ClassModel :=
  m.recordAll (a.records found)

/-- One class being attributed. -/
structure ClassRun where
  id : ClassId
  table : BaseOffsetTable
  /-- Whether an earlier run was interrupted. -/
  resumed : Bool

/-- Matches a candidate and commits it if it fits: what the class gave so far, and the model. -/
def runCandidate (a : Attributor) (run : ClassRun) (candidate : Candidate)
    (outcome : ClassAttribution) (m : ClassModel) : Noted (ClassAttribution × ClassModel) := do
  let m := m.markAnalyzed run.id candidate.function
  match a.matchCandidate run.id run.table candidate with
  | .ok found =>
    let m ← a.commit m found
    return ({ outcome with attributions := outcome.attributions ++ [found] }, m)
  | .error e =>
    Noted.note (.candidateRejected run.id candidate.function e)
    return ({ outcome with rejections := outcome.rejections ++ [(candidate.function, e)] }, m)

/-- Goes through candidates, unless cancelled. -/
def runCandidates (a : Attributor) (policy : CancelPolicy) (run : ClassRun) :
    List Candidate → ClassAttribution → AnalysisState →
      Noted (Except AnalysisError ClassAttribution × AnalysisState)
  | [], outcome, s => do
    let state : AttributionState :=
      if run.resumed || !outcome.attributions.isEmpty then .attributed else .rejected
    let m ← (s.model.setInterrupted run.id false).noteState run.id state
    return (.ok { outcome with state }, { s with model := m })
  | candidate :: rest, outcome, s => do
    let work := s.work.checked
    if policy s.work then
      let committed := run.resumed || !outcome.attributions.isEmpty
      let m ← s.model.noteState run.id (if committed then .attributed else .notAnalyzed)
      return (.error .cancelled, ⟨m.setInterrupted run.id committed, work⟩)
    else if run.resumed && s.model.isAnalyzed run.id candidate.function then
      a.runCandidates policy run rest outcome ⟨s.model, work⟩
    else
      let (outcome, m) ← a.runCandidate run candidate outcome s.model
      let spent := if a.decompiles candidate then 1 else 0
      a.runCandidates policy run rest outcome
        ⟨m, { work with decompilations := work.decompilations + spent }⟩

/-- Attributes a class. -/
def attributeClass (a : Attributor) (policy : CancelPolicy) (id : ClassId) (s : AnalysisState) :
    Noted (Except AnalysisError ClassAttribution × AnalysisState) := do
  match s.model.checkAnalyzable id with
  | .error e =>
    Noted.note (.classNotAnalyzed id e)
    return (.ok { owner := id, skipped := some e }, s)
  | .ok () =>
    match ← s.model.noteOffsetTable id with
    | (.error e, m) =>
      Noted.note (.classSkipped id e)
      let m ← m.noteState id .rejected
      return (.ok { owner := id, state := .rejected, skipped := some (.structural e) },
        { s with model := m })
    | (.ok table, m) =>
      let candidates := (m.get? id).elim [] (a.program.candidates a.pointerSize)
      let run : ClassRun := ⟨id, table, m.isInterrupted id⟩
      let m ← m.noteState id .analyzing
      a.runCandidates policy run candidates { owner := id } { s with model := m }

end Attributor

end ClassRecovery
