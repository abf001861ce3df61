/-
  Sessions: all passes over one program.

  A run lays out every class, attributes constructors and destructors, and gives the calls of the
  dynamic-cast routine their prototypes.  What a run finds stays in the session; a later run goes on from
  there, so a cancelled run can be taken up again.
-/
import ClassRecovery.DynamicCast
import ClassRecovery.Model.Discovery
import ClassRecovery.Model.Layouts

namespace ClassRecovery

/-- What a run gave. -/
structure AnalysisReport where
  classes : Nat
  classesLaidOut : Nat := 0
  /-- The classes without a layout, with the reason. -/
  layoutFailures : List (ClassId × ModelError) := []
  classesAttributed : Nat := 0
  classesRejected : Nat := 0
  /-- The classes that cannot be analysed. -/
  classesSkipped : Nat := 0
  /-- The functions that are recorded, those of bases included. -/
  functionsCommitted : Nat := 0
  attributions : List ClassAttribution := []
  dynamicCast : Option CastReport := none
  cancelled : Bool := false

namespace AnalysisReport

/-- The number of calls that got a prototype. -/
def castOverrides (r : AnalysisReport) : Nat := r.dynamicCast.elim 0 (·.overridden.length)

/-- The report with the outcome of one more class. -/
def addAttribution (r : AnalysisReport) (a : ClassAttribution) : AnalysisReport :=
  let r := { r with attributions := r.attributions ++ [a] }
  match a.state with
  | .attributed => { r with classesAttributed := r.classesAttributed + 1 }
  | .rejected => { r with classesRejected := r.classesRejected + 1 }
  | .notAnalyzed | .analyzing =>
    if a.skipped.isSome then { r with classesSkipped := r.classesSkipped + 1 } else r

end AnalysisReport

/-- A program with its settings, and what the runs so far found. -/
structure Session where
  config : AnalysisConfig
  program : Program
  model : ClassModel
  store : OverrideStore := {}

/-- How a pass over the classes ended: to the end, or by cancelling. -/
inductive PassEnd where
  | finished
  | cancelled
  deriving DecidableEq, Repr

namespace Session

/-- The session for a snapshot.  Settings that are stored with the snapshot win over those given. -/
def ofSnapshot (snapshot : ProgramSnapshot) (config : AnalysisConfig) :
    Except DiscoveryError (Noted Session) := do
  let config := snapshot.config.getD config
  let program := Program.ofSnapshot snapshot
  let discovered ← program.discoverClasses config
  return do
    let model ← discovered
    return { config, program, model }

/-- Lays out classes one after the other, unless cancelled. -/
def layOutAll (policy : CancelPolicy) :
    List ClassId → AnalysisReport → AnalysisState → Noted (PassEnd × AnalysisReport × AnalysisState)
  | [], report, s => return (.finished, report, s)
  | id :: rest, report, s => do
    let work := s.work.checked
    if policy s.work then return (.cancelled, report, { s with work })
    else
      match ← s.model.buildLayout id with
      | (.ok _, m) =>
        layOutAll policy rest { report with classesLaidOut := report.classesLaidOut + 1 } ⟨m, work⟩
      | (.error e, m) =>
        Noted.note (.layoutFailed id e)
        layOutAll policy rest
          { report with layoutFailures := report.layoutFailures ++ [(id, e)] } ⟨m, work⟩

/-- Attributes the classes that need it one after the other, unless cancelled. -/
def attributeAll (a : Attributor) (policy : CancelPolicy) :
    List ClassId → AnalysisReport → AnalysisState → Noted (PassEnd × AnalysisReport × AnalysisState)
  | [], report, s => return (.finished, report, s)
  | id :: rest, report, s => do
    let work := s.work.checked
    if policy s.work then return (.cancelled, report, { s with work })
    else if !s.model.needsAttribution id then attributeAll a policy rest report { s with work }
    else
      match ← a.attributeClass policy id { s with work } with
      | (.error _, s) => return (.cancelled, report, s)
      | (.ok outcome, s) => attributeAll a policy rest (report.addAttribution outcome) s

/-- The part of the program that attribution looks at. -/
def attributor (s : Session) : Attributor :=
  ⟨s.program, s.config.attribution, s.config.pointerSize⟩

/-- Lays out and attributes all classes, unless cancelled. -/
def runClasses (s : Session) (policy : CancelPolicy) :
    Noted (PassEnd × AnalysisReport × AnalysisState) := do
  let ids := s.model.ids
  match ← layOutAll policy ids { classes := s.model.size } { model := s.model } with
  | (.cancelled, report, state) => return (.cancelled, report, state)
  | (.finished, report, state) => attributeAll s.attributor policy ids report state

/-- Runs the pass over the calls of the dynamic-cast routine, if the settings ask for it. -/
def runCasts (s : Session) (policy : CancelPolicy) (work : Workload) (report : AnalysisReport) :
    Noted (Except AnalysisError AnalysisReport × Session) := do
  if s.config.dynamicCast.enabled then
    let resolver : CastResolver := ⟨s.program, s.program.dataflow, s.model, s.config⟩
    match ← resolver.run policy ⟨s.store, work⟩ with
    | (.error e, _) => return (.error e, s)
    | (.ok cast, state) =>
      return (.ok { report with dynamicCast := some cast, cancelled := cast.cancelled },
        { s with store := state.store })
  else return (.ok report, s)

/-- Runs all passes: the report, and the session with what was found. -/
def run (s : Session) (policy : CancelPolicy) :
    Noted (Except AnalysisError AnalysisReport × Session) := do
  let (stop, report, state) ← s.runClasses policy
  let s := { s with model := state.model }
  let report := { report with functionsCommitted := s.model.attributed.size }
  match stop with
  | .cancelled =>
    Noted.note .cancelled
    return (.ok { report with cancelled := true }, s)
  | .finished =>
    match ← s.runCasts policy state.work report with
    | (.error e, s) => return (.error e, s)
    | (.ok report, s) =>
      Noted.note (.finished report.classes report.classesLaidOut report.classesAttributed
        report.classesRejected report.castOverrides report.cancelled)
      return (.ok report, s)

end Session

end ClassRecovery
