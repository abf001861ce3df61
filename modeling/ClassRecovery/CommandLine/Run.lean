/-
  A run of the program, as a function of the files it reads.

  A run tells about its course, may ask for one file to be written, and ends with an answer or a failure.
  The file is written before the answer is given; if it cannot be written, the run fails.
-/
import ClassRecovery.Archive.Report
import ClassRecovery.CommandLine.Invocation
import ClassRecovery.CommandLine.Output
import ClassRecovery.Json.Printer

namespace ClassRecovery.CommandLine

/-- Why a run fails. -/
inductive Failure where
  /-- The run ends with a message. -/
  | reported (what : String) (cause : Option String)
  /-- The run is aborted. -/
  | aborted
  deriving DecidableEq, Repr

namespace Failure

/-- The text of a failure. -/
def text : Failure → String
  | reported what cause =>
    let indent (text : String) : String :=
      "\n".intercalate ((text.splitOn "\n").map fun l => "    " ++ l)
    "Error: " ++ what ++ cause.elim "" fun cause => "\n\nCaused by:\n" ++ indent cause
  | aborted => "aborted"

/-- The exit code. -/
def code : Failure → UInt32
  | reported _ _ => 1
  | aborted => 101

end Failure

/-- A file to be written. -/
structure FileWrite where
  path : String
  text : String
  deriving DecidableEq, Repr

/-- That a file cannot be written. -/
def FileWrite.failure (w : FileWrite) : Failure :=
  .reported ("Failed to write types: " ++ w.path) none

/-- What a run comes to, apart from the journal. -/
structure Outcome where
  write : Option FileWrite := none
  answer : Except Failure String

/-- The content of a file, if it can be read as text. -/
abbrev Files := String → Option String

namespace Overrides

/-- The settings with the changes that arguments make.  An architecture also sets the pointer size. -/
def apply (o : Overrides) (c : AnalysisConfig) : AnalysisConfig :=
  let c := o.arch.elim c fun arch => { c with arch, pointerSize := arch.pointerSize }
  let c := o.abi.elim c fun abi => { c with abi }
  let c := o.pointerSize.elim c fun pointerSize => { c with pointerSize }
  let c := if o.noDynamicCast then
    { c with dynamicCast := { c.dynamicCast with enabled := false } } else c
  if o.anyOrder then { c with attribution := { c.attribution with enforceOrder := false } } else c

end Overrides

namespace Invocation

/-- Reads a file of the given kind. -/
def readFile {α : Type} (files : Files) (kind path : String) (read : String → Option α) :
    Except Failure α :=
  match files path with
  | none => .error (.reported ("Failed to read " ++ kind ++ ": " ++ path) none)
  | some text =>
    match read text with
    | none => .error (.reported ("Failed to parse " ++ kind ++ ": " ++ path) none)
    | some a => .ok a

/-- The snapshot, and the settings in effect. -/
def load (i : Invocation) (files : Files) : Except Failure (ProgramSnapshot × AnalysisConfig) := do
  let snapshot ← readFile files "snapshot" i.snapshot ProgramSnapshot.ofText?
  let config ← match i.overrides.config with
    | some path => readFile files "config" path AnalysisConfig.ofText?
    | none => .ok (snapshot.config.getD {})
  return ({ snapshot with config := none }, i.overrides.apply config)

/-- The session for the snapshot. -/
def session (i : Invocation) (files : Files) : Noted (Except Failure Session) := do
  match i.load files with
  | .error f => return .error f
  | .ok (snapshot, config) =>
    Noted.note (.effectiveConfig config)
    match Session.ofSnapshot snapshot config with
    | .error (.target e) =>
      return .error (.reported "Failed to build class model" (some e.message))
    | .error .sectionOutOfRange => return .error .aborted
    | .ok session => return .ok (← session)

/-- Runs all passes to the end. -/
def analyze (s : Session) : Noted (Except Failure AnalysisReport × Session) := do
  let (report, s) ← s.run .never
  return (report.mapError fun e => .reported "Analysis failed" (some e.message), s)

/-- Does the task with a session. -/
def perform (task : Task) (s : Session) : Noted Outcome := do
  match task with
  | .analyze asJson typesOut =>
    match ← analyze s with
    | (.error f, _) => return { answer := .error f }
    | (.ok report, s) =>
      return {
        write := typesOut.map fun path => ⟨path, s.model.types.toJson.pretty⟩
        answer := .ok (if asJson then line report.toJson.pretty else summary s report) }
  | .layout className =>
    if (s.model.named? className).isNone then
      return { answer := .error (.reported ("Class not found: " ++ className) none) }
    else match ← analyze s with
      | (.error f, _) => return { answer := .error f }
      | (.ok _, s) =>
        match s.model.types.text? className with
        | some text => return { answer := .ok (line text) }
        | none =>
          return { answer := .error (.reported ("No layout could be built for " ++ className) none) }
  | .classes => return { answer := .ok (classList s.model) }

/-- The files that are read. -/
def paths (i : Invocation) : List String := i.snapshot :: i.overrides.config.toList

/-- The whole run. -/
def run (i : Invocation) (files : Files) : Noted Outcome := do
  match ← i.session files with
  | .error f => return { answer := .error f }
  | .ok session => perform i.task session

/-- What of the journal is shown: as the environment says, or else as the arguments do. -/
def threshold (i : Invocation) (log : Option String) : Threshold :=
  log.elim (.ofVerbosity i.verbosity) .ofText

end Invocation

end ClassRecovery.CommandLine
