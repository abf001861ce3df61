/-
  What the program prints.
-/
import ClassRecovery.Session

namespace ClassRecovery.CommandLine

/-! ## The journal -/

/-- The least important level that is shown, if any is. -/
abbrev Threshold := Option Level

/-- What is shown when asked for more so many times. -/
def Threshold.ofVerbosity : Nat → Threshold
  | 0 => some .warn
  | 1 => some .info
  | 2 => some .debug
  | _ => some .trace

/-- The threshold that a text names, by name or by number.  The empty text leaves the errors, an
unknown one nothing. -/
def Threshold.ofText (text : String) : Threshold :=
  match lowerAscii text with
  | "" | "1" | "error" => some .error
  | "2" | "warn" => some .warn
  | "3" | "info" => some .info
  | "4" | "debug" => some .debug
  | "5" | "trace" => some .trace
  | _ => none

/-- Whether events of a level are shown. -/
def Threshold.shows (t : Threshold) (level : Level) : Bool := t.any fun l => level.rank ≤ l.rank

/-- The lines of the journal that are shown. -/
def journalLines (t : Threshold) (events : List Event) : List String :=
  (events.filter fun e => t.shows e.level).map Event.text

/-! ## Answers -/

/-- One line of an answer. -/
def line (text : String) : String := text ++ "\n"

/-- Lines of an answer with an empty line before them, if there are any. -/
def paragraph (lines : List String) : String :=
  if lines.isEmpty then "" else line "" ++ String.join (lines.map line)

/-- The numbers of a report. -/
def countLines (r : AnalysisReport) : List String :=
  [("Classes:", r.classes), ("Layouts built:", r.classesLaidOut),
    ("Attributed:", r.classesAttributed), ("Rejected:", r.classesRejected),
    ("Skipped:", r.classesSkipped), ("Functions committed:", r.functionsCommitted),
    ("Cast overrides:", r.castOverrides)].map fun (name, n) => padRight 21 name ++ toString n

/-- A recorded function. -/
def functionLine (m : ClassModel) (f : AttributedFunction) : String :=
  hexEight f.function ++ "  " ++ f.role.name ++ " of " ++ (m.get? f.owner).elim "?" (·.name)

/-- A call with a prototype of its own. -/
def overrideLine (o : CallSiteOverride) : String :=
  hexEight o.callSite ++ "  " ++ o.prototype.text

/-- The summary of a run. -/
def summary (s : Session) (r : AnalysisReport) : String :=
  let failures := r.layoutFailures.map fun f =>
    "layout failed for " ++ hex f.1 ++ ": " ++ f.2.message
  String.join
      ((countLines r ++ (if r.cancelled then ["(cancelled)"] else []) ++ failures).map line) ++
    paragraph (s.model.attributedFunctions.map (functionLine s.model)) ++
    paragraph (s.store.overrides.values.map overrideLine)

/-- A row of the list of classes. -/
def classRow (id name vtable bases : String) : String :=
  padRight 18 id ++ " " ++ padRight 24 name ++ " " ++ padRight 18 vtable ++ " " ++ bases

/-- A direct base in the list of classes. -/
def baseText (m : ClassModel) (b : BaseSpec) : String :=
  (if b.isVirtual then "virtual " else "") ++ (m.get? b.base).elim (hex b.base) (·.name)

/-- The list of classes. -/
def classList (m : ClassModel) : String :=
  let row (c : ClassType) : String :=
    classRow (hex c.id) c.name (c.vtable.elim "-" fun v => hex v.address)
      (", ".intercalate (c.bases.map (baseText m)))
  String.join ((classRow "ID" "NAME" "VTABLE" "BASES" :: m.classes.values.map row).map line)

end ClassRecovery.CommandLine
