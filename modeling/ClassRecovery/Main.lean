/-
  The program: reads the files an invocation names, runs it, and prints what it gives.
-/
import ClassRecovery.CommandLine.Help
import ClassRecovery.CommandLine.Run

namespace ClassRecovery.CommandLine

/-- The content of a file, if it can be read as text. -/
def readText (path : String) : IO (Option String) := do
  match ← (IO.FS.readFile path).toBaseIO with
  | .ok text => return some text
  | .error _ => return none

/-- Writes a file: whether that succeeds. -/
def writeText (w : FileWrite) : IO Bool := do
  match ← (IO.FS.writeFile w.path w.text).toBaseIO with
  | .ok _ => return true
  | .error _ => return false

/-- Reports a failure. -/
def fail (f : Failure) : IO UInt32 := do
  IO.eprintln f.text
  return f.code

/-- Carries out what a run comes to. -/
def finish (outcome : Outcome) : IO UInt32 := do
  match outcome.write with
  | some w => if !(← writeText w) then return ← fail w.failure
  | none => pure ()
  match outcome.answer with
  | .ok text =>
    IO.print text
    return 0
  | .error f => fail f

/-- Runs an invocation. -/
def execute (i : Invocation) : IO UInt32 := do
  let contents ← i.paths.mapM fun path => return (path, ← readText path)
  let noted := i.run fun path => (contents.lookup path).join
  let threshold := i.threshold (← IO.getEnv "RUST_LOG")
  for text in journalLines threshold noted.events do
    IO.eprintln text
  finish noted.value

end ClassRecovery.CommandLine

open ClassRecovery.CommandLine in
/-- The entry point. -/
def main (arguments : List String) : IO UInt32 := do
  let abi ← IO.getEnv "CXXRAY_ABI"
  match Invocation.ofArguments ⟨abi, arguments⟩ with
  | .ok invocation => execute invocation
  | .error stop =>
    if stop.code = 0 then IO.print (stop.text abi) else IO.eprint (stop.text abi)
    return stop.code
