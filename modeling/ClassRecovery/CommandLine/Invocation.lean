/-
  What the program is asked to do.
-/
import ClassRecovery.Abi
import ClassRecovery.CommandLine.Command

namespace ClassRecovery.CommandLine

/-- The changes that arguments make to the settings. -/
structure Overrides where
  /-- The file with the settings, in place of those of the snapshot. -/
  config : Option String := none
  abi : Option Abi := none
  arch : Option Architecture := none
  pointerSize : Option Word := none
  noDynamicCast : Bool := false
  anyOrder : Bool := false
  deriving DecidableEq, Repr

/-- What is to be done with a snapshot. -/
inductive Task where
  /-- Run all passes and print a summary, or the whole report as JSON; perhaps also store the layouts. -/
  | analyze (asJson : Bool) (typesOut : Option String)
  /-- Print the layout of one class. -/
  | layout (className : String)
  /-- List the classes. -/
  | classes
  deriving DecidableEq, Repr

/-- A run of the program. -/
structure Invocation where
  task : Task
  /-- The file with the snapshot. -/
  snapshot : String
  overrides : Overrides := {}
  /-- How much is to be told about the course of the analysis. -/
  verbosity : Nat := 0
  deriving DecidableEq, Repr

/-- What help is asked for. -/
inductive Topic where
  | program
  | command (name : CommandName)
  /-- The word that asks for help. -/
  | help
  deriving DecidableEq, Repr

/-- Why the arguments ask for no run. -/
inductive Stop where
  | usage
  | help (topic : Topic)
  | version
  deriving DecidableEq, Repr

/-- The exit code for arguments that ask for no run. -/
def Stop.code : Stop → UInt32
  | usage => 2
  | help _ | version => 0

/-! ## Values -/

/-- A number: decimal digits, perhaps behind a plus sign, that form a word. -/
def wordOfText? (text : String) : Option Word :=
  let digits := match text.toList with
    | '+' :: rest => rest
    | cs => cs
  if digits.isEmpty || !digits.all fun c => '0' ≤ c && c ≤ '9' then none
  else
    let n := digits.foldl (fun n c => n * 10 + (c.toNat - 48)) 0
    if n < UInt64.size then some (UInt64.ofNat n) else none

/-- A path, which is not empty. -/
def pathOfText? (text : String) : Option String := if text.isEmpty then none else some text

/-- What the arguments of a command have said so far. -/
structure Draft where
  overrides : Overrides := {}
  asJson : Bool := false
  typesOut : Option String := none
  positionals : List String := []
  verbosity : Option Nat := none
  deriving DecidableEq, Repr

namespace Draft

/-- Sets a value that may be given once, if it is a valid one. -/
def once {α : Type} (old : Option α) (new : Option α) : Except Stop (Option α) :=
  match old, new with
  | none, some v => .ok (some v)
  | _, _ => .error .usage

/-- Sets a switch that may be given once. -/
def switch (old : Bool) : Except Stop Bool := if old then .error .usage else .ok true

/-- Takes in one more thing that the arguments say. -/
def take (command : CommandName) (d : Draft) : Item → Except Stop Draft
  | .flag .help => .error (.help (.command command))
  | .flag .verbose => .ok { d with verbosity := some (d.verbosity.getD 0 + 1) }
  | .flag .json => do return { d with asJson := ← switch d.asJson }
  | .flag .noDynamicCast => do
    let noDynamicCast ← switch d.overrides.noDynamicCast
    return { d with overrides := { d.overrides with noDynamicCast } }
  | .flag .anyOrder => do
    let anyOrder ← switch d.overrides.anyOrder
    return { d with overrides := { d.overrides with anyOrder } }
  | .value .config text => do
    let config ← once d.overrides.config (pathOfText? text)
    return { d with overrides := { d.overrides with config } }
  | .value .abi text => do
    let abi ← once d.overrides.abi (Abi.ofName? text)
    return { d with overrides := { d.overrides with abi } }
  | .value .arch text => do
    let arch ← once d.overrides.arch (architectureNames.lookup text)
    return { d with overrides := { d.overrides with arch } }
  | .value .pointerSize text => do
    let pointerSize ← once d.overrides.pointerSize (wordOfText? text)
    return { d with overrides := { d.overrides with pointerSize } }
  | .value .typesOut text => do
    return { d with typesOut := ← once d.typesOut (pathOfText? text) }
  | .positional text =>
    let known := d.positionals.length
    if known < command.arity && (known != 0 || !text.isEmpty) then
      .ok { d with positionals := d.positionals ++ [text] }
    else .error .usage
  | _ => .error .usage

/-- The ABI that the environment names, where no argument does. -/
def withEnvironment (abi : Option String) (d : Draft) : Except Stop Draft :=
  match d.overrides.abi, abi with
  | none, some text =>
    match Abi.ofName? text with
    | some abi => .ok { d with overrides := { d.overrides with abi := some abi } }
    | none => .error .usage
  | _, _ => .ok d

/-- The run that a complete draft asks for.  `verbosity` is what was said before the command. -/
def finish (command : CommandName) (verbosity : Nat) (d : Draft) : Except Stop Invocation :=
  let run (snapshot : String) (task : Task) : Except Stop Invocation :=
    .ok ⟨task, snapshot, d.overrides, d.verbosity.getD verbosity⟩
  match command, d.positionals with
  | .analyze, [snapshot] => run snapshot (.analyze d.asJson d.typesOut)
  | .layout, [snapshot, className] => run snapshot (.layout className)
  | .classes, [snapshot] => run snapshot .classes
  | _, _ => .error .usage

end Draft

/-! ## Arguments -/

/-- The ABI named by the environment, and the arguments of the program. -/
structure Arguments where
  abi : Option String := none
  arguments : List String

/-- The run that the arguments behind the name of a command ask for. -/
def Invocation.ofCommand (command : CommandName) (verbosity : Nat) (args : Arguments) :
    Except Stop Invocation := do
  let items := readArguments command.forms none args.arguments
  let d ← items.foldlM (Draft.take command) {}
  let d ← d.withEnvironment args.abi
  d.finish command verbosity

/-- How often the arguments before the command ask for more to be told. -/
def countVerbose (verbosity : Nat) : List Item → Except Stop Nat
  | [] => .ok verbosity
  | .flag .verbose :: rest => countVerbose (verbosity + 1) rest
  | .flag .help :: _ => .error (.help .program)
  | .flag .version :: _ => .error .version
  | _ => .error .usage

/-- What the arguments behind the word `help` come to. -/
def Stop.ofHelp : List String → Stop
  | [] => .help .program
  | ["help"] => .help .help
  | [name] => (CommandName.ofText? name).elim .usage fun c => .help (.command c)
  | _ => .usage

/-- The run that arguments ask for, after `verbosity` requests for more to be told. -/
def Invocation.ofArgumentsFrom (abi : Option String) :
    Nat → List String → Except Stop Invocation
  | _, [] => .error .usage
  | verbosity, arg :: rest =>
    if looksLikeOption arg then do
      let (items, _) := readOption programForms arg
      let verbosity ← countVerbose verbosity items
      Invocation.ofArgumentsFrom abi verbosity rest
    else match CommandName.ofText? arg with
      | some command => Invocation.ofCommand command verbosity ⟨abi, rest⟩
      | none => .error (if arg = "help" then Stop.ofHelp rest else .usage)

/-- The run that the arguments of the program ask for. -/
def Invocation.ofArguments (args : Arguments) : Except Stop Invocation :=
  Invocation.ofArgumentsFrom args.abi 0 args.arguments

end ClassRecovery.CommandLine
