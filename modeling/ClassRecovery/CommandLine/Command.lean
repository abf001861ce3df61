/-
  The commands, and which options and arguments each of them takes.
-/
import ClassRecovery.Architecture
import ClassRecovery.CommandLine.Option

namespace ClassRecovery.CommandLine

inductive CommandName where
  | analyze
  | layout
  | classes
  deriving DecidableEq, Repr

/-- The architectures as arguments name them. -/
def architectureNames : List (String × Architecture) :=
  [("x86-64", .x86_64), ("x86", .x86), ("arm64", .arm64), ("riscv64", .riscV64),
    ("mips32", .mips32)]

/-! ## Options -/

namespace OptionForm

def verbose : OptionForm :=
  { option := .verbose, long := "verbose", letter := some 'v', repeats := true
    purpose := "Increase log verbosity (-v info, -vv debug, -vvv trace)" }

def help : OptionForm :=
  { option := .help, long := "help", letter := some 'h', purpose := "Print help" }

def version : OptionForm :=
  { option := .version, long := "version", letter := some 'V', purpose := "Print version" }

def config : OptionForm :=
  { option := .config, long := "config", letter := some 'c', valueName := some "CONFIG"
    purpose := "JSON analysis configuration, replacing the one in the snapshot" }

def abi : OptionForm :=
  { option := .abi, long := "abi", valueName := some "ABI"
    purpose := "C++ ABI variant (itanium, msvc)" }

def arch : OptionForm :=
  { option := .arch, long := "arch", valueName := some "ARCH"
    purpose := "Target architecture [possible values: " ++
      ", ".intercalate (architectureNames.map (·.1)) ++ "]" }

def pointerSize : OptionForm :=
  { option := .pointerSize, long := "pointer-size", valueName := some "POINTER_SIZE"
    purpose := "Pointer size in bytes" }

def noDynamicCast : OptionForm :=
  { option := .noDynamicCast, long := "no-dynamic-cast", purpose := "Skip the dynamic-cast pass" }

def anyOrder : OptionForm :=
  { option := .anyOrder, long := "any-order", purpose := "Accept base calls in any order" }

def json : OptionForm :=
  { option := .json, long := "json", purpose := "Print the full report as JSON" }

def typesOut : OptionForm :=
  { option := .typesOut, long := "types-out", valueName := some "TYPES_OUT"
    purpose := "Write every reconstructed layout to this JSON file" }

end OptionForm

/-- The options that may stand before a command. -/
def programForms : List OptionForm := [.verbose, .help, .version]

/-! ## Commands -/

namespace CommandName

def all : List CommandName := [analyze, layout, classes]

def text : CommandName → String
  | analyze => "analyze"
  | layout => "layout"
  | classes => "classes"

def ofText? (text : String) : Option CommandName := all.find? fun c => c.text == text

def purpose : CommandName → String
  | analyze => "Run layout synthesis, attribution and dynamic-cast recovery"
  | layout => "Print the reconstructed layout of one class"
  | classes => "List the classes found in a snapshot"

/-- The positional arguments of a command, and what they are for. -/
def positionals : CommandName → List (String × String)
  | analyze | classes => [("<SNAPSHOT>", "Path to the JSON program snapshot")]
  | layout => [("<SNAPSHOT>", "Path to the JSON program snapshot"), ("<CLASS>", "Class name")]

/-- How many positional arguments a command takes. -/
def arity (c : CommandName) : Nat := c.positionals.length

/-- The options of a command, in the order of its help. -/
def forms (c : CommandName) : List OptionForm :=
  [.config, .verbose, .abi, .arch, .pointerSize, .noDynamicCast, .anyOrder] ++
    (if c = analyze then [.json, .typesOut] else []) ++ [.help]

end CommandName

end ClassRecovery.CommandLine
