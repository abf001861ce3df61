/-
  What is printed for arguments that ask for no run: help, the version, or a hint.

  The help of a topic has a paragraph each for its purpose, its usage, and every kind of thing
  that may stand in the arguments.
-/
import ClassRecovery.CommandLine.Invocation
import ClassRecovery.Text.Hex

namespace ClassRecovery.CommandLine

/-- How an option is listed. -/
def OptionForm.heading (f : OptionForm) : String :=
  (f.letter.elim "    " fun c => "-" ++ c.toString ++ ", ") ++ "--" ++ f.long ++
    (f.valueName.elim "" fun v => " <" ++ v ++ ">") ++ (if f.repeats then "..." else "")

/-- A list of things, the purpose of each beside it. -/
def listBeside (title : String) (entries : List (String × String)) : List String :=
  let width := entries.foldl (fun w e => max w e.1.length) 0
  (title ++ ":") :: entries.map fun (heading, purpose) =>
    "  " ++ padRight width heading ++ "  " ++ purpose

/-- A list of things, the purpose of each below it. -/
def listBelow (title : String) (entries : List (String × String)) : List String :=
  (title ++ ":") :: entries.flatMap fun (heading, purpose) =>
    ["  " ++ heading, "          " ++ purpose]

/-- Paragraphs of lines, with an empty line between two of them. -/
def paragraphs (blocks : List (List String)) : String :=
  "\n".intercalate (blocks.map fun lines => String.join (lines.map (· ++ "\n")))

namespace Topic

/-- What the things that a topic is about are for. -/
def purpose : Topic → String
  | program => "Reconstructs C++ class models from program snapshots"
  | command c => c.purpose
  | help => "Print this message or the help of the given subcommand(s)"

/-- How the arguments are put together. -/
def usage : Topic → String
  | program => "Usage: cxxray [OPTIONS] <COMMAND>"
  | command c =>
    " ".intercalate (("Usage: cxxray " ++ c.text ++ " [OPTIONS]") :: c.positionals.map (·.1))
  | help => "Usage: cxxray help [COMMAND]..."

/-- What may stand in the arguments.  `abi` is the ABI that the environment names. -/
def lists (abi : Option String) : Topic → List (List String)
  | program =>
    [listBeside "Commands"
        (CommandName.all.map (fun c => (c.text, c.purpose)) ++ [("help", Topic.help.purpose)]),
      listBeside "Options" (programForms.map fun f => (f.heading, f.purpose))]
  | command c =>
    let note (f : OptionForm) : String :=
      if f.option = .abi then " [env: CXXRAY_ABI=" ++ abi.getD "" ++ "]" else ""
    [listBeside "Arguments" c.positionals,
      listBelow "Options" (c.forms.map fun f => (f.heading, f.purpose ++ note f))]
  | help => [listBeside "Arguments" [("[COMMAND]...", "Print help for the subcommand(s)")]]

/-- The help for a topic. -/
def text (abi : Option String) (t : Topic) : String :=
  paragraphs ([t.purpose] :: [t.usage] :: t.lists abi)

end Topic

/-- The answer to arguments that ask for no run.  `abi` is the ABI that the environment names. -/
def Stop.text (abi : Option String) : Stop → String
  | version => "cxxray 0.1.0\n"
  | help topic => topic.text abi
  | usage => paragraphs [[Topic.program.usage], ["For more information, try '--help'."]]

end ClassRecovery.CommandLine
