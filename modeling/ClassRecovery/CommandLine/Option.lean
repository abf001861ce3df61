/-
  Command-line arguments as options and positional arguments.

  An option has a long name, after two dashes, and perhaps a letter, after one.  The value of an option is the
  next argument, or stands in the same argument: behind an equals sign, or right behind the letter.
  Letters of options without a value may be joined.  Behind two dashes alone there are no more options.
-/

namespace ClassRecovery.CommandLine

/-- The options there are. -/
inductive OptionName where
  | abi
  | anyOrder
  | arch
  | config
  | help
  | json
  | noDynamicCast
  | pointerSize
  | typesOut
  | verbose
  | version
  deriving DecidableEq, Repr

/-- How an option is written, and what it is for. -/
structure OptionForm where
  option : OptionName
  long : String
  letter : Option Char := none
  /-- What its value is called, if it takes one. -/
  valueName : Option String := none
  /-- Whether giving it again asks for more. -/
  repeats : Bool := false
  purpose : String

/-- Whether an option takes a value. -/
def OptionForm.takesValue (f : OptionForm) : Bool := f.valueName.isSome

/-- One thing that the arguments say. -/
inductive Item where
  | flag (option : OptionName)
  | value (option : OptionName) (text : String)
  | positional (text : String)
  /-- An argument that is no option here, or an option with a value missing or too many. -/
  | malformed
  deriving DecidableEq, Repr

/-- What an argument says, and the option that takes the next argument as its value. -/
abbrev Reading := List Item × Option OptionName

/-- Whether an argument is an option, if options are read. -/
def looksLikeOption (arg : String) : Bool :=
  match arg.toList with
  | '-' :: _ :: _ => true
  | _ => false

/-- The parts of a text before and behind the first equals sign. -/
def splitEquals : List Char → List Char × Option (List Char)
  | [] => ([], none)
  | c :: rest =>
    if c = '=' then ([], some rest)
    else
      let (key, value) := splitEquals rest
      (c :: key, value)

/-- Reads a long option, its dashes left out. -/
def readLong (forms : List OptionForm) (text : List Char) : Reading :=
  let (name, value) := splitEquals text
  match forms.find? (fun f => f.long == String.ofList name), value with
  | none, _ => ([.malformed], none)
  | some f, none => if f.takesValue then ([], some f.option) else ([.flag f.option], none)
  | some f, some v =>
    (if f.takesValue then [.value f.option (String.ofList v)] else [.malformed], none)

/-- Reads joined letters. -/
def readLetters (forms : List OptionForm) : List Char → Reading
  | [] => ([], none)
  | c :: rest =>
    match forms.find? fun f => f.letter == some c with
    | none => ([.malformed], none)
    | some f =>
      if f.takesValue then
        match rest with
        | [] => ([], some f.option)
        | '=' :: v => ([.value f.option (String.ofList v)], none)
        | v => ([.value f.option (String.ofList v)], none)
      else
        let (items, waiting) := readLetters forms rest
        (.flag f.option :: items, waiting)

/-- Reads an argument that looks like an option. -/
def readOption (forms : List OptionForm) (arg : String) : Reading :=
  match arg.toList with
  | '-' :: '-' :: name => readLong forms name
  | '-' :: letters => readLetters forms letters
  | _ => ([.positional arg], none)

/-- Reads all arguments, the first as the value of the option that waits for one, if any. -/
def readArguments (forms : List OptionForm) : Option OptionName → List String → List Item
  | none, [] => []
  | some _, [] => [.malformed]
  | some option, arg :: rest =>
    if looksLikeOption arg then [.malformed]
    else .value option arg :: readArguments forms none rest
  | none, arg :: rest =>
    if arg = "--" then rest.map .positional
    else if looksLikeOption arg then
      let (items, waiting) := readOption forms arg
      items ++ readArguments forms waiting rest
    else .positional arg :: readArguments forms none rest

end ClassRecovery.CommandLine
