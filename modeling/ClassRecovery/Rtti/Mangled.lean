/-
  Mangled class names.

  A class name is a component, or a nested list of components; a component is an identifier
  with an optional list of template arguments.  Identifiers are encoded as their length in
  bytes and their text, nested names as `N…E`, arguments as `I…E`.

  * `ClassName.encode` writes the mangled form, `ClassName.render` the readable one.
  * `Mangled.name?` reads a name off the front of a mangled text.
  * `demangle` renders the name a text begins with, and leaves other texts as they are.
-/
import ClassRecovery.Word

namespace ClassRecovery

/-! ## Names -/

/-- The builtin types that can be template arguments. -/
inductive BuiltinType where
  | void | bool | char | signedChar | unsignedChar | short | unsignedShort | int | unsignedInt
  | long | unsignedLong | longLong | unsignedLongLong | wideChar | float | double | longDouble
  deriving DecidableEq, Repr

namespace BuiltinType

/-- The letter that encodes the type. -/
def code : BuiltinType → Char
  | void => 'v'
  | bool => 'b'
  | char => 'c'
  | signedChar => 'a'
  | unsignedChar => 'h'
  | short => 's'
  | unsignedShort => 't'
  | int => 'i'
  | unsignedInt => 'j'
  | long => 'l'
  | unsignedLong => 'm'
  | longLong => 'x'
  | unsignedLongLong => 'y'
  | wideChar => 'w'
  | float => 'f'
  | double => 'd'
  | longDouble => 'e'

/-- The name of the type. -/
def text : BuiltinType → String
  | void => "void"
  | bool => "bool"
  | char => "char"
  | signedChar => "signed char"
  | unsignedChar => "unsigned char"
  | short => "short"
  | unsignedShort => "unsigned short"
  | int => "int"
  | unsignedInt => "unsigned int"
  | long => "long"
  | unsignedLong => "unsigned long"
  | longLong => "long long"
  | unsignedLongLong => "unsigned long long"
  | wideChar => "wchar_t"
  | float => "float"
  | double => "double"
  | longDouble => "long double"

def all : List BuiltinType :=
  [void, bool, char, signedChar, unsignedChar, short, unsignedShort, int, unsignedInt, long,
    unsignedLong, longLong, unsignedLongLong, wideChar, float, double, longDouble]

/-- The type that a letter encodes. -/
def ofCode? (c : Char) : Option BuiltinType := all.find? fun b => b.code = c

end BuiltinType

mutual
/-- A template argument. -/
inductive TemplateArgument where
  | builtin (type : BuiltinType)
  | pointer (target : TemplateArgument)
  | reference (target : TemplateArgument)
  | const (target : TemplateArgument)
  /-- A value of the given type. -/
  | literal (type : TemplateArgument) (negative : Bool) (digits : List Char)
  | name (name : ClassName)

/-- An identifier with its template arguments, if it has a list of them. -/
inductive NameComponent where
  | mk (identifier : List Char) (arguments : Option (List TemplateArgument))

/-- A class name. -/
inductive ClassName where
  | plain (component : NameComponent)
  | nested (components : List NameComponent)
end

/-! ## Readable form -/

mutual
def TemplateArgument.render : TemplateArgument → List Char
  | .builtin type => type.text.toList
  | .pointer target => target.render ++ ['*']
  | .reference target => target.render ++ ['&']
  | .const target => "const ".toList ++ target.render
  | .literal _ negative digits => if negative then '-' :: digits else digits
  | .name name => name.render

/-- The arguments with commas between them. -/
def renderArguments : List TemplateArgument → List Char
  | [] => []
  | [a] => a.render
  | a :: rest => a.render ++ ", ".toList ++ renderArguments rest

def NameComponent.render : NameComponent → List Char
  | .mk identifier none => identifier
  | .mk identifier (some arguments) => identifier ++ '<' :: renderArguments arguments ++ ['>']

/-- The components with double colons between them. -/
def renderComponents : List NameComponent → List Char
  | [] => []
  | [c] => c.render
  | c :: rest => c.render ++ "::".toList ++ renderComponents rest

def ClassName.render : ClassName → List Char
  | .plain component => component.render
  | .nested components => renderComponents components
end

/-! ## Mangled form -/

/-- The bytes of a text. -/
def byteLength : List Char → Nat
  | [] => 0
  | c :: rest => c.utf8Size + byteLength rest

mutual
def TemplateArgument.encode : TemplateArgument → List Char
  | .builtin type => [type.code]
  | .pointer target => 'P' :: target.encode
  | .reference target => 'R' :: target.encode
  | .const target => 'K' :: target.encode
  | .literal type negative digits =>
    'L' :: type.encode ++ (if negative then ['n'] else []) ++ digits ++ ['E']
  | .name name => name.encode

def encodeArguments : List TemplateArgument → List Char
  | [] => []
  | a :: rest => a.encode ++ encodeArguments rest

def NameComponent.encode : NameComponent → List Char
  | .mk identifier none => Nat.toDigits 10 (byteLength identifier) ++ identifier
  | .mk identifier (some arguments) =>
    Nat.toDigits 10 (byteLength identifier) ++ identifier ++ 'I' :: encodeArguments arguments ++ ['E']

def encodeComponents : List NameComponent → List Char
  | [] => []
  | c :: rest => c.encode ++ encodeComponents rest

def ClassName.encode : ClassName → List Char
  | .plain component => component.encode
  | .nested components => 'N' :: encodeComponents components ++ ['E']
end

/-! ## Reading -/

namespace Mangled

def isDigit (c : Char) : Bool := '0' ≤ c && c ≤ '9'

/-- The value of a list of decimal digits. -/
def digitsValue (digits : List Char) : Nat := digits.foldl (fun n c => n * 10 + (c.toNat - 48)) 0

/-- Splits `count` bytes off the front of a text, if a character ends there. -/
def takeBytes? : Nat → List Char → Option (List Char × List Char)
  | 0, cs => some ([], cs)
  | _ + 1, [] => none
  | count + 1, c :: cs =>
    if c.utf8Size ≤ count + 1 then
      (takeBytes? (count + 1 - c.utf8Size) cs).map fun (taken, rest) => (c :: taken, rest)
    else none

/-- The identifier at the front of a text, behind its length. -/
def identifier? (cs : List Char) : Option (List Char × List Char) :=
  let digits := cs.takeWhile isDigit
  let length := digitsValue digits
  if digits.isEmpty || UInt64.size ≤ length then none else takeBytes? length (cs.dropWhile isDigit)

/-- The text behind the `E` at its front, if one stands there. -/
def closed : List Char → List Char
  | 'E' :: rest => rest
  | cs => cs

/-- What comes before the first `E`, and what comes behind it. -/
def untilEnd? : List Char → Option (List Char × List Char)
  | [] => none
  | c :: rest =>
    if c = 'E' then some ([], rest)
    else (untilEnd? rest).map fun (text, rest) => (c :: text, rest)

/-- A literal of the given type: an `n` at the front of the text is the minus sign. -/
def literal (type : TemplateArgument) : List Char → TemplateArgument
  | 'n' :: digits => .literal type true digits
  | digits => .literal type false digits

mutual
/-- The name at the front of a text.  A nested name ends where no further component can be
    read; its closing `E` may be missing. -/
def name? : Nat → List Char → Option (ClassName × List Char)
  | 0, _ => none
  | fuel + 1, cs =>
    match cs with
    | 'N' :: rest =>
      match components fuel rest with
      | ([], _) => none
      | (c :: more, rest) => some (.nested (c :: more), closed rest)
    | cs => (component? fuel cs).map fun (c, rest) => (.plain c, rest)

/-- The components at the front of a text. -/
def components : Nat → List Char → List NameComponent × List Char
  | 0, cs => ([], cs)
  | fuel + 1, cs =>
    match cs with
    | [] => ([], [])
    | 'E' :: rest => ([], 'E' :: rest)
    | cs =>
      match component? fuel cs with
      | none => ([], cs)
      | some (c, rest) =>
        let (more, rest) := components fuel rest
        (c :: more, rest)

/-- The component at the front of a text. -/
def component? : Nat → List Char → Option (NameComponent × List Char)
  | 0, _ => none
  | fuel + 1, cs =>
    match identifier? cs with
    | none => none
    | some (identifier, 'I' :: rest) =>
      (arguments? fuel rest).map fun (arguments, rest) => (.mk identifier (some arguments), rest)
    | some (identifier, rest) => some (.mk identifier none, rest)

/-- The template arguments at the front of a text, and what comes behind the `E` that ends them. -/
def arguments? : Nat → List Char → Option (List TemplateArgument × List Char)
  | 0, _ => none
  | fuel + 1, cs =>
    match cs with
    | 'E' :: rest => some ([], rest)
    | cs =>
      match argument? fuel cs with
      | none => none
      | some (a, rest) => (arguments? fuel rest).map fun (more, rest) => (a :: more, rest)

/-- The template argument at the front of a text. -/
def argument? : Nat → List Char → Option (TemplateArgument × List Char)
  | 0, _ => none
  | _ + 1, [] => none
  | fuel + 1, c :: rest =>
    match BuiltinType.ofCode? c with
    | some type => some (.builtin type, rest)
    | none =>
      if c = 'P' then (argument? fuel rest).map fun (a, rest) => (.pointer a, rest)
      else if c = 'R' then (argument? fuel rest).map fun (a, rest) => (.reference a, rest)
      else if c = 'K' then (argument? fuel rest).map fun (a, rest) => (.const a, rest)
      else if c = 'L' then
        match argument? fuel rest with
        | none => none
        | some (type, rest) =>
          (untilEnd? rest).map fun (text, rest) => (literal type text, rest)
      else if c = 'N' || isDigit c then
        (name? fuel (c :: rest)).map fun (name, rest) => (.name name, rest)
      else none
end

/-- Steps that suffice for a text of the given length: between two characters that are read, at most four
    readers call one another. -/
def enoughFuel (length : Nat) : Nat := 4 * length + 4

end Mangled

/-- What stands in front of the name in a type name symbol. -/
def symbolMark : List Char := "_ZTS".toList

/-- A text without the symbol mark at its front. -/
def withoutSymbolMark (cs : List Char) : List Char :=
  if symbolMark.isPrefixOf cs then cs.drop symbolMark.length else cs

/-- The readable form of a mangled class name.  A text that begins with no name is left as it is. -/
def demangle (mangled : String) : String :=
  let cs := withoutSymbolMark mangled.toList
  match Mangled.name? (Mangled.enoughFuel cs.length) cs with
  | some (name, _) => String.ofList name.render
  | none => mangled

end ClassRecovery
