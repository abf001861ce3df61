/-
  C types and function prototypes, as far as class members and call signatures need them.
-/
import ClassRecovery.Word
import ClassRecovery.Text.Blank

namespace ClassRecovery

/-- A C type. -/
inductive CType where
  | void
  | int (size : Word) (signed : Bool)
  | pointer (target : CType)
  /-- An array; one without a length is incomplete. -/
  | array (element : CType) (length : Option Word)
  | synonym (name : String) (target : CType)
  /-- A type described elsewhere: a class layout, a descriptor record. -/
  | named (name : String)
  deriving DecidableEq, Repr

namespace CType

/-- The size in bytes; incomplete and named types have none. -/
def size? (pointerSize : Word) : CType → Option Word
  | void => none
  | int size _ => some size
  | pointer _ => some pointerSize
  | array element length => do return (← element.size? pointerSize) * (← length)
  | synonym _ target => target.size? pointerSize
  | named _ => none

/-- The alignment in bytes; `void` and named types have none. -/
def alignment? (pointerSize : Word) : CType → Option Word
  | void => none
  | int size _ => some (min size 8)
  | pointer _ => some pointerSize
  | array element _ => element.alignment? pointerSize
  | synonym _ target => target.alignment? pointerSize
  | named _ => none

/-- The C name of an integer type; unusual sizes are called `int`. -/
def intName (size : Word) (signed : Bool) : String :=
  if size = 1 then (if signed then "char" else "unsigned char")
  else if size = 2 then (if signed then "short" else "unsigned short")
  else if size = 4 then (if signed then "int" else "unsigned int")
  else if size = 8 then (if signed then "long long" else "unsigned long long")
  else "int"

/-- A declared name after a blank, if there is one. -/
def suffix (name : Option String) : String := name.elim "" (" " ++ ·)

/-- The declaration of a name of this type, or the type alone. -/
def declare : CType → Option String → String
  | void, name => "void" ++ suffix name
  | int size signed, name => intName size signed ++ suffix name
  | pointer target, name => target.declare none ++ " *" ++ suffix name
  | array element length, name =>
    element.declare name ++ "[" ++ length.elim "" (fun n => toString n.toNat) ++ "]"
  | synonym n _, name => n ++ suffix name
  | named n, name => n ++ suffix name

/-! ## Common types -/

def signedInt : CType := int 4 true

def unsignedInt : CType := int 4 false

/-- The signed integer of pointer width. -/
def long (pointerSize : Word) : CType := int pointerSize true

def ptrdiff (pointerSize : Word) : CType := synonym "ptrdiff_t" (long pointerSize)

def voidPointer : CType := pointer void

end CType

/-- A function prototype.  Parameters without a name have the empty name. -/
structure Prototype where
  name : String
  returnType : CType
  parameters : List (String × CType) := []
  variadic : Bool := false
  deriving DecidableEq, Repr

namespace Prototype

/-- One parameter as it stands in the declaration. -/
def parameterText (p : String × CType) : String :=
  trimEnd (p.2.declare (if p.1.isEmpty then none else some p.1))

/-- The C declaration.  An empty list of parameters is written `void`, also if the function is
    variadic. -/
def text (p : Prototype) : String :=
  let parameters := ", ".intercalate (p.parameters.map parameterText)
  let list :=
    if p.parameters.isEmpty then "void"
    else if p.variadic then parameters ++ ", ..."
    else parameters
  trimEnd (p.returnType.declare none) ++ " " ++ p.name ++ "(" ++ list ++ ")"

end Prototype

end ClassRecovery
