/-
  Functions, references, and decompiled bodies, as far as the analyses look at them.
-/
import ClassRecovery.Word

namespace ClassRecovery

/-! ## Functions -/

/-- Where a parameter is passed. -/
inductive ParameterStorage where
  /-- In the register of the given name. -/
  | register (name : String)
  /-- On the stack, at the given offset. -/
  | stack (offset : Int64)
  deriving DecidableEq, Repr

/-- A function of the program. -/
structure FunctionInfo where
  entry : Address
  name : String
  /-- The bytes of the body. -/
  size : Word := 0
  /-- The function that a thunk goes on to. -/
  thunkTarget : Option Address := none
  /-- Whether the user has given the function its signature. -/
  isUserDefined : Bool := false
  /-- The C prototype. -/
  prototype : Option String := none
  parameters : List ParameterStorage := []
  deriving DecidableEq, Repr

namespace FunctionInfo

def isThunk (f : FunctionInfo) : Bool := f.thunkTarget.isSome

/-- Whether the address lies in the body.  An empty body covers its entry. -/
def contains (f : FunctionInfo) (address : Address) : Bool :=
  f.entry ≤ address && address - f.entry < max f.size 1

end FunctionInfo

/-! ## References -/

inductive ReferenceKind where
  | data
  | read
  | write
  | call
  | computedCall
  | indirectCall
  deriving DecidableEq, Repr

namespace ReferenceKind

/-- Whether data is referred to. -/
def isData : ReferenceKind → Bool
  | data | read | write => true
  | call | computedCall | indirectCall => false

/-- Whether this is a plain call. -/
def isDirectCall (k : ReferenceKind) : Bool := k == call

end ReferenceKind

/-- A reference from one address to another. -/
structure Reference where
  source : Address
  target : Address
  kind : ReferenceKind
  deriving DecidableEq, Repr

/-! ## Decompiled bodies -/

/-- A variable of a decompiled body. -/
abbrev Variable := UInt32

/-- The first argument of a call: a variable, and what is added to it. -/
structure ThisArgument where
  origin : Option Variable := none
  offset : Int64 := 0
  /-- The offset of a field, if the argument is the address of one. -/
  fieldOffset : Option Int64 := none
  deriving DecidableEq, Repr

/-- All that is added to the variable, if that is a signed word. -/
def ThisArgument.totalOffset? (a : ThisArgument) : Option Int64 :=
  checkedAddSigned a.offset (a.fieldOffset.getD 0)

/-- A call in a decompiled body. -/
structure CallSite where
  address : Address
  /-- The function called; an indirect call has none. -/
  target : Option Address := none
  thisArgument : Option ThisArgument := none
  deriving DecidableEq, Repr

/-- The decompiled body of a function. -/
structure FunctionBody where
  entry : Address
  /-- The variable that holds `this`. -/
  thisParameter : Option Variable := none
  /-- In program order. -/
  calls : List CallSite := []
  deriving DecidableEq, Repr

end ClassRecovery
