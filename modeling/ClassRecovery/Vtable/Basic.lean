/-
  Tables of virtual functions.

  A table is an array of function addresses.  Before its first slot stand, if the class has
  run-time type information, the displacement to the top of the object and the address of
  the type descriptor.
-/
import ClassRecovery.Word

namespace ClassRecovery

/-- A class is known by the address of its type descriptor, or by a number of its own. -/
abbrev ClassId := Word

/-- What a thunk does before it goes on to another function. -/
structure ThunkInfo where
  /-- What is added to `this`. -/
  adjustment : Int64
  target : Address
  deriving DecidableEq, Repr

/-- A slot of a table. -/
structure VtableEntry where
  /-- In bytes from the first slot. -/
  offset : Word
  target : Address
  name : Option String := none
  /-- The slot of a function without a body. -/
  isPure : Bool := false
  /-- What the target does, if it is a thunk. -/
  thunk : Option ThunkInfo := none
  deriving DecidableEq, Repr

/-- The function behind the slot, past a thunk. -/
def VtableEntry.resolved (e : VtableEntry) : Address := e.thunk.elim e.target (·.target)

/-- A table of virtual functions. -/
structure Vtable where
  /-- The address of the first slot. -/
  address : Address
  owner : Option ClassId := none
  /-- The address of the type descriptor. -/
  descriptor : Option Address := none
  /-- The displacement to the top of the object: zero for the main table of a class. -/
  offsetToTop : Option Int64 := none
  entries : List VtableEntry
  isPrimary : Bool := true
  /-- How likely this is a table, from 0 to 1. -/
  confidence : Float := 0

namespace Vtable

/-- The main table of a class, from the targets of its slots. -/
def ofTargets (address descriptor : Address) (pointerSize : Word) (targets : List Address) :
    Vtable where
  address
  descriptor := some descriptor
  offsetToTop := some 0
  entries := targets.mapIdx fun i target =>
    { offset := UInt64.ofNat i * pointerSize, target }

/-- The bytes of the slots. -/
def size (v : Vtable) (pointerSize : Word) : Word := UInt64.ofNat v.entries.length * pointerSize

def hasRtti (v : Vtable) : Bool := v.descriptor.isSome

/-- A table with a descriptor and at least one function. -/
def isValid (v : Vtable) : Bool := v.hasRtti && v.entries.any fun e => e.target != 0

/-- Whether a slot holds the function, itself or through a thunk. -/
def containsFunction (v : Vtable) (function : Address) : Bool :=
  v.entries.any fun e => e.target == function || e.resolved == function

/-- The addresses of the slots. -/
def slotAddresses (v : Vtable) : List Address := v.entries.map fun e => v.address + e.offset

/-- The bytes of what stands before the first slot. -/
def headerSize (v : Vtable) (pointerSize : Word) : Word :=
  if v.offsetToTop.isSome then 2 * pointerSize
  else if v.descriptor.isSome then pointerSize
  else 0

/-- Where the storage of the table begins, its header included. -/
def storageStart (v : Vtable) (pointerSize : Word) : Address :=
  saturatingSub v.address (v.headerSize pointerSize)

/-- Where the storage of the table ends. -/
def storageStop (v : Vtable) (pointerSize : Word) : Address :=
  saturatingAdd v.address (v.size pointerSize)

end Vtable

end ClassRecovery
