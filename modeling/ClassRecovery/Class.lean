/-
  Reconstructed classes.
-/
import ClassRecovery.Abi
import ClassRecovery.Vtable.Basic

namespace ClassRecovery

/-- A direct base of a class. -/
structure BaseSpec where
  base : ClassId
  isVirtual : Bool := false
  isPublic : Bool := true
  /-- Where a non-virtual base is recorded to be, in place of where it would be put. -/
  offset : Option Word := none
  deriving DecidableEq, Repr

/-- A reconstructed class. -/
structure ClassType where
  id : ClassId
  /-- The name shown to the user. -/
  name : String
  /-- The direct bases, in order of declaration. -/
  bases : List BaseSpec := []
  /-- The main table of virtual functions. -/
  vtable : Option Vtable := none
  /-- The bytes of the data members that are not inherited. -/
  memberSize : Word := 0
  memberAlign : Word := 1
  /-- The record type of the class's descriptor, where known. -/
  descriptorType : Option String := none

namespace ClassType

/-- The class with one more direct base. -/
def addBase (c : ClassType) (b : BaseSpec) : ClassType := { c with bases := c.bases ++ [b] }

/-- The class with data members of the given size.  An alignment of zero counts as one. -/
def withMembers (c : ClassType) (size align : Word) : ClassType :=
  { c with memberSize := size, memberAlign := max align 1 }

/-- The table of virtual functions, if it is valid. -/
def validVtable? (c : ClassType) : Option Vtable := c.vtable.filter Vtable.isValid

/-- Whether the class has a valid table of virtual functions of its own. -/
def isPolymorphic (c : ClassType) : Bool := c.vtable.any Vtable.isValid

/-- Whether some direct base is virtual. -/
def hasVirtualBases (c : ClassType) : Bool := c.bases.any (·.isVirtual)

/-- The record type of the class's descriptor. -/
def descriptorTypeName (c : ClassType) (abi : Abi) : String :=
  c.descriptorType.getD abi.defaultDescriptorType

end ClassType

end ClassRecovery
