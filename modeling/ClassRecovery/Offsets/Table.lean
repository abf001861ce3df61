/-
  Base offset tables: where every base sub-object of a class sits in its objects.

  A base of a class is reached along paths of direct bases.  All paths that end in the same virtual
  base share one sub-object of it; every other path has a sub-object of its own.  A table
  lists the sub-objects with their paths and offsets, and the sizes that placing them gave.
-/
import ClassRecovery.Vtable.Basic

namespace ClassRecovery

/-- A path of bases: it starts at a direct base of some class, and each class is a direct base of
    the one before it. -/
abbrev BasePath := List ClassId

/-- One base sub-object of a class. -/
structure BaseSubobject where
  base : ClassId
  /-- In bytes from the beginning of the object. -/
  offset : Word
  /-- Whether this is the shared sub-object of a virtual base. -/
  isVirtual : Bool
  /-- Whether this is, or lies in, the shared sub-object of a virtual base. -/
  inVirtualBase : Bool
  /-- The paths that lead here; all of them end in `base`. -/
  paths : List BasePath
  deriving DecidableEq, Repr

namespace BaseSubobject

/-- Whether some path takes one step only. -/
def isDirect (s : BaseSubobject) : Bool := s.paths.any fun path => path.length == 1

/-- The sub-object as part of a larger object: behind the given paths, and moved by `offset`. -/
def within (s : BaseSubobject) (via : List BasePath) (offset : Word) (inVirtualBase : Bool) :
    Option BaseSubobject :=
  (checkedAdd offset s.offset).map fun offset =>
    { base := s.base
      offset
      isVirtual := false
      inVirtualBase
      paths := via.flatMap fun front => s.paths.map fun back => front ++ back }

end BaseSubobject

/-- Where the bases of a class sit, and how large its objects are.  The non-virtual part of an object is
    all but its virtual bases. -/
structure BaseOffsetTable where
  owner : ClassId
  /-- First the sub-objects outside of virtual bases, in order of declaration and each before
      its own bases, then every virtual base with the sub-objects in it. -/
  entries : List BaseSubobject
  /-- The base at offset zero whose virtual pointer the class shares. -/
  primaryBase : Option ClassId
  vptrOffset : Option Word
  /-- Whether the virtual pointer is the class's own. -/
  ownsVptr : Bool
  vbptrOffset : Option Word
  /-- Whether the virtual base pointer is the class's own. -/
  ownsVbptr : Bool
  /-- Where the data members of the class begin. -/
  membersOffset : Word
  /-- The size and alignment of the non-virtual part. -/
  nvSize : Word
  nvAlign : Word
  size : Word
  align : Word
  deriving DecidableEq, Repr

namespace BaseOffsetTable

/-- The direct bases. -/
def direct (t : BaseOffsetTable) : List BaseSubobject := t.entries.filter BaseSubobject.isDirect

/-- The shared sub-objects of virtual bases. -/
def virtualBases (t : BaseOffsetTable) : List BaseSubobject := t.entries.filter (·.isVirtual)

/-- The sub-objects outside of virtual bases. -/
def outsideVirtual (t : BaseOffsetTable) : List BaseSubobject :=
  t.entries.filter fun s => !s.inVirtualBase

/-- The offset of a direct base. -/
def offsetOfDirect? (t : BaseOffsetTable) (base : ClassId) : Option Word :=
  (t.direct.find? fun s => s.base == base).map (·.offset)

/-- The direct base at an offset. -/
def directAt? (t : BaseOffsetTable) (offset : Word) : Option BaseSubobject :=
  t.direct.find? fun s => s.offset == offset

/-- All sub-objects of one base. -/
def occurrences (t : BaseOffsetTable) (base : ClassId) : List BaseSubobject :=
  t.entries.filter fun s => s.base == base

/-- The offset of the sub-object that a path leads to. -/
def offsetVia? (t : BaseOffsetTable) (path : BasePath) : Option Word :=
  (t.entries.find? fun s => s.paths.contains path).map (·.offset)

/-- Whether objects of the class carry a virtual pointer at their beginning. -/
def isDynamic (t : BaseOffsetTable) : Bool := t.vptrOffset.isSome

/-- Whether there is a virtual base, at any depth. -/
def hasVirtualBases (t : BaseOffsetTable) : Bool := t.entries.any (·.isVirtual)

end BaseOffsetTable

end ClassRecovery
