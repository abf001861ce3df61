/-
  Placing the bases of one class, given the tables of its bases.

  The primary base, the first non-virtual base with a virtual pointer, is at offset zero and lends its
  virtual pointer to the class.  Without one, a class that needs a virtual pointer begins with
  its own.  Then follow, where the ABI has it, the virtual base pointer, the other non-virtual bases in
  order of declaration, and the data members; each part is put at the next multiple of its
  alignment.  A base with a recorded offset is put there instead.  Behind this non-virtual part every virtual
  base, direct or not, is put once.  Empty classes take one byte, and so do empty bases.

  Every placement fails where an offset or size would be no word.
-/
import ClassRecovery.Class
import ClassRecovery.Error
import ClassRecovery.Offsets.Table

namespace ClassRecovery

/-- A direct base, with its table. -/
structure BasePart where
  spec : BaseSpec
  table : BaseOffsetTable

/-- Whether the base can be primary: it has a virtual pointer, and it is not recorded
    to be elsewhere than at offset zero. -/
def BasePart.canBePrimary (p : BasePart) : Bool :=
  p.table.isDynamic && p.spec.offset.all (· == 0)

/-! ## Room -/

/-- The part of an object that is placed so far. -/
structure Extent where
  size : Word
  align : Word
  deriving DecidableEq, Repr

namespace Extent

/-- Puts a part of the given size and alignment at its recorded offset, or at the next that suits it: the
    offset, and the extent with the part. -/
def place (e : Extent) (recorded : Option Word) (size align : Word) : Option (Word × Extent) := do
  let offset ← recorded.or (alignUp e.size align)
  let stop ← checkedAdd offset size
  return (offset, ⟨max e.size stop, max e.align align⟩)

/-- The size of a whole object: at least one byte, and a multiple of the alignment. -/
def closed (e : Extent) : Option Word := alignUp (max e.size 1) e.align

end Extent

/-! ## The non-virtual part -/

/-- Whether the class needs a virtual pointer if no base lends it one. -/
def ClassType.needsVptr (c : ClassType) (abi : Abi) (parts : List BasePart) : Bool :=
  match abi with
  | .itanium =>
    c.isPolymorphic || c.hasVirtualBases || parts.any (·.table.hasVirtualBases) ||
      parts.any (·.table.isDynamic)
  | .msvc => c.isPolymorphic

/-- What an object begins with. -/
structure Front where
  primaryBase : Option ClassId
  vptrOffset : Option Word
  ownsVptr : Bool
  extent : Extent

/-- The beginning of an object: the primary base, or a virtual pointer, or nothing. -/
def Front.of (needsVptr : Bool) (pointerSize : Word) (nonVirtual : List BasePart) : Front :=
  match nonVirtual.find? BasePart.canBePrimary with
  | some p => ⟨some p.spec.base, some 0, false, ⟨p.table.nvSize, p.table.nvAlign⟩⟩
  | none =>
    if needsVptr then ⟨none, some 0, true, ⟨pointerSize, pointerSize⟩⟩
    else ⟨none, none, false, ⟨0, 1⟩⟩

/-- A base that has been given its place. -/
structure PlacedBase where
  base : ClassId
  table : BaseOffsetTable
  offset : Word

/-- Places the non-virtual bases.  The first of them that can be primary is in the extent already, at
    offset zero; `primaryAhead` tells whether it is still to come. -/
def placeBases (primaryAhead : Bool) :
    List BasePart → Extent → Option (List PlacedBase × Extent)
  | [], e => some ([], e)
  | p :: rest, e =>
    if primaryAhead && p.canBePrimary then do
      let (placed, e) ← placeBases false rest e
      return (⟨p.spec.base, p.table, 0⟩ :: placed, e)
    else do
      let (offset, e) ← e.place p.spec.offset p.table.nvSize p.table.nvAlign
      let (placed, e) ← placeBases primaryAhead rest e
      return (⟨p.spec.base, p.table, offset⟩ :: placed, e)

/-- Where the first base with a virtual base pointer has it. -/
def inheritedVbptr? : List PlacedBase → Option (Option Word)
  | [] => some none
  | b :: rest =>
    match b.table.vbptrOffset with
    | some inner => (checkedAdd b.offset inner).map some
    | none => inheritedVbptr? rest

/-- The non-virtual part of an object. -/
structure NonVirtualPart where
  front : Front
  vbptrOffset : Option Word
  ownsVbptr : Bool
  bases : List PlacedBase
  membersOffset : Word
  /-- Size and alignment. -/
  extent : Extent

/-- Places the virtual base pointer, if the class needs one of its own. -/
def placeVbptr (owns : Bool) (pointerSize : Word) (e : Extent) : Option (Option Word × Extent) :=
  if owns then (e.place none pointerSize pointerSize).map fun (offset, e) => (some offset, e)
  else some (none, e)

/-- Places the data members: where they begin, and the extent with them. -/
def ClassType.placeMembers (c : ClassType) (e : Extent) : Option (Word × Extent) :=
  if 0 < c.memberSize then e.place none c.memberSize c.memberAlign else some (e.size, e)

/-- Places all but the virtual bases. -/
def ClassType.nonVirtualPart? (c : ClassType) (abi : Abi) (pointerSize : Word)
    (parts : List BasePart) : Option NonVirtualPart := do
  let nonVirtual := parts.filter fun p => !p.spec.isVirtual
  let front := Front.of (c.needsVptr abi parts) pointerSize nonVirtual
  let hasVirtualBases := c.hasVirtualBases || parts.any (·.table.hasVirtualBases)
  let ownsVbptr := abi.usesVirtualBasePointer && hasVirtualBases &&
    !nonVirtual.any (·.table.vbptrOffset.isSome)
  let (ownVbptr, extent) ← placeVbptr ownsVbptr pointerSize front.extent
  let (bases, extent) ← placeBases true nonVirtual extent
  let vbptrOffset ←
    if abi.usesVirtualBasePointer && !ownsVbptr then inheritedVbptr? bases else some ownVbptr
  let (membersOffset, extent) ← c.placeMembers extent
  let size ← extent.closed
  return ⟨front, vbptrOffset, ownsVbptr, bases, membersOffset, ⟨size, extent.align⟩⟩

/-! ## Sub-objects -/

/-- The sub-objects of a placed base: the base itself, and what lies in it outside of virtual
    bases.  `paths` lead to the base. -/
def PlacedBase.subobjects (b : PlacedBase) (isVirtual : Bool) (paths : List BasePath) :
    Option (List BaseSubobject) := do
  let inner ← b.table.outsideVirtual.mapM fun s => s.within paths b.offset isVirtual
  return ⟨b.base, b.offset, isVirtual, isVirtual, paths⟩ :: inner

/-- Virtual bases with the paths that lead to them, in order of the first path. -/
abbrev VirtualPaths := List (ClassId × List BasePath)

namespace VirtualPaths

/-- Adds a path to a virtual base. -/
def add (base : ClassId) (path : BasePath) : VirtualPaths → VirtualPaths
  | [] => [(base, [path])]
  | (b, paths) :: rest =>
    if b = base then (b, paths ++ [path]) :: rest else (b, paths) :: add base path rest

/-- Adds a path to a virtual base, unless it is there already. -/
def addNew (base : ClassId) (path : BasePath) (known : VirtualPaths) : VirtualPaths :=
  if (known.lookup base).any (·.contains path) then known else add base path known

/-- Adds the paths that begin with the given direct base. -/
def addPart (known : VirtualPaths) (p : BasePart) : VirtualPaths :=
  let own := if p.spec.isVirtual then add p.spec.base [p.spec.base] known else known
  p.table.virtualBases.foldl
    (fun known s =>
      s.paths.foldl (fun known path => addNew s.base (p.spec.base :: path) known) known)
    own

/-- The virtual bases of a class with the given direct bases. -/
def ofParts (parts : List BasePart) : VirtualPaths := parts.foldl addPart []

end VirtualPaths

/-- Places virtual bases: their sub-objects, and the extent with them. -/
def placeVirtualBases (tableOf : ClassId → Option BaseOffsetTable) (owner : ClassId) :
    VirtualPaths → Extent → Except ModelError (List BaseSubobject × Extent)
  | [], e => .ok ([], e)
  | (base, paths) :: rest, e => do
    let table ← (tableOf base).elim (.error (.unknownClass base)) .ok
    let placed : Option (List BaseSubobject × Extent) := do
      let (offset, e) ← e.place none table.nvSize table.nvAlign
      let subobjects ← PlacedBase.subobjects ⟨base, table, offset⟩ true paths
      return (subobjects, e)
    let (subobjects, e) ← placed.elim (.error (.offsetOverflow owner)) .ok
    let (more, e) ← placeVirtualBases tableOf owner rest e
    return (subobjects ++ more, e)

/-- The table of a class, from its direct bases with their tables and the tables of virtual bases. -/
def ClassType.offsetTable (c : ClassType) (abi : Abi) (pointerSize : Word)
    (parts : List BasePart) (tableOf : ClassId → Option BaseOffsetTable) :
    Except ModelError BaseOffsetTable := do
  let overflow {α : Type} (x : Option α) : Except ModelError α :=
    x.elim (.error (.offsetOverflow c.id)) .ok
  let nv ← overflow (c.nonVirtualPart? abi pointerSize parts)
  let own ← overflow (nv.bases.mapM fun b => b.subobjects false [[b.base]])
  let (shared, extent) ←
    placeVirtualBases tableOf c.id (VirtualPaths.ofParts parts) nv.extent
  let size ← overflow extent.closed
  return {
    owner := c.id
    entries := own.flatten ++ shared
    primaryBase := nv.front.primaryBase
    vptrOffset := nv.front.vptrOffset
    ownsVptr := nv.front.ownsVptr
    vbptrOffset := nv.vbptrOffset
    ownsVbptr := nv.ownsVbptr
    membersOffset := nv.membersOffset
    nvSize := nv.extent.size
    nvAlign := nv.extent.align
    size
    align := extent.align }

end ClassRecovery
