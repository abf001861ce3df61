/-
  Building the layouts of classes.

  The layout of a class follows its offset table: every direct non-virtual base and every virtual base is
  embedded as a field of the base's own layout, the hidden pointers of the class are put in, and its data
  members are reserved as one field of no known type.  A class with virtual bases also gets
  the layout of its non-virtual part alone, under its type name with a mark behind; that is the one that
  derived classes embed.

  A layout that is registered already is the starting point for the new one.
-/
import ClassRecovery.Model

namespace ClassRecovery

/-- The name of the layout of a class's non-virtual part. -/
def nonVirtualName (typeName : String) : String := typeName ++ "_nv"

/-- How a base is embedded. -/
structure EmbeddedBase where
  /-- The type name of the base. -/
  typeName : String
  /-- The layout that is embedded. -/
  layout : String
  offset : Word
  size : Word
  deriving DecidableEq, Repr

def EmbeddedBase.field (b : EmbeddedBase) : Field := .base b.typeName b.layout b.offset b.size

namespace Layout

/-- Embeds bases one after the other. -/
def embed (l : Layout) : List EmbeddedBase → Except LayoutError Layout
  | [] => .ok l
  | b :: rest => do
    let (_, l) ← l.overwrite b.field
    l.embed rest

/-- Whether a hidden pointer would take the place of an inherited field. -/
def blocks (l : Layout) (pointer : Field) : Bool :=
  l.fields.any fun f =>
    f.overlaps pointer.offset pointer.stop && !f.isUndefined && f.isInherited

/-- Puts a hidden pointer in place, unless an inherited field is there: the pointers
    that had to stay away, and the layout. -/
def placePointer (l : Layout) (pointer : Field) : Except LayoutError (List Field × Layout) :=
  if l.blocks pointer then .ok ([pointer], l)
  else (l.overwrite pointer).map fun (_, l) => ([], l)

/-- Puts hidden pointers in place, one after the other. -/
def placePointers (l : Layout) : List Field → Except LayoutError (List Field × Layout)
  | [] => .ok ([], l)
  | pointer :: rest => do
    let (away, l) ← l.placePointer pointer
    let (more, l) ← l.placePointers rest
    return (away ++ more, l)

/-- Reserves bytes for data members, unless some of them are taken. -/
def reserve (l : Layout) (offset size : Word) : Except LayoutError Layout :=
  if 0 < size && !l.fields.any fun f => f.overlaps offset (saturatingAdd offset size) then
    (l.overwrite (.undefined offset size)).map (·.2)
  else .ok l

end Layout

/-- The hidden pointers of a class. -/
def ClassType.hiddenPointers (c : ClassType) (abi : Abi) (pointerSize : Word)
    (table : BaseOffsetTable) : List Field :=
  let vptr :=
    match table.vptrOffset with
    | some offset =>
      if table.ownsVptr || c.isPolymorphic then
        [Field.virtualPointer abi.virtualPointerName offset pointerSize none]
      else []
    | none => []
  let vbptr :=
    match table.vbptrOffset with
    | some offset =>
      if table.ownsVbptr then
        [Field.virtualBasePointer abi.virtualBasePointerName offset pointerSize]
      else []
    | none => []
  vptr ++ vbptr

/-- Composes a layout of at least the given size: the hidden pointers that had to stay away, and the layout. -/
def ClassType.compose (c : ClassType) (abi : Abi) (pointerSize : Word) (table : BaseOffsetTable)
    (bases : List EmbeddedBase) (size : Word) (start : Layout) :
    Except LayoutError (List Field × Layout) := do
  let l ← start.embed bases
  let (away, l) ← l.placePointers (c.hiddenPointers abi pointerSize table)
  let l ← l.reserve table.membersOffset c.memberSize
  return (away, l.growTo size)

namespace ClassModel

/-- The registered layout of the given name, or an empty one; of at least the given alignment. -/
def startLayout (m : ClassModel) (name : String) (size align : Word) : Layout :=
  let l := (m.types.get? name).getD (.empty name size align)
  { l with alignment := max l.alignment align }

/-- The layouts of a class, composed but not registered. -/
structure Composition where
  /-- The hidden pointers that had to stay away. -/
  away : List Field
  /-- The layout of the non-virtual part, where the class has virtual bases. -/
  nonVirtual : Option Layout
  full : Layout

/-- Composes the layouts of a class from its embedded bases. -/
def compose (m : ClassModel) (c : ClassType) (typeName : String) (table : BaseOffsetTable)
    (direct shared : List EmbeddedBase) : Except LayoutError Composition := do
  let compose := c.compose m.abi m.pointerSize table
  let full := compose (direct ++ shared) table.size (m.startLayout typeName table.size table.align)
  if table.hasVirtualBases then
    let start := m.startLayout (nonVirtualName typeName) table.nvSize table.nvAlign
    let (away, nv) ← compose direct table.nvSize start
    let (more, l) ← full
    return ⟨away ++ more, some nv, l⟩
  else
    let (away, l) ← full
    return ⟨away, none, l⟩

/-- Registers the layouts of a class. -/
def registerComposition (m : ClassModel) (id : ClassId) (c : Composition) : Noted ClassModel := do
  Noted.noteAll (c.away.map .inheritedFieldKept)
  Noted.note (.layoutBuilt c.full)
  let m ← match c.nonVirtual with
    | some nv => do
      Noted.note (.layoutRegistered id nv)
      pure (m.registerLayout nv)
    | none => pure m
  Noted.note (.layoutRegistered id c.full)
  return m.registerLayout c.full

/-- Building one layout: the layout, and the model in which it is registered. -/
abbrev LayoutBuilder := ClassId → ClassModel → Noted (Except ModelError Layout × ClassModel)

/-- The registered layout of a class, built only where there is none. -/
def ensureWith (build : LayoutBuilder) : LayoutBuilder := fun id m =>
  match m.layout? id with
  | some l => pure (.ok l, m)
  | none => build id m

/-- How a base is embedded, once it has a layout. -/
def embedBase (build : LayoutBuilder) (s : BaseSubobject) (m : ClassModel) :
    Noted (Except ModelError EmbeddedBase × ClassModel) := do
  match ← ensureWith build s.base m with
  | (.error e, m) => return (.error e, m)
  | (.ok _, m) =>
    match m.typeName? s.base with
    | none => return (.error (.unknownClass s.base), m)
    | some typeName =>
      match ← m.noteOffsetTable s.base with
      | (.error e, m) => return (.error e, m)
      | (.ok table, m) =>
        let layout := if table.hasVirtualBases then nonVirtualName typeName else typeName
        return (.ok ⟨typeName, layout, s.offset, table.nvSize⟩, m)

/-- How several bases are embedded, up to the first that fails. -/
def embedBases (build : LayoutBuilder) :
    List BaseSubobject → ClassModel → Noted (Except ModelError (List EmbeddedBase) × ClassModel)
  | [], m => pure (.ok [], m)
  | s :: rest, m => do
    match ← embedBase build s m with
    | (.error e, m) => return (.error e, m)
    | (.ok b, m) =>
      let (more, m) ← embedBases build rest m
      return (more.map (b :: ·), m)

/-- Builds the layout of a class, and before it the layouts of bases without one.  Each step spends
    fuel. -/
def buildWithin : Nat → LayoutBuilder
  | 0, id, m => pure (.error (.cyclicInheritance id), m)
  | fuel + 1, id, m => do
    match ← m.noteOffsetTable id with
    | (.error e, m) => return (.error e, m)
    | (.ok table, m) =>
      match m.get? id, m.typeName? id with
      | some c, some typeName =>
        match ← embedBases (buildWithin fuel) (table.direct.filter (!·.isVirtual)) m with
        | (.error e, m) => return (.error e, m)
        | (.ok direct, m) =>
          match ← embedBases (buildWithin fuel) table.virtualBases m with
          | (.error e, m) => return (.error e, m)
          | (.ok shared, m) =>
            match m.compose c typeName table direct shared with
            | .error e => return (.error (.layout id e), m)
            | .ok composition =>
              let m ← m.registerComposition id composition
              return (.ok composition.full, m)
      | _, _ => return (.error (.unknownClass id), m)

/-- Builds and registers the layout of a class.  A class with an offset table does not inherit
    from itself, so there are never more layouts being built than classes. -/
def buildLayout (m : ClassModel) (id : ClassId) : Noted (Except ModelError Layout × ClassModel) :=
  buildWithin (m.size + 1) id m

/-- The registered layout of a class, built only where there is none. -/
def ensureLayout (m : ClassModel) (id : ClassId) : Noted (Except ModelError Layout × ClassModel) :=
  ensureWith (buildWithin (m.size + 1)) id m

end ClassModel

end ClassRecovery
