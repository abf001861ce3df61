/-
  The model: the reconstructed classes, and all that is derived from them.

  Classes are known by identity and by type name.  The type name of a class is its display name, unless
  another class has that name already.  Offset tables are kept once they are
  resolved; replacing a class drops them all, since any of them may depend on it.
-/
import ClassRecovery.Journal
import ClassRecovery.Offsets.Resolution
import ClassRecovery.TypeDatabase

namespace ClassRecovery

/-- Reconstructed classes, with what is derived from them. -/
structure ClassModel where
  abi : Abi
  pointerSize : Word
  classes : OrderedMap ClassId ClassType := .empty
  /-- The names under which the layouts of the classes are registered. -/
  typeNames : OrderedMap ClassId String := .empty
  /-- The classes by their type names. -/
  byTypeName : OrderedMap String ClassId := .empty
  /-- The offset tables that are resolved. -/
  tables : OffsetMemo := []
  types : TypeDatabase := {}
  /-- The functions recorded as constructors and destructors. -/
  attributed : OrderedMap Address AttributedFunction := .empty
  progress : OrderedMap ClassId Progress := .empty

namespace ClassModel

/-! ## Classes -/

/-- The class of the given identity. -/
def get? (m : ClassModel) (id : ClassId) : Option ClassType := m.classes.get? id

def contains (m : ClassModel) (id : ClassId) : Bool := m.classes.contains id

/-- The number of classes. -/
def size (m : ClassModel) : Nat := m.classes.size

/-- The identities of the classes, ascending. -/
def ids (m : ClassModel) : List ClassId := m.classes.keys

def typeName? (m : ClassModel) (id : ClassId) : Option String := m.typeNames.get? id

/-- The class of the given type name. -/
def named? (m : ClassModel) (typeName : String) : Option ClassType :=
  (m.byTypeName.get? typeName).bind m.get?

/-- The class with the table of virtual functions at an address. -/
def withVtable? (m : ClassModel) (address : Address) : Option ClassType :=
  m.classes.values.find? fun c => c.vtable.any fun v => v.address == address

/-- The number of different direct bases of a class that are classes of the model. -/
def knownParents (m : ClassModel) (id : ClassId) : Nat :=
  match m.get? id with
  | none => 0
  | some c => (((c.bases.map (·.base)).filter m.contains).eraseDups).length

/-- Whether another class than the given one has a type name. -/
def isTaken (m : ClassModel) (id : ClassId) (typeName : String) : Bool :=
  (m.byTypeName.get? typeName).any (· != id)

/-- The first of `candidate`, `candidate_`, `candidate__`, … that no other class has. -/
def freeName (m : ClassModel) (id : ClassId) (candidate : String) : Nat → String
  | 0 => candidate
  | fuel + 1 =>
    if m.isTaken id candidate then m.freeName id (candidate ++ "_") fuel else candidate

/-- The type name for a class of the given display name: that name, if no other class has it as its type name, and
    otherwise the name with the identity of the class, and with as many underscores as it takes. -/
def uniqueName (m : ClassModel) (id : ClassId) (name : String) : String :=
  if m.isTaken id name then
    m.freeName id (name ++ "_" ++ hexDigits id.toNat) (m.byTypeName.size + 1)
  else name

/-- Inserts a class, or replaces the class of the same identity. -/
def insert (m : ClassModel) (c : ClassType) : ClassModel :=
  let name := m.uniqueName c.id c.name
  let released :=
    match m.typeName? c.id with
    | some old => if old = name then m.byTypeName else m.byTypeName.erase old
    | none => m.byTypeName
  { m with
    classes := m.classes.insert c.id { c with vtable := c.vtable.map ({ · with owner := some c.id }) }
    typeNames := m.typeNames.insert c.id name
    byTypeName := released.insert name c.id
    tables := if m.contains c.id then [] else m.tables }

/-- What there is to tell about the insertion of a class. -/
def insertionEvents (m : ClassModel) (c : ClassType) : List Event :=
  if m.isTaken c.id c.name then [.nameDisambiguated c.id c.name (m.uniqueName c.id c.name)] else []

/-- Inserts classes one after the other. -/
def insertAll (m : ClassModel) : List ClassType → Noted ClassModel
  | [] => pure m
  | c :: rest => do
    Noted.noteAll (m.insertionEvents c)
    (m.insert c).insertAll rest

/-! ## Offset tables -/

def hierarchy (m : ClassModel) : Hierarchy := ⟨m.abi, m.pointerSize, m.classes⟩

/-- The offset table of a class, and the model in which it is resolved. -/
def offsetTable (m : ClassModel) (id : ClassId) : Except ModelError BaseOffsetTable × ClassModel :=
  let (table, tables) := m.hierarchy.resolve id m.tables
  (table, { m with tables })

/-- The offset table of a class, if it is resolved already. -/
def resolvedTable? (m : ClassModel) (id : ClassId) : Option BaseOffsetTable := m.tables.find? id

/-- What there is to tell about the tables that are new in a model. -/
def resolutionEvents (before after : ClassModel) : List Event :=
  (after.tables.take (after.tables.length - before.tables.length)).reverse.map fun t =>
    .offsetsResolved t.owner t.size t.entries.length

/-- The offset table of a class, and the model in which it is resolved, with a journal. -/
def noteOffsetTable (m : ClassModel) (id : ClassId) :
    Noted (Except ModelError BaseOffsetTable × ClassModel) :=
  let found := m.offsetTable id
  ⟨found, resolutionEvents m found.2⟩

/-! ## Layouts -/

/-- The registered layout of a class. -/
def layout? (m : ClassModel) (id : ClassId) : Option Layout :=
  (m.typeName? id).bind m.types.get?

/-- Registers a layout, in place of that of the same name. -/
def registerLayout (m : ClassModel) (l : Layout) : ClassModel :=
  { m with types := m.types.register l }

/-! ## Attribution -/

def progressOf (m : ClassModel) (id : ClassId) : Progress := (m.progress.get? id).getD {}

def setProgress (m : ClassModel) (id : ClassId) (p : Progress) : ClassModel :=
  { m with progress := m.progress.insert id p }

def state (m : ClassModel) (id : ClassId) : AttributionState := (m.progressOf id).state

def setState (m : ClassModel) (id : ClassId) (state : AttributionState) : ClassModel :=
  m.setProgress id { m.progressOf id with state }

def isInterrupted (m : ClassModel) (id : ClassId) : Bool := (m.progressOf id).interrupted

/-- Marks a class as interrupted, or as finished: then its analysed candidates are forgotten. -/
def setInterrupted (m : ClassModel) (id : ClassId) (interrupted : Bool) : ClassModel :=
  let p := m.progressOf id
  m.setProgress id
    (if interrupted then { p with interrupted } else { p with interrupted, analyzed := .empty })

/-- Whether the attribution of a class has not run, or stopped before it was finished. -/
def needsAttribution (m : ClassModel) (id : ClassId) : Bool := (m.progressOf id).isOpen

/-- Records that a candidate was looked at. -/
def markAnalyzed (m : ClassModel) (id : ClassId) (function : Address) : ClassModel :=
  let p := m.progressOf id
  m.setProgress id { p with analyzed := p.analyzed.add function }

def isAnalyzed (m : ClassModel) (id : ClassId) (function : Address) : Bool :=
  (m.progressOf id).analyzed.contains function

/-- Records a function as a constructor or destructor, in place of what was recorded for it. -/
def record (m : ClassModel) (f : AttributedFunction) : ClassModel :=
  { m with attributed := m.attributed.insert f.function f }

/-- What there is to tell about recording a function. -/
def recordEvents (m : ClassModel) (f : AttributedFunction) : List Event :=
  let changed :=
    match m.attributed.get? f.function with
    | some old =>
      if old.owner ≠ f.owner ∨ old.role ≠ f.role then
        [.functionReattributed f.function old.owner f.owner]
      else []
    | none => []
  changed ++ [.functionAttributed f.function ((m.get? f.owner).elim "?" (·.name)) f.role]

/-- The function recorded for an address. -/
def attributed? (m : ClassModel) (function : Address) : Option AttributedFunction :=
  m.attributed.get? function

/-- All recorded functions, by address. -/
def attributedFunctions (m : ClassModel) : List AttributedFunction := m.attributed.values

end ClassModel

end ClassRecovery
