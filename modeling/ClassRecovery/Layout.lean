/-
  Memory layouts of classes.

  A layout is a list of fields at byte offsets.  `Layout.overwrite` puts a field in place
  and evicts every field that shares a byte with it, so a layout that is built by overwriting never holds
  overlapping fields.
-/
import ClassRecovery.CType
import ClassRecovery.Text.Quoted

namespace ClassRecovery

/-! ## Fields -/

/-- What a field holds. -/
inductive FieldKind where
  /-- Bytes of no known type. -/
  | undefined
  /-- A pointer to the class's table of virtual functions, with the type of the table where known. -/
  | virtualPointer (table : Option String)
  /-- A pointer to the table of displacements of virtual bases. -/
  | virtualBasePointer
  /-- An embedded base sub-object, by the name of its layout. -/
  | base (layout : String)
  | member (type : CType)
  deriving DecidableEq, Repr

/-- A field at a fixed offset. -/
structure Field where
  name : String
  offset : Word
  size : Word
  kind : FieldKind
  deriving DecidableEq, Repr

namespace Field

/-- What the names of embedded bases begin with. -/
def inheritedMark : String := "super_"

/-- The words of letters, digits and underscores in a class name, joined by underscores. -/
def identifier (className : String) : String :=
  let keep (c : Char) : Char := if c.isAlphanum then c else '_'
  let parts := ((className.toList.map keep).splitOnP (· == '_')).filter (!·.isEmpty)
  "_".intercalate (parts.map String.ofList)

/-- Bytes of no known type, named after their offset. -/
def undefined (offset size : Word) : Field :=
  ⟨"field_" ++ hex offset, offset, size, .undefined⟩

def virtualPointer (name : String) (offset pointerSize : Word) (table : Option String) : Field :=
  ⟨name, offset, pointerSize, .virtualPointer table⟩

def virtualBasePointer (name : String) (offset pointerSize : Word) : Field :=
  ⟨name, offset, pointerSize, .virtualBasePointer⟩

/-- An embedded base of the given class, with the given layout. -/
def base (className layout : String) (offset size : Word) : Field :=
  ⟨inheritedMark ++ identifier className, offset, size, .base layout⟩

/-- A data member.  A type without a size counts as one byte, as does one of size zero. -/
def member (name : String) (offset : Word) (type : CType) (pointerSize : Word) : Field :=
  ⟨name, offset, max ((type.size? pointerSize).getD 1) 1, .member type⟩

/-- The position behind the last byte. -/
def stop (f : Field) : Word := saturatingAdd f.offset f.size

/-- Whether the field has a byte at a position from `start` on and before `stop`. -/
def overlaps (f : Field) (start stop : Word) : Bool := f.offset < stop && start < f.stop

/-- Whether the name marks the field as inherited. -/
def isInherited (f : Field) : Bool := inheritedMark.toList.isPrefixOf f.name.toList

def isUndefined (f : Field) : Bool := f.kind == .undefined

/-- Whether the field is an embedded base. -/
def isBase (f : Field) : Bool :=
  match f.kind with
  | .base _ => true
  | _ => false

/-- The C type shown for the field. -/
def typeText (f : Field) : String :=
  match f.kind with
  | .undefined => "unsigned char[" ++ toString f.size.toNat ++ "]"
  | .virtualPointer (some table) => table ++ " *"
  | .virtualPointer none => "void * *"
  | .virtualBasePointer => "int *"
  | .base layout => layout
  | .member type => type.declare none

end Field

/-! ## Layouts -/

/-- The memory layout of one class. -/
structure Layout where
  name : String
  /-- In ascending order of their offsets. -/
  fields : List Field
  size : Word
  alignment : Word
  deriving DecidableEq, Repr

/-- Why a field cannot be put in place. -/
inductive LayoutError where
  | zeroSized (name : String)
  | overflow (name : String) (offset : Word)
  deriving DecidableEq, Repr

def LayoutError.message : LayoutError → String
  | zeroSized name => "field " ++ quoted name ++ " has zero size"
  | overflow name offset =>
    "field " ++ quoted name ++ " at offset " ++ hex offset ++ " overflows the address space"

/-- Bisection of the `size` positions from `base` on: the position behind the last one of which `below`
    holds, if `below` holds of a front part of them only. -/
def bisect (below : Nat → Bool) (base size : Nat) : Nat :=
  if size ≤ 1 then
    if size = 1 && below base then base + 1 else base
  else
    let half := size / 2
    bisect below (if below (base + half) then base + half else base) (size - half)
termination_by size

namespace Layout

/-- A layout without fields.  An alignment of zero counts as one. -/
def empty (name : String) (size alignment : Word) : Layout := ⟨name, [], size, max alignment 1⟩

/-- The first field with a byte at `offset`. -/
def fieldAt? (l : Layout) (offset : Word) : Option Field :=
  l.fields.find? fun f => f.offset ≤ offset && offset < f.stop

def fieldNamed? (l : Layout) (name : String) : Option Field :=
  l.fields.find? fun f => f.name == name

/-- Puts a field into a list of fields, behind those with a smaller offset. -/
def place (f : Field) (fields : List Field) : List Field :=
  let below (i : Nat) : Bool := fields[i]?.any fun g => g.offset < f.offset
  let i := bisect below 0 fields.length
  fields.take i ++ f :: fields.drop i

/-- Puts a field in place of all fields that share a byte with it: the evicted fields, and the
    layout with the new one, grown to hold it. -/
def overwrite (l : Layout) (f : Field) : Except LayoutError (List Field × Layout) :=
  if f.size = 0 then .error (.zeroSized f.name)
  else match checkedAdd f.offset f.size with
    | none => .error (.overflow f.name f.offset)
    | some stop =>
      let (evicted, kept) := l.fields.partition fun g => g.overlaps f.offset stop
      .ok (evicted, { l with fields := place f kept, size := max l.size stop })

/-- The layout with at least the given size. -/
def growTo (l : Layout) (size : Word) : Layout := { l with size := max l.size size }

/-- Whether some field reaches beyond the beginning of the next. -/
def hasOverlaps (l : Layout) : Bool :=
  (l.fields.zip l.fields.tail).any fun p => p.2.offset < p.1.stop

/-- The embedded bases. -/
def baseFields (l : Layout) : List Field := l.fields.filter Field.isBase

/-- The C definition. -/
def text (l : Layout) : String :=
  let line (f : Field) : String :=
    "    " ++ f.typeText ++ " " ++ f.name ++ "; // offset " ++ hex f.offset ++ "\n"
  "struct " ++ l.name ++ " \x7b\n" ++ String.join (l.fields.map line) ++
    "\x7d; // size: " ++ toString l.size.toNat ++ " bytes"

end Layout

end ClassRecovery
