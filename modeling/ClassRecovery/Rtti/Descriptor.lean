/-
  Type descriptors: what the run-time type information of a program says about its classes.

  A descriptor is one of three records: of a class without bases, of a class with a
  single public non-virtual base at offset zero, or of a class with any other list of bases.
-/
import ClassRecovery.Word

namespace ClassRecovery

/-- The flag word of a base in a record with a list of bases. -/
structure BaseFlags where
  isVirtual : Bool
  isPublic : Bool
  raw : Word
  deriving DecidableEq, Repr

namespace BaseFlags

/-- The flags of a single base. -/
def publicBase : BaseFlags := ⟨false, true, 2⟩

/-- Splits the word of a base into its flags, in the lowest byte, and its offset, above them. -/
def split (word : Int64) : BaseFlags × Int64 :=
  let raw := word.toUInt64
  (⟨raw &&& 1 != 0, raw &&& 2 != 0, raw⟩, word >>> 8)

end BaseFlags

/-- The flags of a record with a list of bases. -/
structure HierarchyFlags where
  /-- Some base occurs several times, not virtually. -/
  repeated : Bool
  /-- Some base is shared by several paths. -/
  diamond : Bool
  raw : UInt32
  deriving DecidableEq, Repr

def HierarchyFlags.ofRaw (raw : UInt32) : HierarchyFlags := ⟨raw &&& 1 != 0, raw &&& 2 != 0, raw⟩

/-- A base in a descriptor. -/
structure BaseRecord where
  /-- The address of the base's own descriptor. -/
  descriptor : Address
  /-- The name of the base, if its descriptor could be read. -/
  name : Option String
  /-- For a non-virtual base its offset in the object, for a virtual one the place of its
      displacement in the table of virtual functions. -/
  offset : Int64
  flags : BaseFlags
  deriving DecidableEq, Repr

/-- What a descriptor says about the bases. -/
inductive DescriptorKind where
  | noBase
  | single (base : BaseRecord)
  | multiple (flags : HierarchyFlags) (bases : List BaseRecord)
  /-- The record is cut off. -/
  | unknown
  deriving DecidableEq, Repr

namespace DescriptorKind

/-- The direct bases, in order of declaration. -/
def bases : DescriptorKind → List BaseRecord
  | single base => [base]
  | multiple _ bases => bases
  | noBase | unknown => []

/-- The name of the record type. -/
def typeName : DescriptorKind → String
  | noBase | unknown => "__class_type_info"
  | single _ => "__si_class_type_info"
  | multiple _ _ => "__vmi_class_type_info"

end DescriptorKind

/-- A type descriptor. -/
structure TypeDescriptor where
  address : Address
  name : String
  mangledName : String
  kind : DescriptorKind
  /-- The address point of the descriptor's own table of virtual functions. -/
  vtable : Address
  deriving DecidableEq, Repr

/-- The three kinds of records, known by the tables of virtual functions of their classes. -/
inductive RecordKind where
  | plain
  | single
  | multiple
  deriving DecidableEq, Repr

end ClassRecovery
