/-
  Reading type descriptors out of memory.

  A record begins with two pointers, to the table of virtual functions of its record class and to its
  mangled name.  A record with a single base continues with the address of the
  base's descriptor.  A record with a list of bases continues with 32-bit flags, a
  32-bit count, and for every base the address of its descriptor and a signed word that holds
  flags in its lowest byte and an offset above them.

  The kind of a record is given by its table where that is known, and guessed from the third word where not.
  A reader keeps the descriptors it has read.  To name the bases of a descriptor it reads
  theirs; a descriptor that is met again while it is being read stays unnamed.
-/
import ClassRecovery.Memory
import ClassRecovery.OrderedMap
import ClassRecovery.Rtti.Descriptor
import ClassRecovery.Rtti.Mangled

namespace ClassRecovery

/-- Memory that begins at an address. -/
structure Image where
  base : Address
  region : Region

/-- The position of an address, if it is not below the image. -/
def Image.position? (image : Image) (address : Address) : Option Nat :=
  if image.base ≤ address then some (address - image.base).toNat else none

/-- How records are read: the format of pointers, and the tables of the record classes. -/
structure RecordFormat where
  pointers : PointerFormat
  kinds : OrderedMap Address RecordKind

/-- The descriptors read so far, the latest first. -/
abbrev DescriptorCache := List TypeDescriptor

def DescriptorCache.find? (cache : DescriptorCache) (address : Address) : Option TypeDescriptor :=
  List.find? (fun d => d.address == address) cache

/-- The part that all records begin with. -/
structure RecordHead where
  position : Nat
  vtable : Address
  mangledName : String
  deriving DecidableEq, Repr

namespace RecordFormat

variable (format : RecordFormat) (image : Image)

/-- The most bases a record of unknown kind is taken to have. -/
def maxGuessedBases : UInt32 := 100

/-- The head of the record at an address. -/
def head? (address : Address) : Option RecordHead := do
  let position ← image.position? address
  let vtable ← format.pointers.pointer? image.region position
  let name ← format.pointers.pointer? image.region (position + format.pointers.size)
  let mangledName ← image.region.text? (← image.position? name)
  return ⟨position, vtable, mangledName⟩

/-- Whether a record seems to stand at an address: its first two words are not null, and the
    second one leads to a digit or an `N`. -/
def seemsRecord (address : Address) : Bool :=
  let found : Option Bool := do
    let position ← image.position? address
    let vtable ← format.pointers.pointer? image.region position
    let name ← format.pointers.pointer? image.region (position + format.pointers.size)
    let first ← image.position? name
    let byte ← (image.region.slice? first 1).bind List.head?
    return vtable != 0 && name != 0 && ((48 ≤ byte && byte ≤ 57) || byte == 78)
  found.getD false

/-- The kind of a record. -/
def kindOf (head : RecordHead) : RecordKind :=
  match format.kinds.get? head.vtable with
  | some kind => kind
  | none =>
    let third := head.position + 2 * format.pointers.size
    let seemsSingle :=
      (format.pointers.pointer? image.region third).any (format.seemsRecord image)
    if seemsSingle then .single
    else match format.pointers.word32? image.region third,
        format.pointers.word32? image.region (third + 4) with
      | some flags, some count =>
        if 0 < count && count ≤ maxGuessedBases && flags ≤ 3 then .multiple else .plain
      | _, _ => .plain

/-- Reads a base's descriptor, given the descriptors read so far. -/
abbrev BaseReader := Address → DescriptorCache → Option TypeDescriptor × DescriptorCache

/-- The single base of a record. -/
def singleBase (readBase : BaseReader) (head : RecordHead) (cache : DescriptorCache) :
    DescriptorKind × DescriptorCache :=
  match format.pointers.pointer? image.region (head.position + 2 * format.pointers.size) with
  | none => (.unknown, cache)
  | some base =>
    let (descriptor, cache) := readBase base cache
    (.single ⟨base, descriptor.map (·.name), 0, .publicBase⟩, cache)

/-- The two words that stand for a base at a position. -/
def baseWords? (position : Nat) : Option (Address × Int64) := do
  let base ← format.pointers.pointer? image.region position
  let word ← format.pointers.signedPointer? image.region (position + format.pointers.size)
  return (base, word)

/-- The bases of a list of the given length at a position, unless it is cut off. -/
def baseList (readBase : BaseReader) :
    Nat → Nat → DescriptorCache → Option (List BaseRecord) × DescriptorCache
  | 0, _, cache => (some [], cache)
  | count + 1, position, cache =>
    match format.baseWords? image position with
    | none => (none, cache)
    | some (base, word) =>
      let (descriptor, cache) := readBase base cache
      let (flags, offset) := BaseFlags.split word
      let (rest, cache) :=
        baseList readBase count (position + 2 * format.pointers.size) cache
      (rest.map (⟨base, descriptor.map (·.name), offset, flags⟩ :: ·), cache)

/-- The list of bases of a record. -/
def multipleBases (readBase : BaseReader) (head : RecordHead) (cache : DescriptorCache) :
    DescriptorKind × DescriptorCache :=
  let third := head.position + 2 * format.pointers.size
  match format.pointers.word32? image.region third,
      format.pointers.word32? image.region (third + 4) with
  | some flags, some count =>
    let (bases, cache) := format.baseList image readBase count.toNat (third + 8) cache
    (bases.elim .unknown (.multiple (HierarchyFlags.ofRaw flags)), cache)
  | _, _ => (.unknown, cache)

/-- The bases of a record of the given kind. -/
def bases (readBase : BaseReader) (kind : RecordKind) (head : RecordHead)
    (cache : DescriptorCache) : DescriptorKind × DescriptorCache :=
  match kind with
  | .plain => (.noBase, cache)
  | .single => format.singleBase image readBase head cache
  | .multiple => format.multipleBases image readBase head cache

/-- The descriptor at an address, while those in `pending` are being read. -/
def readWithin : Nat → List Address → BaseReader
  | 0, _, _, cache => (none, cache)
  | fuel + 1, pending, address, cache =>
    match cache.find? address with
    | some d => (some d, cache)
    | none =>
      if pending.contains address then (none, cache)
      else match format.head? image address with
        | none => (none, cache)
        | some head =>
          let (kind, cache) :=
            format.bases image (readWithin fuel (address :: pending))
              (format.kindOf image head) head cache
          let d : TypeDescriptor :=
            { address
              name := demangle head.mangledName
              mangledName := head.mangledName
              kind
              vtable := head.vtable }
          (some d, d :: cache)

/-- The descriptor at an address.  Descriptors being read have different addresses in the image, so
    there are never more of them than bytes. -/
def read (address : Address) (cache : DescriptorCache) : Option TypeDescriptor × DescriptorCache :=
  format.readWithin image (image.region.size + 1) [] address cache

end RecordFormat

end ClassRecovery
