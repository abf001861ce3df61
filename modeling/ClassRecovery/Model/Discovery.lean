/-
  Discovering the classes of a program.

  Sections are scanned for tables of virtual functions.  The tables lead to type descriptors, and these to
  the descriptors of bases.  Every descriptor becomes a class, with the table that
  leads to it; classes that the program describes directly are put on top.
-/
import ClassRecovery.Model
import ClassRecovery.Program.Basic
import ClassRecovery.Rtti.Record
import ClassRecovery.Vtable.Scan

namespace ClassRecovery

/-! ## Classes from descriptors -/

/-- Adds a table to the main tables by descriptor: of several the one with the lowest
    address is kept. -/
def addPrimary (primaries : OrderedMap Address Vtable) (v : Vtable) : OrderedMap Address Vtable :=
  match v.isPrimary, v.descriptor with
  | true, some descriptor =>
    if (primaries.get? descriptor).any fun known => known.address ≤ v.address then primaries
    else primaries.insert descriptor v
  | _, _ => primaries

/-- The base that a descriptor names.  Only for a non-virtual base is the recorded offset one in the
    object. -/
def BaseRecord.spec (b : BaseRecord) : BaseSpec where
  base := b.descriptor
  isVirtual := b.flags.isVirtual
  isPublic := b.flags.isPublic
  offset := if b.flags.isVirtual then none else wordOfSigned? b.offset

/-- The class that a descriptor stands for, with the given table. -/
def TypeDescriptor.toClass (d : TypeDescriptor) (vtable : Option Vtable) : ClassType where
  id := d.address
  name := d.name
  bases := d.kind.bases.map BaseRecord.spec
  vtable
  descriptorType := some d.kind.typeName

/-- The classes that descriptors stand for.  A table goes to the first descriptor it names. -/
def classesOf (primaries : OrderedMap Address Vtable) : List TypeDescriptor → List ClassType
  | [] => []
  | d :: rest =>
    d.toClass (primaries.get? d.address) :: classesOf (primaries.erase d.address) rest

/-- The model of the classes that descriptors and tables show. -/
def ClassModel.ofDescriptors (abi : Abi) (pointerSize : Word) (descriptors : List TypeDescriptor)
    (tables : List Vtable) : Noted ClassModel :=
  let m : ClassModel := { abi, pointerSize }
  m.insertAll (classesOf (tables.foldl addPrimary .empty) descriptors)

/-! ## Descriptors in sections -/

/-- The largest span of sections that is read as one image. -/
def maxImageSpan : Nat := 256 * 1024 * 1024

/-- Where descriptors are read: in one image of all sections, or in each section alone. -/
inductive DescriptorSource where
  | image (image : Image)
  | sections (sections : List Section)

/-- The byte of the last section that covers an address, or zero. -/
def byteAt (sections : List Section) (address : Address) : UInt8 :=
  match sections.reverse.find? (·.covers address) with
  | some s => s.region.byte (address - s.address).toNat
  | none => 0

namespace DescriptorSource

/-- The source for the given sections, and whether they were too far apart for one image.  The image ends where
    the last section does, but before the last address, so it has no room for a section that reaches
    this address. -/
def ofSections (sections : List Section) : Except DiscoveryError (DescriptorSource × List Event) :=
  match (sections.map (·.address)).min?, (sections.map Section.stop).max? with
  | some first, some stop =>
    let span := stop - first
    if maxImageSpan < span.toNat then .ok (.sections sections, [.sectionsTooFarApart span])
    else if sections.any fun s => span.toNat < (s.address - first).toNat + s.bytes.size then
      .error .sectionOutOfRange
    else
      let byte (i : Nat) : UInt8 := byteAt sections (first + UInt64.ofNat i)
      .ok (.image ⟨first, span.toNat, byte⟩, [])
  | _, _ => .ok (.sections sections, [])

/-- The descriptor at an address. -/
def read (source : DescriptorSource) (format : RecordFormat) (address : Address)
    (cache : DescriptorCache) : Option TypeDescriptor × DescriptorCache :=
  match source with
  | image i => format.read i address cache
  | sections all =>
    match all.find? (·.covers address) with
    | some s => format.read ⟨s.address, s.region⟩ address cache
    | none => (none, cache)

/-- A number that is not below that of the addresses at which descriptors can be read. -/
def bound : DescriptorSource → Nat
  | image i => i.region.size
  | sections all => all.foldl (fun n s => n + s.bytes.size) 0

end DescriptorSource

/-- The descriptors that were found, and the addresses at which none could be read. -/
structure DescriptorFindings where
  descriptors : List TypeDescriptor := []
  unreadable : List Address := []

/-- Reads the descriptors at the pending addresses, those of their bases, and so on.  `seen` are
    the addresses that were looked at; every descriptor that is read spends fuel. -/
def collectDescriptors (read : Address → DescriptorCache → Option TypeDescriptor × DescriptorCache)
    (fuel : Nat) (pending seen : List Address) (cache : DescriptorCache) : DescriptorFindings :=
  match fuel, pending with
  | 0, _ => {}
  | _, [] => {}
  | fuel + 1, address :: pending =>
    if seen.contains address then collectDescriptors read (fuel + 1) pending seen cache
    else match read address cache with
      | (none, cache) =>
        let found := collectDescriptors read (fuel + 1) pending (address :: seen) cache
        { found with unreadable := address :: found.unreadable }
      | (some d, cache) =>
        let bases := d.kind.bases.map (·.descriptor)
        let found :=
          collectDescriptors read fuel (bases.reverse ++ pending) (address :: seen) cache
        { found with descriptors := d :: found.descriptors }
termination_by (fuel, pending.length)

/-- The descriptors that can be reached from the roots, by address. -/
def DescriptorSource.collect (source : DescriptorSource) (format : RecordFormat)
    (roots : List Address) : Noted (List TypeDescriptor) := do
  let found := collectDescriptors (source.read format) (source.bound + 1) roots [] []
  Noted.noteAll (found.unreadable.map .unreadableDescriptor)
  return found.descriptors.mergeSort fun d e => d.address ≤ e.address

/-! ## Programs -/

namespace Program

/-- The names of the functions that fill the slots of functions without a body. -/
def pureHandlerNames : List String := ["__cxa_pure_virtual", "_purecall"]

/-- What the functions of the program say about tables. -/
def detector (p : Program) (pointers : PointerFormat) (config : ScanConfig) : VtableDetector :=
  let functions := p.functions.values
  { pointers
    config
    functions := .ofList (functions.map fun f => (f.entry, ()))
    code := functions.map fun f => (f.entry, saturatingAdd f.entry (max f.size 1))
    symbols := .ofList (functions.map fun f => (f.entry, f.name))
    pureHandlers :=
      .ofList ((functions.filter (pureHandlerNames.contains ·.name)).map fun f => (f.entry, ()))
    thunks :=
      .ofList (functions.filterMap fun f =>
        f.thunkTarget.map fun target => (f.entry, ⟨0, target⟩)) }

/-- How the records of the program are read. -/
def recordFormat (p : Program) (pointers : PointerFormat) : RecordFormat where
  pointers
  kinds := .ofList (p.recordTables.map fun t => (t.address, t.kind))

/-- The model of the classes of a program. -/
def discoverClasses (p : Program) (config : AnalysisConfig) :
    Except DiscoveryError (Noted ClassModel) := do
  let pointers ← config.pointerFormat?.mapError .target
  let (source, events) ← DescriptorSource.ofSections p.sections
  return do
    let tables := (p.detector pointers config.scan).scanSections
      (p.sections.map fun s => (s.name, s.address, s.region))
    let roots : OrderedSet Address :=
      .ofList (tables.filterMap fun v => v.descriptor.map fun d => (d, ()))
    Noted.noteAll events
    let descriptors ← source.collect (p.recordFormat pointers) roots.keys
    Noted.note (.sectionsScanned tables.length descriptors.length)
    let m ← ClassModel.ofDescriptors config.abi config.pointerSize descriptors tables
    let m ← m.insertAll p.classes
    Noted.note (.modelReady m.size)
    return m

end Program

end ClassRecovery
