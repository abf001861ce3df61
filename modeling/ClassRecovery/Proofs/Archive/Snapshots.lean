/-
  What is saved is read back.

  A store of layouts is read back from JSON as it was written, and so is a snapshot of a program in which all
  doubles are numbers (`ProgramSnapshot.Finite`): nothing in them is lost or changed (`archive_lossless`).
-/
import ClassRecovery.Archive.Program
import ClassRecovery.Proofs.Archive.Types

namespace ClassRecovery

open Json

/-! ## Classes and their tables -/

@[simp]
theorem ThunkInfo.ofJson?_toJson (t : ThunkInfo) : ofJson? t.toJson = some t := by
  simp [toJson, ofJson?]

@[simp]
theorem VtableEntry.ofJson?_toJson (e : VtableEntry) : ofJson? e.toJson = some e := by
  have hthunk : nullable? ThunkInfo.ofJson? (ofOption ThunkInfo.toJson e.thunk) = some e.thunk :=
    nullable?_ofOption rfl fun t _ => t.ofJson?_toJson
  simp [toJson, ofJson?, hthunk]

theorem Vtable.ofJson?_toJson {v : Vtable} (h : v.confidence.isFinite = true) :
    ofJson? v.toJson = some v := by
  simp [toJson, ofJson?, float?_ofFloat h]

/-- How a base is inherited is read from its name. -/
theorem inheritanceNames_lookup (isVirtual : Bool) :
    inheritanceNames.lookup (if isVirtual then "virtual" else "non_virtual") = some isVirtual := by
  cases isVirtual <;> rfl

@[simp]
theorem BaseSpec.ofJson?_toJson (b : BaseSpec) : ofJson? b.toJson = some b := by
  obtain ⟨base, isVirtual, isPublic, offset⟩ := b
  cases offset with
  | none => simp [toJson, ofJson?, name?_str, inheritanceNames_lookup]
  | some offset =>
    have hoffset : nullable? word? (ofWord offset) = some (some offset) := nullable?_word (some offset)
    simp [toJson, ofJson?, name?_str, inheritanceNames_lookup, hoffset]

theorem ClassType.ofJson?_toJson {c : ClassType}
    (h : ∀ v, c.vtable = some v → v.confidence.isFinite = true) : ofJson? c.toJson = some c := by
  have hvtable : nullable? Vtable.ofJson? (ofOption Vtable.toJson c.vtable) = some c.vtable :=
    nullable?_ofOption rfl fun v hv => Vtable.ofJson?_toJson (h v hv)
  simp [toJson, ofJson?, hvtable]

/-! ## Settings -/

@[simp]
theorem Architecture.ofJson?_toJson (a : Architecture) : ofJson? a.toJson = some a := by
  cases a <;> rfl

@[simp]
theorem ByteOrder.ofJson?_toJson (o : ByteOrder) : ofJson? o.toJson = some o := by
  cases o <;> rfl

@[simp]
theorem Abi.ofJson?_toJson (a : Abi) : ofJson? a.toJson = some a := by
  cases a <;> rfl

theorem ScanConfig.ofJson?_toJson {c : ScanConfig} (h : c.minConfidence.isFinite = true) :
    ofJson? c.toJson = some c := by
  simp [toJson, ofJson?, float?_ofFloat h]

@[simp]
theorem AttributionConfig.ofJson?_toJson (c : AttributionConfig) : ofJson? c.toJson = some c := by
  simp [toJson, ofJson?]

@[simp]
theorem CastConfig.ofJson?_toJson (c : CastConfig) : ofJson? c.toJson = some c := by
  simp [toJson, ofJson?]

theorem AnalysisConfig.ofJson?_toJson {c : AnalysisConfig} (h : c.scan.minConfidence.isFinite = true) :
    ofJson? c.toJson = some c := by
  simp [toJson, ofJson?, ScanConfig.ofJson?_toJson h]

/-! ## Functions and references -/

@[simp]
theorem ParameterStorage.ofJson?_toJson (p : ParameterStorage) : ofJson? p.toJson = some p := by
  cases p <;> simp [toJson, ofJson?]

@[simp]
theorem FunctionInfo.ofJson?_toJson (f : FunctionInfo) : ofJson? f.toJson = some f := by
  simp [toJson, ofJson?]

@[simp]
theorem ReferenceKind.ofJson?_toJson (k : ReferenceKind) : ofJson? k.toJson = some k := by
  cases k <;> rfl

@[simp]
theorem Reference.ofJson?_toJson (r : Reference) : ofJson? r.toJson = some r := by
  simp [toJson, ofJson?]

/-! ## Decompiled bodies -/

@[simp]
theorem nullable?_variable (v : Option Variable) :
    nullable? word32? (ofOption ofVariable v) = some v :=
  nullable?_ofOption rfl fun v _ => word32?_int v

@[simp]
theorem ThisArgument.ofJson?_toJson (a : ThisArgument) : ofJson? a.toJson = some a := by
  simp [toJson, ofJson?]

@[simp]
theorem CallSite.ofJson?_toJson (c : CallSite) : ofJson? c.toJson = some c := by
  have hthis : nullable? ThisArgument.ofJson? (ofOption ThisArgument.toJson c.thisArgument) =
      some c.thisArgument := nullable?_ofOption rfl fun a _ => a.ofJson?_toJson
  simp [toJson, ofJson?, hthis]

@[simp]
theorem FunctionBody.ofJson?_toJson (b : FunctionBody) : ofJson? b.toJson = some b := by
  simp [toJson, ofJson?]

/-! ## Snapshots -/

@[simp]
theorem RegisterConstant.ofJson?_toJson (c : RegisterConstant) : ofJson? c.toJson = some c := by
  simp [toJson, ofJson?]

@[simp]
theorem DelaySlot.ofJson?_toJson (s : DelaySlot) : ofJson? s.toJson = some s := by
  simp [toJson, ofJson?]

@[simp]
theorem Section.ofJson?_toJson (s : Section) : ofJson? s.toJson = some s := by
  simp [toJson, ofJson?]

@[simp]
theorem RecordKind.ofJson?_toJson (k : RecordKind) : ofJson? k.toJson = some k := by
  cases k <;> rfl

@[simp]
theorem RecordTable.ofJson?_toJson (t : RecordTable) : ofJson? t.toJson = some t := by
  simp [toJson, ofJson?]

/-- All doubles in the snapshot are numbers. -/
structure ProgramSnapshot.Finite (s : ProgramSnapshot) : Prop where
  config : ∀ c, s.config = some c → c.scan.minConfidence.isFinite = true
  classes : ∀ c ∈ s.classes, ∀ v, c.vtable = some v → v.confidence.isFinite = true

theorem ProgramSnapshot.ofJson?_toJson {s : ProgramSnapshot} (hs : s.Finite) :
    ofJson? s.toJson = some s := by
  have hconfig : nullable? AnalysisConfig.ofJson? (ofOption AnalysisConfig.toJson s.config) =
      some s.config := nullable?_ofOption rfl fun c hc => AnalysisConfig.ofJson?_toJson (hs.config c hc)
  have hclasses : list? ClassType.ofJson? (ofList ClassType.toJson s.classes) = some s.classes :=
    list?_ofList fun c hc => ClassType.ofJson?_toJson (hs.classes c hc)
  simp [toJson, ofJson?, hconfig, hclasses]

/-! ## Overrides and type descriptors -/

theorem CallSiteOverride.ofJson?_toJson (o : CallSiteOverride) : ofJson? o.toJson = some o := by
  simp [toJson, ofJson?, Prototype.ofJson?_toJson]

@[simp]
theorem BaseFlags.ofJson?_toJson (f : BaseFlags) : ofJson? f.toJson = some f := by
  simp [toJson, ofJson?]

@[simp]
theorem HierarchyFlags.ofJson?_toJson (f : HierarchyFlags) : ofJson? f.toJson = some f := by
  simp [toJson, ofJson?]

@[simp]
theorem BaseRecord.ofJson?_toJson (b : BaseRecord) : ofJson? b.toJson = some b := by
  simp [toJson, ofJson?]

theorem BaseRecord.isReadable_toJson (b : BaseRecord) : b.toJson.isReadable = true := by
  obtain ⟨descriptor, name, offset, flags⟩ := b
  cases name <;> simp [toJson, BaseFlags.toJson, isReadable, haveReadable, ofOption, ofWord, ofSigned]

theorem DescriptorKind.isReadable_toJson (k : DescriptorKind) : k.toJson.isReadable = true := by
  cases k with
  | noBase | unknown => rfl
  | single base => simp [toJson, isReadable, haveReadable, base.isReadable_toJson]
  | multiple flags bases =>
    have hflags : flags.toJson.isReadable = true := rfl
    have hbases : (ofList BaseRecord.toJson bases).isReadable = true := by
      rw [ofList, isReadable, areReadable_iff]
      exact List.forall_mem_map.mpr fun b _ => b.isReadable_toJson
    simp [toJson, isReadable, haveReadable, hflags, hbases]

@[simp]
theorem DescriptorKind.ofJson?_toJson (k : DescriptorKind) : ofJson? k.toJson = some k := by
  rw [ofJson?, guard_isReadable k.isReadable_toJson]
  cases k <;> simp [toJson]

theorem TypeDescriptor.ofJson?_toJson (d : TypeDescriptor) : ofJson? d.toJson = some d := by
  simp [toJson, ofJson?]

/-! ## The archive -/

/-- **Archiving loses nothing.**  Stores of layouts are read back as they were written, and so are snapshots, as
    long as every double in them is a number. -/
theorem archive_lossless :
    (∀ db : TypeDatabase, TypeDatabase.ofJson? db.toJson = some db) ∧
    (∀ s : ProgramSnapshot, s.Finite → ProgramSnapshot.ofJson? s.toJson = some s) ∧
    (∀ o : CallSiteOverride, CallSiteOverride.ofJson? o.toJson = some o) ∧
    ∀ d : TypeDescriptor, TypeDescriptor.ofJson? d.toJson = some d :=
  ⟨TypeDatabase.ofJson?_toJson, fun _ hs => ProgramSnapshot.ofJson?_toJson hs,
    CallSiteOverride.ofJson?_toJson, TypeDescriptor.ofJson?_toJson⟩

/-- A snapshot with settings, a function with parameters of both kinds, and a class with a thunk in its table and
    with bases of both kinds. -/
def shapeSnapshot : ProgramSnapshot where
  config := some { AnalysisConfig.forArch .mips32 with abi := .msvc }
  functions := [{ entry := 0x1000, name := "draw", parameters := [.register "a0", .stack (-8)] }]
  sections := [⟨".rodata", 0x4000, #[0, 255]⟩]
  classes :=
    [{ id := 1
       name := "Shape"
       bases := [⟨2, true, false, none⟩, ⟨3, false, true, some 16⟩]
       vtable := some
        { address := 0x4000
          offsetToTop := some (-16)
          entries := [{ offset := 0, target := 0x1000, thunk := some ⟨-16, 0x1010⟩ }]
          confidence := 0.5 } }]

theorem archive_lossless_shape :
    shapeSnapshot.Finite ∧ ProgramSnapshot.ofJson? shapeSnapshot.toJson = some shapeSnapshot := by
  have hfinite : shapeSnapshot.Finite := by
    constructor
    · rintro c ⟨⟩
      decide
    · intro c hc v hv
      obtain rfl := List.mem_singleton.mp hc
      cases hv
      decide
  exact ⟨hfinite, archive_lossless.2.1 shapeSnapshot hfinite⟩

end ClassRecovery
