/-
  The classes that are discovered in a program.

  The model has the classes of the descriptors that tables lead to, and those that the program describes
  (`Program.contains_discovered`).  A class that the program does not describe is that of a descriptor, and its table
  is one of those that were found (`Program.exists_descriptor_of_discovered`).
-/
import ClassRecovery.Model.Discovery
import ClassRecovery.Proofs.Lists
import ClassRecovery.Proofs.Model.Names
import ClassRecovery.Proofs.Model.Operations

namespace ClassRecovery

/-! ## Classes of descriptors -/

theorem mem_of_addPrimary {tables : List Vtable} {primaries : OrderedMap Address Vtable}
    {descriptor : Address} {v : Vtable}
    (h : (tables.foldl addPrimary primaries).get? descriptor = some v) :
    v ∈ tables ∨ primaries.get? descriptor = some v := by
  induction tables generalizing primaries with
  | nil => exact .inr h
  | cons v' tables ih =>
    rcases ih h with hmem | hget
    · exact .inl (List.mem_cons_of_mem _ hmem)
    · unfold addPrimary at hget
      split at hget
      · split at hget
        · exact .inr hget
        · rw [OrderedMap.get?_insert] at hget
          split at hget
          · exact .inl (Option.some.inj hget ▸ List.mem_cons_self)
          · exact .inr hget
      · exact .inr hget

theorem exists_of_mem_classesOf {primaries : OrderedMap Address Vtable} {descriptors : List TypeDescriptor}
    {c : ClassType} (h : c ∈ classesOf primaries descriptors) :
    ∃ d ∈ descriptors, ∃ table, c = d.toClass table ∧
      ∀ v, table = some v → ∃ descriptor, primaries.get? descriptor = some v := by
  induction descriptors generalizing primaries with
  | nil => cases h
  | cons d descriptors ih =>
    rcases List.mem_cons.mp h with rfl | hmem
    · exact ⟨d, List.mem_cons_self, _, rfl, fun v hv => ⟨d.address, hv⟩⟩
    · obtain ⟨d', hd', table, rfl, htable⟩ := ih hmem
      refine ⟨d', List.mem_cons_of_mem _ hd', table, rfl, fun v hv => ?_⟩
      obtain ⟨descriptor, hget⟩ := htable v hv
      rw [OrderedMap.get?_erase] at hget
      split at hget
      · cases hget
      · exact ⟨descriptor, hget⟩

namespace ClassModel

theorem exists_of_get?_insertions {m : ClassModel} {classes : List ClassType} {id : ClassId}
    {c : ClassType} (h : (m.applyAll (classes.map .insert)).get? id = some c) :
    m.get? id = some c ∨ ∃ c' ∈ classes, c'.id = id ∧ c = stored c' := by
  induction classes generalizing m with
  | nil => exact .inl h
  | cons c₀ classes ih =>
    rcases ih h with hget | ⟨c', hmem, hid, hstored⟩
    · replace hget := (get?_insert m c₀ id).symm.trans hget
      split at hget
      · next hid => exact .inr ⟨c₀, List.mem_cons_self, hid.symm, (Option.some.inj hget).symm⟩
      · exact .inl hget
    · exact .inr ⟨c', List.mem_cons_of_mem _ hmem, hid, hstored⟩

end ClassModel

/-! ## Discovered classes -/

namespace Program

/-- The tables of virtual functions in the sections of a program. -/
def scannedTables (p : Program) (pointers : PointerFormat) (config : ScanConfig) : List Vtable :=
  (p.detector pointers config).scanSections (p.sections.map fun s => (s.name, s.address, s.region))

/-- The descriptors that tables lead to, none if they cannot be read. -/
def scannedDescriptors (p : Program) (pointers : PointerFormat) (tables : List Vtable) :
    List TypeDescriptor :=
  let roots : OrderedSet Address := .ofList (tables.filterMap fun v => v.descriptor.map fun d => (d, ()))
  match DescriptorSource.ofSections p.sections with
  | .ok (source, _) => (source.collect (p.recordFormat pointers) roots.keys).value
  | .error _ => []

variable {p : Program} {config : AnalysisConfig} {noted : Noted ClassModel}

/-- **When classes are discovered**: if pointers are of a size that can be read, and descriptors have a source. -/
theorem exists_discoverClasses_iff :
    (∃ discovered, p.discoverClasses config = .ok discovered) ↔
      (∃ pointers, config.pointerFormat? = .ok pointers) ∧
        ∃ source, DescriptorSource.ofSections p.sections = .ok source := by
  unfold discoverClasses
  cases config.pointerFormat? with
  | error e => simp [Except.mapError, bind, Except.bind]
  | ok pointers =>
    cases DescriptorSource.ofSections p.sections <;> simp [Except.mapError, bind, Except.bind, pure, Except.pure]

/-- **The discovered classes** are those of the descriptors, with the tables that lead to these, and those that
    the program describes. -/
theorem value_discoverClasses (h : p.discoverClasses config = .ok noted) :
    ∃ pointers, config.pointerFormat? = .ok pointers ∧
      let tables := p.scannedTables pointers config.scan
      noted.value = .ofClasses config.abi config.pointerSize
        (classesOf (tables.foldl addPrimary .empty) (p.scannedDescriptors pointers tables) ++
          p.classes) := by
  obtain ⟨pointers, hpointers, hnoted⟩ := bind_eq_ok_iff.mp h
  obtain ⟨⟨source, events⟩, hsource, hnoted⟩ := bind_eq_ok_iff.mp hnoted
  refine ⟨pointers, mapError_eq_ok_iff.mp hpointers, ?_⟩
  cases hnoted
  simp only [Noted.value_bind, Noted.value_pure, ClassModel.ofDescriptors, ClassModel.value_insertAll,
    ClassModel.ofClasses, List.map_append, scannedDescriptors, hsource]
  exact List.foldl_append.symm

/-- The same, where the format of pointers is known. -/
theorem value_discovered (h : p.discoverClasses config = .ok noted) {pointers : PointerFormat}
    (hpointers : config.pointerFormat? = .ok pointers) :
    let tables := p.scannedTables pointers config.scan
    noted.value = .ofClasses config.abi config.pointerSize
      (classesOf (tables.foldl addPrimary .empty) (p.scannedDescriptors pointers tables) ++ p.classes) := by
  obtain ⟨pointers', hpointers', hvalue⟩ := value_discoverClasses h
  obtain rfl := Except.ok.inj (hpointers.symm.trans hpointers')
  exact hvalue

/-- **A class that the program does not describe** is that of a descriptor, with a table that was found. -/
theorem exists_descriptor_of_discovered (h : p.discoverClasses config = .ok noted) {pointers : PointerFormat}
    (hpointers : config.pointerFormat? = .ok pointers) {id : ClassId} {c : ClassType}
    (hc : noted.value.get? id = some c) (hscanned : id ∉ p.classes.map (·.id)) :
    let tables := p.scannedTables pointers config.scan
    ∃ d ∈ p.scannedDescriptors pointers tables, ∃ table, c = ClassModel.stored (d.toClass table) ∧
      ∀ v, table = some v → v ∈ tables := by
  rw [value_discovered h hpointers] at hc
  rcases ClassModel.exists_of_get?_insertions hc with hnone | ⟨c', hmem, rfl, rfl⟩
  · cases hnone
  · rcases List.mem_append.mp hmem with hmem | hmem
    · obtain ⟨d, hd, table, rfl, htable⟩ := exists_of_mem_classesOf hmem
      refine ⟨d, hd, table, rfl, fun v hv => ?_⟩
      obtain ⟨descriptor, hget⟩ := htable v hv
      exact (mem_of_addPrimary hget).resolve_right (by rintro ⟨⟩)
    · exact absurd (List.mem_map_of_mem hmem) hscanned

/-- **The table of a scanned class** is one of the scanned tables. -/
theorem mem_scannedTables_of_discovered (h : p.discoverClasses config = .ok noted) {id : ClassId}
    {c : ClassType} (hc : noted.value.get? id = some c) (hscanned : id ∉ p.classes.map (·.id))
    {v : Vtable} (hv : c.vtable = some v) :
    ∃ pointers, ∃ v' ∈ p.scannedTables pointers config.scan, v'.entries = v.entries := by
  obtain ⟨pointers, hpointers, -⟩ := value_discoverClasses h
  obtain ⟨d, -, table, rfl, htable⟩ := exists_descriptor_of_discovered h hpointers hc hscanned
  obtain ⟨v', hv', rfl⟩ := Option.map_eq_some_iff.mp hv
  exact ⟨pointers, v', htable v' hv', rfl⟩

end Program

end ClassRecovery
