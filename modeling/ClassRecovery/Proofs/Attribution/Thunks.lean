/-
  Thunks before the functions of a table.

  A function that refers to a table is taken to the end of its chain of thunks, however long.  A slot of a
  scanned table knows the next function behind a thunk (`VtableDetector.thunks_get?`), and no further.  So a
  candidate counts as a destructor if a slot leads to it through at most one thunk
  (`Program.role_of_discovered`), and behind two thunks a destructor counts as a constructor
  (`Program.constructor_behind_two_thunks`).
-/
import ClassRecovery.Attribution.Candidates
import ClassRecovery.Proofs.Discovery.Classes
import ClassRecovery.Proofs.Discovery.Sources
import ClassRecovery.Proofs.Program
import ClassRecovery.Proofs.Vtable.Scan

namespace ClassRecovery

/-! ## Chains of thunks -/

namespace Program

/-- One address leads to another through a number of thunks. -/
inductive LeadsTo (p : Program) : Nat → Address → Address → Prop where
  | here (address : Address) : LeadsTo p 0 address address
  | thunk {n : Nat} {address next last : Address} {f : FunctionInfo}
    (found : p.functionAt? address = some f) (isThunk : f.thunkTarget = some next)
    (rest : LeadsTo p n next last) : LeadsTo p (n + 1) address last

variable {p : Program} {address function : Address}

theorem leadsTo_zero_iff : p.LeadsTo 0 address function ↔ address = function := by
  constructor
  · rintro ⟨⟩
    rfl
  · rintro rfl
    exact .here address

theorem leadsTo_one_iff :
    p.LeadsTo 1 address function ↔ (p.functionAt? address).bind (·.thunkTarget) = some function := by
  rw [Option.bind_eq_some_iff]
  constructor
  · rintro (_ | ⟨hfound, hthunk, hrest⟩)
    exact ⟨_, hfound, leadsTo_zero_iff.mp hrest ▸ hthunk⟩
  · rintro ⟨f, hfound, hthunk⟩
    exact .thunk hfound hthunk (.here function)

end Program

/-! ## Slots -/

/-- **What is known about the thunks of a program** is where each of them goes on to. -/
theorem VtableDetector.thunks_get? (s : ProgramSnapshot) (pointers : PointerFormat)
    (config : ScanConfig) (address : Address) :
    let p := Program.ofSnapshot s
    (p.detector pointers config).thunks.get? address =
      ((p.functionAt? address).bind (·.thunkTarget)).map fun target => ⟨0, target⟩ := by
  intro p
  let link (f : FunctionInfo) : Option (Address × ThunkInfo) :=
    f.thunkTarget.map fun target => (f.entry, ⟨0, target⟩)
  have hkeys : (p.functions.values.map (·.entry)).Nodup := by
    have hsame : p.functions.values.map (·.entry) = p.functions.keys := by
      rw [OrderedMap.values, List.map_map, OrderedMap.keys]
      exact List.map_congr_left fun e he => Program.entry_of_mem_functions he
    exact hsame ▸ p.functions.nodup_keys
  have hnodup : ((p.functions.values.filterMap link).map (·.1)).Nodup := by
    refine List.pairwise_map.mpr (List.pairwise_filterMap.mpr ((List.pairwise_map.mp hkeys).imp ?_))
    intro f f' hne e he e' he'
    obtain ⟨target, -, rfl⟩ := Option.map_eq_some_iff.mp he
    obtain ⟨target', -, rfl⟩ := Option.map_eq_some_iff.mp he'
    exact hne
  refine Option.ext fun thunk => (OrderedMap.get?_ofList_eq_some_iff hnodup).trans ?_
  simp only [List.mem_filterMap, Option.map_eq_some_iff, Option.bind_eq_some_iff, link, Prod.mk.injEq]
  constructor
  · rintro ⟨f, hf, target, htarget, rfl, rfl⟩
    obtain ⟨⟨entry, f⟩, hmem, rfl⟩ := List.mem_map.mp hf
    obtain rfl := Program.entry_of_mem_functions hmem
    exact ⟨target, ⟨f, OrderedMap.get?_eq_some_iff.mpr hmem, htarget⟩, rfl⟩
  · rintro ⟨target, ⟨f, hf, htarget⟩, rfl⟩
    have hmem := OrderedMap.get?_eq_some_iff.mp hf
    exact ⟨f, List.mem_map.mpr ⟨_, hmem, rfl⟩, target, htarget,
      Program.entry_of_mem_functions hmem, rfl⟩

/-! ## Roles -/

/-- A destructor stands in the table, itself or behind the thunk of a slot. -/
theorem Vtable.roleOf_eq_destructor_iff {v : Vtable} {function : Address} :
    v.roleOf function = .destructor ↔
      ∃ e ∈ v.entries, e.target = function ∨ e.resolved = function := by
  have hcontains : v.containsFunction function = true ↔
      ∃ e ∈ v.entries, e.target = function ∨ e.resolved = function := by
    simp [containsFunction, or_iff_not_imp_left]
  rw [roleOf, ← hcontains]
  split <;> simp [*]

namespace Program

theorem role_of_mem_candidates {p : Program} {pointerSize : Word} {c : ClassType} {v : Vtable}
    (hv : c.validVtable? = some v) {candidate : Candidate}
    (h : candidate ∈ p.candidates pointerSize c) : candidate.role = v.roleOf candidate.function := by
  simp only [candidates, hv] at h
  obtain ⟨e, he, rfl⟩ := List.mem_map.mp h
  refine OrderedMap.forall_mem_ofList
    (P := fun e : Address × Candidate => e.2.role = v.roleOf e.2.function) (fun e he => ?_) e he
  obtain ⟨f, -, rfl⟩ := List.mem_map.mp he
  rfl

/-- **A slot that knows what the detector knows** leads to a function itself, or through its thunk. -/
theorem leads_of_fills {s : ProgramSnapshot} {pointers : PointerFormat} {config : ScanConfig}
    {e : VtableEntry} (h : ((ofSnapshot s).detector pointers config).Fills e) (function : Address) :
    e.target = function ∨ e.resolved = function ↔
      (ofSnapshot s).LeadsTo 0 e.target function ∨
        e.target ≠ 0 ∧ (ofSnapshot s).LeadsTo 1 e.target function := by
  rw [leadsTo_zero_iff, leadsTo_one_iff, VtableEntry.resolved]
  rcases h with ⟨hne, hthunk⟩ | ⟨hnull, hthunk⟩
  · rw [hthunk, VtableDetector.thunks_get?]
    cases ((ofSnapshot s).functionAt? e.target).bind (·.thunkTarget) with
    | none => simp
    | some target => simp [hne]
  · simp [hthunk, hnull]

/-- **When a candidate counts as a destructor.**  Of a class that is discovered in the sections, these are the
    candidates to which some slot of its table leads through at most one thunk; all others count as
    constructors. -/
theorem role_of_discovered {snapshot : ProgramSnapshot} {config : AnalysisConfig}
    {discovered : Noted ClassModel}
    (h : (ofSnapshot snapshot).discoverClasses config = .ok discovered) {id : ClassId} {c : ClassType}
    (hc : discovered.value.get? id = some c) (hscanned : id ∉ snapshot.classes.map (·.id)) {v : Vtable}
    (hv : c.validVtable? = some v) {pointerSize : Word} {candidate : Candidate}
    (hcandidate : candidate ∈ (ofSnapshot snapshot).candidates pointerSize c) :
    let Leads (n : Nat) (e : VtableEntry) := (ofSnapshot snapshot).LeadsTo n e.target candidate.function
    (candidate.role = .destructor ↔ ∃ e ∈ v.entries, Leads 0 e ∨ e.target ≠ 0 ∧ Leads 1 e) ∧
      (candidate.role = .constructor ↔ ¬ ∃ e ∈ v.entries, Leads 0 e ∨ e.target ≠ 0 ∧ Leads 1 e) := by
  intro Leads
  rw [← classes_ofSnapshot] at hscanned
  obtain ⟨pointers, v', hmem, hentries⟩ :=
    mem_scannedTables_of_discovered h hc hscanned (Option.filter_eq_some_iff.mp hv).1
  have hfills := VtableDetector.fills_of_mem_scanSections hmem
  rw [hentries] at hfills
  have hdestructor : candidate.role = .destructor ↔
      ∃ e ∈ v.entries, Leads 0 e ∨ e.target ≠ 0 ∧ Leads 1 e := by
    rw [role_of_mem_candidates hv hcandidate, Vtable.roleOf_eq_destructor_iff]
    exact exists_congr fun e => and_congr_right fun he => leads_of_fills (hfills e he) _
  refine ⟨hdestructor, ?_⟩
  rw [← hdestructor]
  cases candidate.role <;> simp

/-! ## One thunk, and two -/

/-- A class whose table has one slot, and its destructor, before which stands a thunk, and before this
    another one. -/
def behindThunks (slot : Address) : ProgramSnapshot where
  functions := [{ entry := 0x1000, name := "A::~A", size := 0x10 },
    { entry := 0x1100, name := "thunk", size := 0x10, thunkTarget := some 0x1000 },
    { entry := 0x1200, name := "thunk of thunk", size := 0x10, thunkTarget := some 0x1100 }]
  references := [⟨0x1004, 0x2030, .data⟩]
  sections := [⟨".rodata", 0x2000, ([0x31, 0x41].map UInt8.ofNat ++ List.replicate 14 0 ++
    [0x9010, 0x2000, 0, 0x2010, slot.toNat].flatMap (littleBytes 8)).toArray⟩]
  recordTables := [⟨0x9010, .plain⟩]

/-- Where tables lead to one descriptor, and this one has no bases, it is the only one. -/
theorem scannedDescriptors_eq {p : Program} {pointers : PointerFormat} {tables : List Vtable}
    {address : Address} {d : TypeDescriptor} {cache : DescriptorCache}
    (hroots : (OrderedMap.ofList (tables.filterMap fun v => v.descriptor.map fun d => (d, ()))).keys =
      [address])
    {source : DescriptorSource} {events : List Event}
    (hsource : DescriptorSource.ofSections p.sections = .ok (source, events))
    (hread : source.read (p.recordFormat pointers) address [] = (some d, cache))
    (hbases : d.kind.bases = []) : p.scannedDescriptors pointers tables = [d] := by
  have hdone (read : RecordFormat.BaseReader) (fuel : Nat) (seen : List Address)
      (cache : DescriptorCache) : collectDescriptors read fuel [] seen cache = {} := by
    cases fuel <;> simp [collectDescriptors]
  simp [scannedDescriptors, hroots, hsource, DescriptorSource.collect, collectDescriptors, hread, hbases, hdone]

/-- The class is discovered with a table of the one slot, and the destructor as its one candidate, in the
    given role. -/
theorem discover_behindThunks {slot : Address} {role : FunctionRole}
    (h : slot = 0x1100 ∧ role = .destructor ∨ slot = 0x1200 ∧ role = .constructor) :
    ∃ discovered c v, (ofSnapshot (behindThunks slot)).discoverClasses {} = .ok discovered ∧
      discovered.value.get? 0x2010 = some c ∧ c.validVtable? = some v ∧
      v.entries.map (·.target) = [slot] ∧
      (ofSnapshot (behindThunks slot)).candidates 8 c = [⟨0x1000, role⟩] := by
  let p := ofSnapshot (behindThunks slot)
  have hsource : DescriptorSource.ofSections p.sections =
      .ok (.image (DescriptorSource.flattened p.sections), []) := by
    refine DescriptorSource.ofSections_eq_image (List.cons_ne_nil _ _) ?_ ?_
    · rcases h with ⟨rfl, -⟩ | ⟨rfl, -⟩ <;> decide +kernel
    · rcases h with ⟨rfl, -⟩ | ⟨rfl, -⟩ <;> decide +kernel
  obtain ⟨discovered, hdiscovered⟩ : ∃ discovered, p.discoverClasses {} = .ok discovered :=
    exists_discoverClasses_iff.mpr ⟨⟨_, rfl⟩, _, hsource⟩
  obtain ⟨pointers, hpointers, hvalue⟩ := value_discoverClasses hdiscovered
  cases hpointers
  have hdescriptors : p.scannedDescriptors ⟨.eight, .little⟩ (p.scannedTables ⟨.eight, .little⟩ {}) =
      [⟨0x2010, "A", "1A", .noBase, 0x9010⟩] := by
    refine @scannedDescriptors_eq _ _ _ 0x2010 _ [⟨0x2010, "A", "1A", .noBase, 0x9010⟩] ?_ _ _ hsource ?_ rfl
    · rcases h with ⟨rfl, -⟩ | ⟨rfl, -⟩ <;> decide +kernel
    · rcases h with ⟨rfl, -⟩ | ⟨rfl, -⟩ <;> decide +kernel
  have hfound : (discovered.value.get? 0x2010).bind (fun c => c.validVtable?.map fun v =>
      (v.entries.map (·.target), p.candidates 8 c)) = some ([slot], [⟨0x1000, role⟩]) := by
    rw [hvalue]
    simp only [hdescriptors]
    rcases h with ⟨rfl, rfl⟩ | ⟨rfl, rfl⟩ <;> decide +kernel
  obtain ⟨c, hc, hv⟩ := Option.bind_eq_some_iff.mp hfound
  obtain ⟨v, hv, heq⟩ := Option.map_eq_some_iff.mp hv
  obtain ⟨htargets, hcandidates⟩ := Prod.mk.inj heq
  exact ⟨discovered, c, v, hdiscovered, hc, hv, htargets, hcandidates⟩

/-- Behind one thunk the destructor is taken for one. -/
theorem role_of_discovered_thunk :
    ∃ discovered c v, (ofSnapshot (behindThunks 0x1100)).discoverClasses {} = .ok discovered ∧
      discovered.value.get? 0x2010 = some c ∧ c.validVtable? = some v ∧
      ∃ candidate ∈ (ofSnapshot (behindThunks 0x1100)).candidates 8 c,
        candidate.role = .destructor ∧ ∃ e ∈ v.entries,
          (ofSnapshot (behindThunks 0x1100)).LeadsTo 0 e.target candidate.function ∨
            e.target ≠ 0 ∧ (ofSnapshot (behindThunks 0x1100)).LeadsTo 1 e.target candidate.function := by
  obtain ⟨discovered, c, v, hdiscovered, hc, hv, -, hcandidates⟩ :=
    discover_behindThunks (.inl ⟨rfl, rfl⟩)
  have hmem : (⟨0x1000, .destructor⟩ : Candidate) ∈
      (ofSnapshot (behindThunks 0x1100)).candidates 8 c := by simp [hcandidates]
  refine ⟨discovered, c, v, hdiscovered, hc, hv, _, hmem, rfl, ?_⟩
  exact (role_of_discovered hdiscovered hc (List.not_mem_nil) hv hmem).1.mp rfl

/-- **Behind two thunks the destructor is taken for a constructor**, though the slot leads to it. -/
theorem constructor_behind_two_thunks :
    ∃ discovered c v, (ofSnapshot (behindThunks 0x1200)).discoverClasses {} = .ok discovered ∧
      discovered.value.get? 0x2010 = some c ∧ c.validVtable? = some v ∧
      ∃ candidate ∈ (ofSnapshot (behindThunks 0x1200)).candidates 8 c,
        candidate.role = .constructor ∧ ∃ e ∈ v.entries,
          (ofSnapshot (behindThunks 0x1200)).LeadsTo 2 e.target candidate.function := by
  obtain ⟨discovered, c, v, hdiscovered, hc, hv, htargets, hcandidates⟩ :=
    discover_behindThunks (.inr ⟨rfl, rfl⟩)
  obtain ⟨e, he, htarget⟩ : ∃ e ∈ v.entries, e.target = 0x1200 :=
    List.mem_map.mp (htargets ▸ List.mem_singleton_self _)
  have hfirst : (ofSnapshot (behindThunks 0x1200)).functionAt? 0x1200 =
      some { entry := 0x1200, name := "thunk of thunk", size := 0x10, thunkTarget := some 0x1100 } := by
    decide +kernel
  have hsecond : (ofSnapshot (behindThunks 0x1200)).functionAt? 0x1100 =
      some { entry := 0x1100, name := "thunk", size := 0x10, thunkTarget := some 0x1000 } := by
    decide +kernel
  refine ⟨discovered, c, v, hdiscovered, hc, hv, ⟨0x1000, .constructor⟩, by simp [hcandidates], rfl,
    e, he, ?_⟩
  rw [htarget]
  exact .thunk hfirst rfl (.thunk hsecond rfl (.here 0x1000))

end Program

end ClassRecovery
