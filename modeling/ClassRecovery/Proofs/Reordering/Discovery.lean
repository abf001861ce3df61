/-
  Snapshots in another order.

  Of the lists of a snapshot a program keeps maps, its references and its sections
  (`Program.ofSnapshot_reordered`).  Sections that do not overlap are scanned for different tables, and no
  address can be read from two of them, so their order does not matter for the discovered classes
  (`Program.discoverClasses_reordered`).
-/
import Mathlib.Data.List.Nodup
import ClassRecovery.Model.Discovery
import ClassRecovery.Proofs.Lists
import ClassRecovery.Proofs.Permutations
import ClassRecovery.Proofs.Program
import ClassRecovery.Proofs.Vtable.Scan

namespace ClassRecovery

/-! ## Snapshots -/

/-- Another order of a list whose elements have different keys, or the list itself. -/
def Reorders {α κ : Type} (key : α → κ) (l l' : List α) : Prop :=
  l' = l ∨ l.Perm l' ∧ (l.map key).Nodup

/-- A byte of the section has the address. -/
def Section.Occupies (s : Section) (address : Address) : Prop :=
  (address - s.address).toNat < s.bytes.size

/-- No address is that of a byte of both sections. -/
def Section.Disjoint (s s' : Section) : Prop := ∀ address, ¬ (s.Occupies address ∧ s'.Occupies address)

/-- **The same snapshot in another order.**  References may come in any order.  Functions, bodies, registers
    and delay slots may, if no two of them stand for the same; and sections, if they do not overlap. -/
structure ProgramSnapshot.Reordered (s s' : ProgramSnapshot) : Prop where
  config : s'.config = s.config
  functions : Reorders (·.entry) s.functions s'.functions
  references : s.references.Perm s'.references
  bodies : Reorders (·.entry) s.bodies s'.bodies
  registerConstants :
    Reorders (fun c => (c.address, lowerAscii c.register)) s.registerConstants s'.registerConstants
  delaySlots : Reorders (·.address) s.delaySlots s'.delaySlots
  decompileFailures : s'.decompileFailures = s.decompileFailures
  sections : s'.sections = s.sections ∨
    s.sections.Perm s'.sections ∧ s.sections.Pairwise Section.Disjoint
  recordTables : s'.recordTables = s.recordTables
  classes : s'.classes = s.classes

/-- Elements of different keys may be taken in any order, if any two of them may be. -/
theorem Reorders.foldl_eq {α β κ : Type} {key : α → κ} {l l' : List α} (h : Reorders key l l')
    {f : β → α → β} (hf : ∀ a b, key a ≠ key b → ∀ x, f (f x a) b = f (f x b) a) (x : β) :
    l'.foldl f x = l.foldl f x := by
  rcases h with rfl | ⟨hperm, hnodup⟩
  · rfl
  · refine (hperm.foldl_eq' (fun a ha b hb x => ?_) x).symm
    by_cases hkey : key a = key b
    · rw [List.inj_on_of_nodup_map hnodup ha hb hkey]
    · exact hf a b hkey x

namespace Program

/-! ## Programs -/

theorem addConstant_comm (p : Program) {c c' : RegisterConstant}
    (h : (c.address, lowerAscii c.register) ≠ (c'.address, lowerAscii c'.register)) :
    (p.addConstant c).addConstant c' = (p.addConstant c').addConstant c := by
  simp only [addConstant]
  congr 1
  by_cases haddress : c.address = c'.address
  · have hregister : lowerAscii c.register ≠ lowerAscii c'.register := fun heq =>
      h (Prod.ext haddress heq)
    simp only [haddress, OrderedMap.get?_insert_self, OrderedMap.insert_insert, Option.getD_some]
    rw [OrderedMap.insert_comm _ hregister]
  · rw [OrderedMap.get?_insert_of_ne _ _ (Ne.symm haddress), OrderedMap.get?_insert_of_ne _ _ haddress,
      OrderedMap.insert_comm _ haddress]

/-- The program with these references and sections. -/
def arranged (p : Program) (references : List Reference) (sections : List Section) : Program :=
  { p with references, sections }

theorem arranged_foldl {α : Type} {references : List Reference} {sections : List Section}
    {add : Program → α → Program}
    (hadd : ∀ p a, add (p.arranged references sections) a = (add p a).arranged references sections)
    (l : List α) (p : Program) :
    (l.foldl add p).arranged references sections = l.foldl add (p.arranged references sections) :=
  (List.foldl_hom (fun p : Program => p.arranged references sections) hadd).symm

/-- **The program of a snapshot in another order** differs in its references and sections only. -/
theorem ofSnapshot_reordered {s s' : ProgramSnapshot} (h : s.Reordered s') :
    ofSnapshot s' = (ofSnapshot s).arranged s'.references s'.sections := by
  have hfunctions : ∀ p : Program, s'.functions.foldl addFunction p = s.functions.foldl addFunction p :=
    h.functions.foldl_eq fun f f' hne p => by
      simp only [addFunction, OrderedMap.insert_comm _ hne]
  have hbodies : ∀ p : Program, s'.bodies.foldl addBody p = s.bodies.foldl addBody p :=
    h.bodies.foldl_eq fun b b' hne p => by simp only [addBody, OrderedMap.insert_comm _ hne]
  have hconstants : ∀ p : Program,
      s'.registerConstants.foldl addConstant p = s.registerConstants.foldl addConstant p :=
    h.registerConstants.foldl_eq fun c c' hne p => p.addConstant_comm hne
  have hslots : ∀ p : Program, s'.delaySlots.foldl addDelaySlot p = s.delaySlots.foldl addDelaySlot p :=
    h.delaySlots.foldl_eq fun d d' hne p => by simp only [addDelaySlot, OrderedMap.insert_comm _ hne]
  simp only [ofSnapshot, hfunctions, hbodies, hconstants, hslots, h.decompileFailures, h.recordTables,
    h.classes]
  rw [arranged_foldl fun _ _ => rfl, arranged_foldl fun _ _ => rfl, arranged_foldl fun _ _ => rfl,
    arranged_foldl fun _ _ => rfl, arranged_foldl fun _ _ => rfl]
  rfl

end Program

/-! ## Tables -/

namespace Section

theorem occupies_add {s : Section} {i : Nat} (h : i < s.bytes.size) :
    s.Occupies (s.address + UInt64.ofNat i) := by
  have hle : (UInt64.ofNat i).toNat ≤ i := Nat.mod_le i _
  rw [Occupies, UInt64.add_comm, UInt64.add_sub_cancel]
  omega

/-- An address that the section covers is that of one of its bytes. -/
theorem occupies_of_covers {s : Section} {address : Address} (h : s.covers address = true) :
    s.Occupies address := by
  simp only [covers, Bool.and_eq_true, decide_eq_true_eq] at h
  obtain ⟨hle, hlt⟩ := h
  have hstop := toNat_saturatingAdd s.address (UInt64.ofNat s.bytes.size)
  have hsize : (UInt64.ofNat s.bytes.size).toNat ≤ s.bytes.size := Nat.mod_le _ _
  rw [Occupies, UInt64.toNat_sub_of_le _ _ hle]
  rw [UInt64.lt_iff_toNat_lt, stop, hstop] at hlt
  rw [UInt64.le_iff_toNat_le] at hle
  omega

theorem Disjoint.symm {s s' : Section} (h : s.Disjoint s') : s'.Disjoint s :=
  fun address hboth => h address hboth.symm

/-- No address is covered by both sections. -/
theorem Disjoint.covers {s s' : Section} (h : s.Disjoint s') (address : Address) :
    s.covers address = false ∨ s'.covers address = false := by
  by_contra hboth
  simp only [not_or, Bool.not_eq_false] at hboth
  exact h address ⟨occupies_of_covers hboth.1, occupies_of_covers hboth.2⟩

end Section

namespace VtableDetector

/-- The tables that a section is scanned for. -/
def sectionTables (d : VtableDetector) (s : Section) : List Vtable :=
  if isTableSection s.name then d.scan s.region s.address else []

theorem occupies_of_mem_sectionTables {d : VtableDetector} {s : Section} {v : Vtable} (h : v ∈ d.sectionTables s) :
    s.Occupies v.address := by
  unfold sectionTables at h
  split at h
  · obtain ⟨i, hi, hreport⟩ := VtableDetector.exists_report_of_mem_scan h
    rw [(of_report hreport).1]
    exact Section.occupies_add hi
  · cases h

/-- **Sections that do not overlap** may be scanned in any order. -/
theorem scanSections_reordered (d : VtableDetector) {sections sections' : List Section}
    (hperm : sections.Perm sections') (hdisjoint : sections.Pairwise Section.Disjoint) :
    d.scanSections (sections'.map fun s => (s.name, s.address, s.region)) =
      d.scanSections (sections.map fun s => (s.name, s.address, s.region)) := by
  simp only [scanSections, List.flatMap_map]
  refine (mergeSort_congr Vtable.address fun k => filter_flatMap_perm (f := d.sectionTables) hperm
    (hdisjoint.imp fun {s s'} hapart => ?_)).symm
  have hempty : ∀ {s : Section}, ¬ s.Occupies k → (d.sectionTables s).filter (·.address == k) = [] :=
    fun hnot => List.filter_eq_nil_iff.mpr fun v hv heq =>
      hnot (eq_of_beq heq ▸ occupies_of_mem_sectionTables hv)
  exact (not_and_or.mp (hapart k)).imp hempty hempty

end VtableDetector

/-! ## Descriptors -/

theorem byteAt_reordered {sections sections' : List Section} (hperm : sections.Perm sections')
    (hdisjoint : sections.Pairwise Section.Disjoint) (address : Address) :
    byteAt sections' address = byteAt sections address := by
  have hreverse : sections.reverse.Perm sections'.reverse :=
    (List.reverse_perm _).trans (hperm.trans (List.reverse_perm _).symm)
  have hapart : sections.reverse.Pairwise Section.Disjoint :=
    (List.reverse_perm _).symm.pairwise hdisjoint Section.Disjoint.symm
  rw [byteAt, byteAt, find?_perm hreverse (hapart.imp fun h => h.covers address)]

namespace DescriptorSource

/-- **Sections that do not overlap** are read alike in any order. -/
theorem ofSections_reordered {sections sections' : List Section} (hperm : sections.Perm sections')
    (hdisjoint : sections.Pairwise Section.Disjoint) :
    (ofSections sections').map (fun s => (s.1.read, s.1.bound, s.2)) =
      (ofSections sections).map fun s => (s.1.read, s.1.bound, s.2) := by
  have hall : (DescriptorSource.sections sections').read = (DescriptorSource.sections sections).read ∧
      (DescriptorSource.sections sections').bound = (DescriptorSource.sections sections).bound := by
    constructor
    · funext format address cache
      simp only [read]
      rw [find?_perm hperm (hdisjoint.imp fun h => h.covers address)]
    · exact (hperm.foldl_eq' (fun s _ s' _ n => by omega) 0).symm
  simp only [ofSections, byteAt_reordered hperm hdisjoint, ← min?_perm (hperm.map _),
    ← max?_perm (hperm.map _), ← hperm.any_eq]
  generalize (sections.map (·.address)).min? = first
  generalize (sections.map Section.stop).max? = stop
  rcases first with _ | first
  · simp only [Except.map, hall.1, hall.2]
  · rcases stop with _ | stop
    · simp only [Except.map, hall.1, hall.2]
    · by_cases hfar : maxImageSpan < (stop - first).toNat
      · simp only [hfar, if_true, Except.map, hall.1, hall.2]
      · simp only [hfar, if_false]

theorem collect_congr {source source' : DescriptorSource} (hread : source'.read = source.read)
    (hbound : source'.bound = source.bound) : source'.collect = source.collect := by
  funext format roots
  simp only [collect, hread, hbound]

end DescriptorSource

/-! ## Classes -/

/-- **The order of sections** that do not overlap, and that of references, does not matter for the classes. -/
theorem Program.discoverClasses_reordered (p : Program) (references : List Reference)
    {sections : List Section}
    (h : sections = p.sections ∨ p.sections.Perm sections ∧ p.sections.Pairwise Section.Disjoint) :
    (p.arranged references sections).discoverClasses = p.discoverClasses := by
  rcases h with rfl | ⟨hperm, hdisjoint⟩
  · rfl
  · funext config
    have hsources := DescriptorSource.ofSections_reordered hperm hdisjoint
    have hdetector : (p.arranged references sections).detector = p.detector := rfl
    have hformat : (p.arranged references sections).recordFormat = p.recordFormat := rfl
    have hsections : (p.arranged references sections).sections = sections := rfl
    have hclasses : (p.arranged references sections).classes = p.classes := rfl
    simp only [discoverClasses, hdetector, hformat, hsections, hclasses,
      VtableDetector.scanSections_reordered _ hperm hdisjoint]
    cases config.pointerFormat? with
    | error e => rfl
    | ok pointers =>
      refine bind_congr_of_map hsources fun source source' hsame => ?_
      obtain ⟨hread, hbound, hevents⟩ : source'.1.read = source.1.read ∧
          source'.1.bound = source.1.bound ∧ source'.2 = source.2 := by simpa using hsame
      simp only [hevents, DescriptorSource.collect_congr hread hbound]

end ClassRecovery
