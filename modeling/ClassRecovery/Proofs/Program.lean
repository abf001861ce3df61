/-
  Programs of snapshots.

  A program is made of its snapshot by adding the entries of one list after the other, and adding an entry
  touches one map only.  So each part of the program comes from one list of the snapshot.
-/
import ClassRecovery.Program.Basic
import ClassRecovery.Proofs.OrderedMap

namespace ClassRecovery

namespace Program

/-- What is left as it is by each step, all steps leave. -/
theorem get_foldl {α β : Type} (get : Program → β) {add : Program → α → Program}
    (hadd : ∀ p a, get (add p a) = get p) (l : List α) (p : Program) :
    get (l.foldl add p) = get p := by
  induction l generalizing p with
  | nil => rfl
  | cons a l ih => exact (ih _).trans (hadd p a)

section Parts

variable {β : Type} (get : Program → β) (s : ProgramSnapshot)
  (hbody : ∀ p b, get (addBody p b) = get p) (hconstant : ∀ p c, get (addConstant p c) = get p)
  (hslot : ∀ p d, get (addDelaySlot p d) = get p)
  (hfailure : ∀ p a, get (addDecompileFailure p a) = get p)

include hbody hconstant hslot hfailure

/-- What only functions touch is as they left it. -/
theorem get_ofSnapshot_functions :
    get (ofSnapshot s) = get (s.functions.foldl addFunction
      { references := s.references, sections := s.sections, recordTables := s.recordTables
        classes := s.classes }) := by
  rw [ofSnapshot, get_foldl get hfailure, get_foldl get hslot, get_foldl get hconstant,
    get_foldl get hbody]

/-- What no entry touches is as it was at first. -/
theorem get_ofSnapshot (hfunction : ∀ p f, get (addFunction p f) = get p) :
    get (ofSnapshot s) = get
      { references := s.references, sections := s.sections, recordTables := s.recordTables
        classes := s.classes } :=
  (get_ofSnapshot_functions get s hbody hconstant hslot hfailure).trans (get_foldl get hfunction _ _)

end Parts

theorem references_ofSnapshot (s : ProgramSnapshot) : (ofSnapshot s).references = s.references :=
  get_ofSnapshot references s (fun _ _ => rfl) (fun _ _ => rfl) (fun _ _ => rfl) (fun _ _ => rfl)
    fun _ _ => rfl

theorem sections_ofSnapshot (s : ProgramSnapshot) : (ofSnapshot s).sections = s.sections :=
  get_ofSnapshot sections s (fun _ _ => rfl) (fun _ _ => rfl) (fun _ _ => rfl) (fun _ _ => rfl)
    fun _ _ => rfl

theorem classes_ofSnapshot (s : ProgramSnapshot) : (ofSnapshot s).classes = s.classes :=
  get_ofSnapshot classes s (fun _ _ => rfl) (fun _ _ => rfl) (fun _ _ => rfl) (fun _ _ => rfl)
    fun _ _ => rfl

theorem functions_ofSnapshot (s : ProgramSnapshot) :
    (ofSnapshot s).functions = .ofList (s.functions.map fun f => (f.entry, f)) := by
  have hfold (p : Program) : (s.functions.foldl addFunction p).functions =
      s.functions.foldl (fun m f => m.insert f.entry f) p.functions :=
    (List.foldl_hom functions fun _ _ => rfl).symm
  rw [get_ofSnapshot_functions functions s (fun _ _ => rfl) (fun _ _ => rfl) (fun _ _ => rfl)
    fun _ _ => rfl, hfold, OrderedMap.ofList, List.foldl_map]

/-- Functions are found by their entries. -/
theorem entry_of_mem_functions {s : ProgramSnapshot} {address : Address} {f : FunctionInfo}
    (h : (address, f) ∈ (ofSnapshot s).functions.entries) : f.entry = address := by
  rw [functions_ofSnapshot] at h
  exact OrderedMap.forall_mem_ofList (P := fun e : Address × FunctionInfo => e.2.entry = e.1)
    (by simp) _ h

theorem entry_of_functionAt? {s : ProgramSnapshot} {address : Address} {f : FunctionInfo}
    (h : (ofSnapshot s).functionAt? address = some f) : f.entry = address :=
  entry_of_mem_functions (OrderedMap.get?_eq_some_iff.mp h)

/-- A register is known to hold what one entry says, or what it was known to hold before. -/
theorem exists_of_constant?_foldl {l : List RegisterConstant} {p : Program} {address : Address}
    {r : Register} {v : Word} (h : (l.foldl addConstant p).constant? address r = some v) :
    p.constant? address r = some v ∨ ∃ k ∈ l, k.value = v := by
  induction l generalizing p with
  | nil => exact .inl h
  | cons k l ih =>
    rcases ih h with h | ⟨k', hk', hv⟩
    · obtain ⟨known, hknown, hv⟩ := Option.bind_eq_some_iff.mp h
      simp only [addConstant, OrderedMap.get?_insert] at hknown
      split at hknown
      · next haddress =>
        rw [← Option.some.inj hknown, OrderedMap.get?_insert] at hv
        split at hv
        · exact .inr ⟨k, List.mem_cons_self, Option.some.inj hv⟩
        · refine .inl (Option.bind_eq_some_iff.mpr ?_)
          rw [haddress]
          cases hbefore : p.constants.get? k.address with
          | none =>
            rw [hbefore] at hv
            cases hv
          | some before => exact ⟨before, rfl, by rwa [hbefore] at hv⟩
      · exact .inl (Option.bind_eq_some_iff.mpr ⟨known, hknown, hv⟩)
    · exact .inr ⟨k', List.mem_cons_of_mem _ hk', hv⟩

/-- A register is only known to hold what the snapshot says. -/
theorem exists_of_constant? {s : ProgramSnapshot} {address : Address} {r : Register} {v : Word}
    (h : (ofSnapshot s).constant? address r = some v) : ∃ k ∈ s.registerConstants, k.value = v := by
  let get (p : Program) : Option Word := p.constant? address r
  have h : get (ofSnapshot s) = some v := h
  have hfailures := @get_foldl _ _ get addDecompileFailure fun _ _ => rfl
  have hslots := @get_foldl _ _ get addDelaySlot fun _ _ => rfl
  have hbodies := @get_foldl _ _ get addBody fun _ _ => rfl
  have hfunctions := @get_foldl _ _ get addFunction fun _ _ => rfl
  rw [ofSnapshot, hfailures, hslots] at h
  rcases exists_of_constant?_foldl h with h | hexists
  · have h : get (s.bodies.foldl addBody _) = some v := h
    rw [hbodies, hfunctions] at h
    cases h
  · exact hexists

end Program

end ClassRecovery
