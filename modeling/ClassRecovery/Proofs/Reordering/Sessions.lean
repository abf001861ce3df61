/-
  Sessions for snapshots in another order.

  A function that refers to a table is a candidate once, however often and in whatever order it does so
  (`Program.candidates_reordered`).  So the order of the lists of a snapshot shows nowhere: not in the discovered
  classes, and in nothing that a run leaves or reports (`Session.results_reordered`).
-/
import ClassRecovery.Proofs.Attribution.Congruence
import ClassRecovery.Proofs.Reordering.Casts
import ClassRecovery.Proofs.Session.Finished
import ClassRecovery.Proofs.Session.Transparency

namespace ClassRecovery

/-! ## Candidates -/

namespace Program

theorem functionsReferringTo_reordered (p : Program) {references : List Reference}
    (hperm : p.references.Perm references) (sections : List Section) (address : Address) :
    ((p.arranged references sections).functionsReferringTo address).Perm
      (p.functionsReferringTo address) := by
  have hfollow : (p.arranged references sections).followThunks = p.followThunks :=
    followThunks_congr rfl
  simp only [functionsReferringTo, hfollow]
  exact ((hperm.symm.filter _).filter _).filterMap _

/-- **The order of the references does not matter for the candidates**: the role of a function in a class
    depends on its address alone. -/
theorem candidates_reordered (p : Program) {references : List Reference}
    (hperm : p.references.Perm references) (sections : List Section) (pointerSize : Word) :
    (p.arranged references sections).candidates pointerSize = p.candidates pointerSize := by
  funext c
  unfold candidates
  cases c.validVtable? with
  | none => rfl
  | some v =>
    have hfound := (((List.Perm.flatMap_left (v.pointerAddresses pointerSize) fun address _ =>
      p.functionsReferringTo_reordered hperm sections address).filter fun f => !f.isUserDefined).map
        fun f => (f.entry, (⟨f.entry, v.roleOf f.entry⟩ : Candidate)))
    refine congrArg OrderedMap.values (OrderedMap.foldl_insert_perm hfound ?_ _)
    intro e he e' he' hkey
    obtain ⟨f, -, rfl⟩ := List.mem_map.mp he
    obtain ⟨f', -, rfl⟩ := List.mem_map.mp he'
    simp only at hkey
    simp only [hkey]

end Program

namespace Session

/-! ## Runs -/

/-- What a run that nothing cancels gives: its report, and the model and the overrides it leaves. -/
def results (s : Session) : Except AnalysisError AnalysisReport × ClassModel × OverrideStore :=
  let result := (s.run .never).value
  (result.1, result.2.model, result.2.store)

/-- The session with the references and the sections of its program in another order. -/
def arranged (s : Session) (references : List Reference) (sections : List Section) : Session :=
  { s with program := s.program.arranged references sections }

section Arranged

variable (s : Session) {references : List Reference} (hperm : s.program.references.Perm references)
  (sections : List Section)

include hperm

theorem runClasses_arranged (policy : CancelPolicy) :
    (s.arranged references sections).runClasses policy = s.runClasses policy := by
  have hsame : s.attributor.SeesSame (s.arranged references sections).attributor :=
    ⟨rfl, rfl, rfl, rfl, rfl, s.program.candidates_reordered hperm sections _⟩
  simp only [runClasses, hsame.attributeAll]
  rfl

theorem casts_arranged (work : Workload) :
    (s.arranged references sections).casts .never work = s.casts .never work := by
  obtain ⟨hreport, hstore⟩ := CastResolver.run_reordered hperm sections s.program.dataflow s.model
    s.config ⟨s.store, work⟩
  have hresolver : (s.arranged references sections).resolver =
      ⟨s.program.arranged references sections, s.program.dataflow, s.model, s.config⟩ := rfl
  rw [casts, casts, hresolver]
  exact if_congr Iff.rfl (congrArg some (Prod.ext hreport hstore)) rfl

/-- **A run does not depend on the order of the references**, if nothing cancels it. -/
theorem results_arranged : (s.arranged references sections).results = s.results := by
  have hclasses := s.runClasses_arranged hperm sections .never
  rw [results, results, value_run_of_finished (runClasses_never _).1,
    value_run_of_finished s.runClasses_never.1, hclasses, value_runCasts, value_runCasts]
  generalize (s.runClasses .never).value = classes
  obtain ⟨_, report, model, work⟩ := classes
  have hcasts := casts_arranged { s with model } hperm sections work
  have hsession : { s.arranged references sections with model } =
      arranged { s with model } references sections := rfl
  rw [hsession, hcasts]
  rcases casts { s with model } .never work with _ | ⟨e | cast, store⟩ <;> rfl

end Arranged

/-- **The order of the lists of a snapshot does not matter.**  The same classes are discovered; and if nothing
    cancels the run, its report is the same, and so are the model and the overrides afterwards, with
    layouts, states and recorded functions. -/
theorem results_reordered {snapshot snapshot' : ProgramSnapshot} (h : snapshot.Reordered snapshot')
    (config : AnalysisConfig) :
    (Program.ofSnapshot snapshot').discoverClasses = (Program.ofSnapshot snapshot).discoverClasses ∧
      (ofSnapshot snapshot' config).map (fun noted => noted.value.results) =
        (ofSnapshot snapshot config).map fun noted => noted.value.results := by
  have hprogram := Program.ofSnapshot_reordered h
  have hperm : (Program.ofSnapshot snapshot).references.Perm snapshot'.references :=
    (Program.references_ofSnapshot snapshot).symm ▸ h.references
  have hdiscovered : (Program.ofSnapshot snapshot').discoverClasses =
      (Program.ofSnapshot snapshot).discoverClasses := by
    rw [hprogram]
    exact (Program.ofSnapshot snapshot).discoverClasses_reordered snapshot'.references
      ((Program.sections_ofSnapshot snapshot).symm ▸ h.sections)
  refine ⟨hdiscovered, ?_⟩
  simp only [ofSnapshot, hdiscovered, h.config]
  cases (Program.ofSnapshot snapshot).discoverClasses (snapshot.config.getD config) with
  | error e => rfl
  | ok discovered =>
    let s : Session := ⟨snapshot.config.getD config, .ofSnapshot snapshot, discovered.value, {}⟩
    rw [hprogram]
    exact congrArg Except.ok (s.results_arranged hperm snapshot'.sections)

/-- A class with two bases whose functions refer to its table twice, beside two sections. -/
def twoBasesTwice : ProgramSnapshot :=
  { twoBases with
    references := twoBases.references ++ twoBases.references
    registerConstants := [⟨0x3010, "RDI", 0x6000⟩, ⟨0x3010, "rsi", 0xa0⟩]
    delaySlots := [⟨0x3020, 0x3028⟩, ⟨0x3030, 0x3038⟩]
    sections := [⟨".rodata", 0x7000, .replicate 32 1⟩, ⟨".data.rel.ro", 0x8000, .replicate 16 2⟩] }

/-- All of it backwards. -/
def twoBasesBackwards : ProgramSnapshot :=
  { twoBasesTwice with
    functions := twoBasesTwice.functions.reverse
    references := twoBasesTwice.references.reverse
    bodies := twoBasesTwice.bodies.reverse
    registerConstants := twoBasesTwice.registerConstants.reverse
    delaySlots := twoBasesTwice.delaySlots.reverse
    sections := twoBasesTwice.sections.reverse }

theorem results_reordered_backwards :
    twoBasesTwice.Reordered twoBasesBackwards ∧
      twoBasesBackwards.functions ≠ twoBasesTwice.functions ∧
      (ofSnapshot twoBasesBackwards {}).map (fun noted => noted.value.results) =
        (ofSnapshot twoBasesTwice {}).map fun noted => noted.value.results := by
  have hdisjoint : twoBasesTwice.sections.Pairwise Section.Disjoint := by
    refine List.pairwise_pair.mpr fun address => ?_
    rintro ⟨hfirst, hsecond⟩
    simp only [Section.Occupies, Array.size_replicate, UInt64.toNat_sub, UInt64.reduceToNat]
      at hfirst hsecond
    have := address.toNat_lt
    omega
  have hreordered : twoBasesTwice.Reordered twoBasesBackwards :=
    { config := rfl
      functions := .inr ⟨(List.reverse_perm _).symm, by decide⟩
      references := (List.reverse_perm _).symm
      bodies := .inr ⟨(List.reverse_perm _).symm, by decide⟩
      registerConstants := .inr ⟨(List.reverse_perm _).symm, by decide +kernel⟩
      delaySlots := .inr ⟨(List.reverse_perm _).symm, by decide⟩
      decompileFailures := rfl
      sections := .inr ⟨(List.reverse_perm _).symm, hdisjoint⟩
      recordTables := rfl
      classes := rfl }
  exact ⟨hreordered, by decide +kernel, (results_reordered hreordered {}).2⟩

end Session

end ClassRecovery
