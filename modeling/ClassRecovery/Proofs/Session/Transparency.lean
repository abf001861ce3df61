/-
  Cancelling does not show.

  A session for a snapshot starts with the discovered classes and nothing else (`Session.untouched_ofSnapshot`).
  Whatever runs of it are cancelled, and where, if some run goes on to its end, the recorded functions, the
  progress of all classes and the overrides are those of one run that nothing cancels, and so are
  the layouts, as long as no type name is another one with the mark of non-virtual parts
  (`Session.runs_transparent`).
-/
import ClassRecovery.Proofs.Discovery.Classes
import ClassRecovery.Proofs.Session.Uncancelled

namespace ClassRecovery

open ClassModel

namespace Session

/-! ## New sessions -/

/-- The discovered classes are put into a new model one after the other. -/
theorem discoverClasses_eq {p : Program} {config : AnalysisConfig} {noted : Noted ClassModel}
    (h : p.discoverClasses config = .ok noted) :
    ∃ classes, noted.value = ofClasses config.abi config.pointerSize classes := by
  obtain ⟨pointers, -, hvalue⟩ := Program.value_discoverClasses h
  exact ⟨_, hvalue⟩

/-- A program without sections has just the classes that it describes. -/
theorem discoverClasses_of_sections_nil {p : Program} {config : AnalysisConfig}
    {noted : Noted ClassModel} (hp : p.sections = []) (h : p.discoverClasses config = .ok noted) :
    noted.value = ofClasses config.abi config.pointerSize p.classes := by
  obtain ⟨pointers, -, hvalue⟩ := Program.value_discoverClasses h
  have htables : p.scannedTables pointers config.scan = [] := by
    simp [Program.scannedTables, hp, VtableDetector.scanSections]
  have hdescriptors : p.scannedDescriptors pointers [] = [] := by
    have hroots : (OrderedMap.ofList [] : OrderedSet Address).keys = [] := rfl
    simp [Program.scannedDescriptors, hp, DescriptorSource.ofSections, hroots, DescriptorSource.collect,
      collectDescriptors]
  simpa only [htables, hdescriptors, classesOf, List.nil_append] using hvalue

theorem sound_of_untouched {s : Session} (hm : s.model.Coherent) (h : s.model.Untouched) :
    s.Sound := by
  refine ⟨hm, fun id _ => ?_⟩
  rw [Ledger.progressOf, ledger, h.progress]
  rfl

theorem value_ofSnapshot {snapshot : ProgramSnapshot} {config : AnalysisConfig}
    {noted : Noted Session} (h : ofSnapshot snapshot config = .ok noted) :
    ∃ discovered,
      (Program.ofSnapshot snapshot).discoverClasses (snapshot.config.getD config) = .ok discovered ∧
      noted.value = ⟨snapshot.config.getD config, .ofSnapshot snapshot, discovered.value, {}⟩ := by
  obtain ⟨discovered, hdiscovered, hnoted⟩ := bind_eq_ok_iff.mp h
  cases hnoted
  exact ⟨discovered, hdiscovered, rfl⟩

/-- **A session for a snapshot starts untouched.** -/
theorem untouched_ofSnapshot {snapshot : ProgramSnapshot} {config : AnalysisConfig}
    {noted : Noted Session} (h : ofSnapshot snapshot config = .ok noted) :
    noted.value.Sound ∧ noted.value.model.Untouched := by
  obtain ⟨discovered, hdiscovered, hvalue⟩ := value_ofSnapshot h
  obtain ⟨classes, hclasses⟩ := discoverClasses_eq hdiscovered
  have hcoherent : discovered.value.Coherent := hclasses ▸ coherent_reached _ _ _
  have huntouched : discovered.value.Untouched := hclasses ▸ untouched_ofClasses _ _ classes
  rw [hvalue]
  exact ⟨sound_of_untouched hcoherent huntouched, huntouched⟩

/-! ## Cancelled runs -/

/-- **Cancelling does not show**, once some run went on to its end. -/
theorem runs_transparent {snapshot : ProgramSnapshot} {config : AnalysisConfig}
    {noted : Noted Session} (hsession : ofSnapshot snapshot config = .ok noted)
    {before : List CancelPolicy} {policy : CancelPolicy}
    (hfinishes : (noted.value.runs before).finishes policy = true) (after : List CancelPolicy) :
    let s := noted.value.runs (before ++ policy :: after)
    let once := (noted.value.run .never).value.2
    s.model.attributed = once.model.attributed ∧
      (∀ id, s.model.state id = once.model.state id ∧
        s.model.isInterrupted id = once.model.isInterrupted id) ∧
      s.store.overrides = once.store.overrides ∧
      ((∀ id id' name, noted.value.model.typeName? id = some name →
          noted.value.model.typeName? id' ≠ some (nonVirtualName name)) →
        s.model.types = once.model.types) := by
  intro s once
  obtain ⟨hs, huntouched⟩ := untouched_ofSnapshot hsession
  have hnever := noted.value.finishes_never
  have hdone : s.Done := done_runs hs hfinishes after
  have hdone' : once.Done := (run_spec hs .never).2 hnever
  have hruns : Continues noted.value s := continues_runs hs _
  have honce : Continues noted.value once := (run_spec hs .never).1
  have hledger : s.model.ledger = once.model.ledger := by
    rw [(done_iff.mp hdone).1, hruns.outcome, (done_iff.mp hdone').1, honce.outcome]
  have hstore : s.store = once.store := by
    rw [(done_iff.mp hdone).2, hruns.overridden, (done_iff.mp hdone').2, honce.overridden]
  have hprogress : ∀ id, s.model.progressOf id = once.model.progressOf id := fun id =>
    congrArg (·.progressOf id) hledger
  refine ⟨congrArg Ledger.attributed hledger, fun id => ?_, congrArg (·.overrides) hstore,
    fun hunmarked => ?_⟩
  · rw [state, isInterrupted, hprogress id, state, isInterrupted]
    exact ⟨rfl, rfl⟩
  · have hnames : Distinct noted.value.model.typeNames :=
      ⟨fun _ _ _ h h' => huntouched.named.injective h h', hunmarked⟩
    have hdescribes := describes_of_untouched hs.coherent huntouched
    have hall : ∀ id, LaysOut noted.value.model.hierarchy noted.value.model.typeNames id →
        id ∈ noted.value.model.ids := fun id hlays => hlays.mem_keys
    obtain ⟨hlayouts, hlaid⟩ := laidOut_runs hnames hs hdescribes hfinishes after
    obtain ⟨hlayouts', hlaid'⟩ := @laidOut_runs _ .never _ _ hnames hs hdescribes [] hnever []
    exact hlayouts.registered.eq_of_complete hnames hlayouts'.registered
      (fun id typeName hlays => hlaid id (hall id hlays) typeName hlays)
      (fun id typeName hlays => hlaid' id (hall id hlays) typeName hlays)

/-- A class with two bases, its constructor and its destructor. -/
def twoBases : ProgramSnapshot where
  classes :=
    [{ id := 0xa0, name := "A", memberSize := 8,
       vtable := some (.ofTargets 0x5000 0xa0 8 [0x1200]) },
      { id := 0xb0, name := "B", memberSize := 8,
        vtable := some (.ofTargets 0x5100 0xb0 8 [0x1300]) },
      { id := 0xc0, name := "C", bases := [{ base := 0xa0 }, { base := 0xb0 }],
        vtable := some (.ofTargets 0x6000 0xc0 8 [0x3100]) }]
  functions :=
    [{ entry := 0x1000, name := "A::A" }, { entry := 0x1100, name := "B::B" },
      { entry := 0x1200, name := "A::~A" }, { entry := 0x1300, name := "B::~B" },
      { entry := 0x3000, name := "C::C", size := 0x80 },
      { entry := 0x3100, name := "C::~C", size := 0x80 }]
  references := [⟨0x3010, 0x6000, .data⟩, ⟨0x3110, 0x6000, .data⟩]
  bodies :=
    [{ entry := 0x3000, thisParameter := some 1,
       calls := [⟨0x3020, some 0x1000, some { origin := some 1 }⟩,
         ⟨0x3030, some 0x1100, some { origin := some 1, offset := 16 }⟩] },
      { entry := 0x3100, thisParameter := some 1,
        calls := [⟨0x3120, some 0x1300, some { origin := some 1, offset := 16 }⟩,
          ⟨0x3130, some 0x1200, some { origin := some 1 }⟩, ⟨0x3140, none, none⟩] }]

/-- A run that is stopped between the constructor and the destructor, one that is stopped at once, and one
    that goes on to its end. -/
theorem runs_transparent_resumed :
    let stop : CancelPolicy := fun w => decide (6 < w.checks)
    ∃ noted, ofSnapshot twoBases {} = .ok noted ∧
      let first := noted.value.runs [stop]
      let s := noted.value.runs ([stop, .always] ++ .never :: [.always])
      let once := (noted.value.run .never).value.2
      first.model.attributed.keys = [0x1000, 0x1100, 0x3000] ∧
        first.model.isInterrupted 0xc0 = true ∧
        s.model.attributed.keys = [0x1000, 0x1100, 0x1200, 0x1300, 0x3000, 0x3100] ∧
        s.model.attributed = once.model.attributed ∧
        (∀ id, s.model.state id = once.model.state id ∧
          s.model.isInterrupted id = once.model.isInterrupted id) ∧
        s.store.overrides = once.store.overrides ∧ s.model.types = once.model.types := by
  intro stop
  obtain ⟨noted, hsession⟩ : ∃ noted, ofSnapshot twoBases {} = .ok noted := ⟨_, rfl⟩
  obtain ⟨discovered, hdiscovered, hvalue⟩ := value_ofSnapshot hsession
  rw [discoverClasses_of_sections_nil rfl hdiscovered] at hvalue
  obtain ⟨hattributed, hprogress, hoverrides, htypes⟩ := @runs_transparent _ _ _ hsession
    [stop, .always] .never (finishes_never _) [.always]
  refine ⟨noted, hsession, ?_, ?_, ?_, hattributed, hprogress, hoverrides, htypes ?_⟩
  · rw [hvalue]
    decide +kernel
  · rw [hvalue]
    decide +kernel
  · rw [hattributed, hvalue]
    decide +kernel
  · intro id id' name hname hname'
    rw [hvalue] at hname hname'
    have hmarked : ∀ e ∈ (ofClasses .itanium 8 twoBases.classes).typeNames.entries,
        ∀ e' ∈ (ofClasses .itanium 8 twoBases.classes).typeNames.entries,
        e'.2 ≠ nonVirtualName e.2 := by decide +kernel
    exact hmarked _ (OrderedMap.get?_eq_some_iff.mp hname) _ (OrderedMap.get?_eq_some_iff.mp hname') rfl

end Session

end ClassRecovery
