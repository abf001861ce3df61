/-
  A broken class harms no other.

  Classes are appended to those that a snapshot describes.  If none of them has an offset table, no other class
  inherits from them, and no register is known to hold the identity of one, then a run gives all other classes
  what it gives them without, and records the same functions and overrides (`Session.run_isolated`).  It
  does not matter what the appended classes inherit from, how they are called, which tables of virtual functions
  they have, and between which others a pass comes to them.
-/
import ClassRecovery.Proofs.Attribution.Congruence
import ClassRecovery.Proofs.Isolation.Passes
import ClassRecovery.Proofs.Program
import ClassRecovery.Proofs.Reordering.Casts
import ClassRecovery.Proofs.Session.Finished
import ClassRecovery.Proofs.Session.Transparency

namespace ClassRecovery

open ClassModel

/-- The snapshot with classes appended. -/
def ProgramSnapshot.withClasses (s : ProgramSnapshot) (extra : List ClassType) : ProgramSnapshot :=
  { s with classes := s.classes ++ extra }

/-! ## Programs with more classes -/

namespace Program

theorem foldl_withClasses {α : Type} {add : Program → α → Program} {classes : List ClassType}
    (hadd : ∀ p a, add { p with classes } a = { add p a with classes }) (l : List α) (p : Program) :
    l.foldl add { p with classes } = { l.foldl add p with classes } := by
  induction l generalizing p with
  | nil => rfl
  | cons a l ih =>
    rw [List.foldl_cons, hadd, ih]
    rfl

theorem ofSnapshot_withClasses (s : ProgramSnapshot) (extra : List ClassType) :
    ofSnapshot (s.withClasses extra) = { ofSnapshot s with classes := s.classes ++ extra } := by
  simp only [ofSnapshot, ProgramSnapshot.withClasses]
  rw [← foldl_withClasses fun _ _ => rfl, ← foldl_withClasses fun _ _ => rfl,
    ← foldl_withClasses fun _ _ => rfl, ← foldl_withClasses fun _ _ => rfl,
    ← foldl_withClasses fun _ _ => rfl]

/-- The appended classes are put into the model last. -/
theorem discoverClasses_withClasses {p : Program} {config : AnalysisConfig} {noted : Noted ClassModel}
    (h : p.discoverClasses config = .ok noted) (extra : List ClassType) :
    ∃ noted', discoverClasses { p with classes := p.classes ++ extra } config = .ok noted' ∧
      noted'.value = noted.value.applyAll (extra.map .insert) := by
  obtain ⟨pointers, hpointers, hnoted⟩ := bind_eq_ok_iff.mp h
  obtain ⟨⟨source, events⟩, hsource, hnoted⟩ := bind_eq_ok_iff.mp hnoted
  cases hnoted
  refine ⟨_, bind_eq_ok_iff.mpr ⟨pointers, hpointers, bind_eq_ok_iff.mpr ⟨_, hsource, rfl⟩⟩, ?_⟩
  simp only [Noted.value_bind, Noted.value_pure, value_insertAll, List.map_append, applyAll,
    List.foldl_append]
  rfl

theorem candidates_withClasses (p : Program) (classes : List ClassType) :
    candidates { p with classes } = p.candidates := by
  funext pointerSize c
  have hfollow : followThunks { p with classes } = p.followThunks := followThunks_congr rfl
  have hreferring : functionsReferringTo { p with classes } = p.functionsReferringTo := by
    funext address
    simp only [functionsReferringTo, hfollow]
    rfl
  simp only [candidates, hreferring]

end Program

/-! ## Calls -/

namespace CastResolver

theorem visit_of_classAt {r r' : CastResolver} (hconfig : r'.config = r.config)
    (hslots : r'.program.afterDelaySlots? = r.program.afterDelaySlots?) (hclass : r'.classAt = r.classAt) :
    r'.visit = r.visit := by
  have hregister : r'.classInRegister = r.classInRegister := by
    funext register callSite
    simp only [classInRegister, hclass, hconfig, hslots]
  have htarget : r'.target = r.target := by
    funext routine callSite
    simp only [target, hregister]
  funext routine reference store
  simp only [visit, htarget, override, callPrototype, hconfig]

end CastResolver

/-! ## Runs -/

namespace Session

/-- Two runs give the same to all but the extra classes, and record the same. -/
structure SameBesides (extra : List ClassId) (r r' : Except AnalysisError AnalysisReport × Session) :
    Prop where
  typeNames : ∀ id ∉ extra, r'.2.model.typeName? id = r.2.model.typeName? id
  offsetTables : ∀ id ∉ extra, (r'.2.model.offsetTable id).1 = (r.2.model.offsetTable id).1
  layouts : ∀ id ∉ extra, r'.2.model.layout? id = r.2.model.layout? id
  states : ∀ id ∉ extra, r'.2.model.state id = r.2.model.state id
  /-- All layouts, under whatever name they are registered. -/
  types : r'.2.model.types = r.2.model.types
  attributed : r'.2.model.attributed = r.2.model.attributed
  store : r'.2.store = r.2.store
  report : (∃ e, r.1 = .error e ∧ r'.1 = .error e) ∨
    ∃ report report', r.1 = .ok report ∧ r'.1 = .ok report' ∧ report.Covers extra report'

theorem SameBesides.of_inStep {extra : List ClassId} {m₀ m₀' : ClassModel}
    (hapart : Apart extra m₀ m₀') {r r' : Except AnalysisError AnalysisReport × Session}
    (h : InStep extra m₀ m₀' r.2.model r'.2.model) (hstore : r'.2.store = r.2.store)
    (hreport : (∃ e, r.1 = .error e ∧ r'.1 = .error e) ∨
      ∃ report report', r.1 = .ok report ∧ r'.1 = .ok report' ∧ report.Covers extra report') :
    SameBesides extra r r' where
  typeNames _ hid := h.typeName? hapart hid
  offsetTables _ hid := h.offsetTable_eq hapart hid
  layouts _ hid := h.layout? hapart hid
  states id hid := congrArg Progress.state (h.progress id hid)
  types := h.types
  attributed := h.attributed
  store := hstore
  report := hreport

section

variable {extra : List ClassId} {s s' : Session} {classes : List ClassType}
  (hconfig : s'.config = s.config) (hprogram : s'.program = { s.program with classes })
  (hstore : s'.store = s.store)

include hconfig hprogram

theorem attributor_seesSame : s.attributor.SeesSame s'.attributor := by
  rw [attributor, attributor, hconfig, hprogram]
  exact ⟨rfl, rfl, rfl, rfl, rfl, congrFun (Program.candidates_withClasses _ _) _⟩

theorem runClasses_inStep (hapart : Apart extra s.model s'.model)
    (hstart : InStep extra s.model s'.model s.model s'.model) :
    let r := (s.runClasses .never).value
    let r' := (s'.runClasses .never).value
    r.2.1.Covers extra r'.2.1 ∧ InStep extra s.model s'.model r.2.2.model r'.2.2.model := by
  have hlaid := @layOutAll_inStep _ _ _ hapart s'.model.ids { classes := s.model.size }
    { classes := s'.model.size } { model := s.model } { model := s'.model }
    ⟨rfl, rfl, rfl, rfl, rfl, rfl, rfl⟩ hstart
  have hstop := (layOutAll_never s.model.ids { classes := s.model.size } { model := s.model }).1
  have hstop' := (layOutAll_never s'.model.ids { classes := s'.model.size } { model := s'.model }).1
  rw [hapart.ids] at hlaid
  simp only [runClasses, Noted.value_bind]
  generalize (layOutAll .never s.model.ids _ _).value = r at hlaid hstop ⊢
  generalize (layOutAll .never s'.model.ids _ _).value = r' at hlaid hstop' ⊢
  obtain ⟨stop, report, state⟩ := r
  obtain ⟨stop', report', state'⟩ := r'
  obtain rfl : stop = .finished := hstop
  obtain rfl : stop' = .finished := hstop'
  have hattributed := attributeAll_inStep hapart s.attributor s'.model.ids hlaid.1 hlaid.2
  rw [hapart.ids] at hattributed
  simp only [(attributor_seesSame hconfig hprogram).attributeAll]
  exact hattributed

include hstore

/-- **A pass over the calls** gives the same, if no register holds the identity of an extra class. -/
theorem casts_inStep
    (hconstants : ∀ address r v, s.program.constant? address r = some v → v ∉ extra)
    (hclasses : ∀ id ∉ extra, s'.model.get? id = s.model.get? id) (work work' : Workload) :
    s'.casts .never work' = s.casts .never work := by
  have hclass : s'.resolver.classAt = s.resolver.classAt := by
    funext register address
    simp only [CastResolver.classAt, resolver, Program.dataflow, hprogram]
    change Except.ok ((s.program.constant? address register).bind s'.model.get?) =
      Except.ok ((s.program.constant? address register).bind s.model.get?)
    cases hvalue : s.program.constant? address register with
    | none => rfl
    | some v => exact congrArg Except.ok (hclasses v (hconstants address register v hvalue))
  have hvisit : s'.resolver.visit = s.resolver.visit :=
    CastResolver.visit_of_classAt hconfig (by rw [resolver, hprogram]; rfl) hclass
  obtain ⟨hresult, hleft⟩ := CastResolver.run_congr s.resolver s'.resolver hconfig
    (by simp only [resolver, hprogram]; rfl) hvisit
    (fun routine => by simp only [CastResolver.calls, resolver, hprogram]; exact .refl _) ⟨s.store, work⟩
  obtain ⟨hresult', hleft'⟩ := @CastResolver.run_of_finished s'.resolver .never ⟨s.store, work⟩
    ⟨s'.store, work'⟩ (fun _ => CastResolver.run_never _ _) hstore
  simp only [casts, hconfig, hresult', hleft', hresult, hleft]

/-- **A run** of the session with the extra classes is in step with one of the session without. -/
theorem run_inStep (hapart : Apart extra s.model s'.model)
    (hstart : InStep extra s.model s'.model s.model s'.model)
    (hconstants : ∀ address r v, s.program.constant? address r = some v → v ∉ extra) :
    SameBesides extra (s.run .never).value (s'.run .never).value := by
  obtain ⟨hreport, h⟩ := runClasses_inStep hconfig hprogram hapart hstart
  rw [value_run_of_finished s.runClasses_never.1, value_run_of_finished s'.runClasses_never.1,
    value_runCasts, value_runCasts]
  generalize (s.runClasses .never).value = r at hreport h ⊢
  generalize (s'.runClasses .never).value = r' at hreport h ⊢
  obtain ⟨_, report, m, work⟩ := r
  obtain ⟨_, report', m', work'⟩ := r'
  have hcasts : casts { s' with model := m' } .never work' = casts { s with model := m } .never work :=
    @casts_inStep extra { s with model := m } { s' with model := m' } classes hconfig hprogram hstore
      hconstants (fun id hid => h.get? hapart hid) work work'
  dsimp only
  rw [hcasts]
  have hsize : m'.attributed.size = m.attributed.size := by rw [h.attributed]
  rcases casts { s with model := m } .never work with _ | ⟨e | cast, store⟩
  · exact .of_inStep hapart h hstore (.inr ⟨_, _, rfl, rfl, { hreport with functionsCommitted := hsize }⟩)
  · exact .of_inStep hapart h hstore (.inl ⟨e, rfl, rfl⟩)
  · exact .of_inStep hapart h rfl (.inr ⟨_, _, rfl, rfl,
      { hreport with functionsCommitted := hsize, dynamicCast := rfl, cancelled := rfl }⟩)

end

/-! ## Snapshots with broken classes -/

/-- The session for a snapshot with classes appended: these are put on top of the others. -/
theorem ofSnapshot_withClasses {snapshot : ProgramSnapshot} {config : AnalysisConfig}
    {noted : Noted Session} (h : ofSnapshot snapshot config = .ok noted) (extra : List ClassType) :
    ∃ noted', ofSnapshot (snapshot.withClasses extra) config = .ok noted' ∧
      noted'.value =
        { noted.value with
          program := { noted.value.program with classes := snapshot.classes ++ extra }
          model := noted.value.model.applyAll (extra.map .insert) } := by
  obtain ⟨discovered, hdiscovered, hvalue⟩ := value_ofSnapshot h
  obtain ⟨discovered', hdiscovered', hmodel⟩ := Program.discoverClasses_withClasses hdiscovered extra
  rw [Program.classes_ofSnapshot] at hdiscovered'
  refine ⟨_, bind_eq_ok_iff.mpr ⟨discovered', ?_, rfl⟩, ?_⟩
  · rw [Program.ofSnapshot_withClasses]
    exact hdiscovered'
  · rw [hvalue, ← hmodel, ← Program.ofSnapshot_withClasses]
    rfl

/-- The classes of a session are those of a new model. -/
theorem model_ofSnapshot {snapshot : ProgramSnapshot} {config : AnalysisConfig} {noted : Noted Session}
    (h : ofSnapshot snapshot config = .ok noted) :
    ∃ classes, noted.value.model =
      ofClasses noted.value.config.abi noted.value.config.pointerSize classes := by
  obtain ⟨discovered, hdiscovered, hvalue⟩ := value_ofSnapshot h
  rw [hvalue]
  exact discoverClasses_eq hdiscovered

/-- **A broken class harms no other.**  Classes with new identities are appended, from which no class of the
    snapshot inherits, and no register is known to hold one of the identities.  If none of them has an offset
    table, every other class comes out of a run that is not cancelled as it does without them, and the recorded
    functions and the overrides are the same. -/
theorem run_isolated {snapshot : ProgramSnapshot} {config : AnalysisConfig} {noted : Noted Session}
    (hsession : ofSnapshot snapshot config = .ok noted) {extra : List ClassType}
    (hfresh : ∀ c ∈ extra, noted.value.model.get? c.id = none)
    (hbases : ∀ id c, noted.value.model.get? id = some c → ∀ spec ∈ c.bases, spec.base ∉ extra.map (·.id))
    (hconstants : ∀ k ∈ snapshot.registerConstants, k.value ∉ extra.map (·.id)) :
    ∃ noted', ofSnapshot (snapshot.withClasses extra) config = .ok noted' ∧
      ((∀ c ∈ extra, ∃ e, (noted'.value.model.offsetTable c.id).1 = .error e) →
        ∀ policy policy', noted.value.finishes policy = true → noted'.value.finishes policy' = true →
          SameBesides (extra.map (·.id)) (noted.value.run policy).value
            (noted'.value.run policy').value) := by
  obtain ⟨noted', hsession', hvalue'⟩ := ofSnapshot_withClasses hsession extra
  refine ⟨noted', hsession', fun huntabled policy policy' hfinishes hfinishes' => ?_⟩
  obtain ⟨hsound, huntouched⟩ := untouched_ofSnapshot hsession
  obtain ⟨hsound', huntouched'⟩ := untouched_ofSnapshot hsession'
  obtain ⟨classes, hclasses⟩ := model_ofSnapshot hsession
  obtain ⟨classes', hclasses'⟩ := model_ofSnapshot hsession'
  have hconfig : noted'.value.config = noted.value.config := by rw [hvalue']
  have hmodel : noted'.value.model = noted.value.model.applyAll (extra.map .insert) := by rw [hvalue']
  obtain ⟨habi, hpointerSize⟩ := parameters_reached noted.value.config.abi noted.value.config.pointerSize
    (classes.map .insert)
  obtain ⟨habi', hpointerSize'⟩ := parameters_reached noted.value.config.abi
    noted.value.config.pointerSize (classes'.map .insert)
  rw [hconfig] at hclasses'
  have hapart : Apart (extra.map (·.id)) noted.value.model noted'.value.model :=
    { coherent := hsound.coherent
      coherent' := hsound'.coherent
      abi := by rw [hclasses', hclasses]; exact habi'.trans habi.symm
      pointerSize := by rw [hclasses', hclasses]; exact hpointerSize'.trans hpointerSize.symm
      fresh := List.forall_mem_map.mpr hfresh
      classes := fun id hid => hmodel ▸ get?_insertions_of_notMem noted.value.model hid
      typeNames := fun id hid => hmodel ▸ typeName?_insertions_of_notMem noted.value.model hid
      bases := hbases
      untabled := List.forall_mem_map.mpr huntabled }
  rw [run_of_finishes hfinishes, run_of_finishes hfinishes']
  refine run_inStep hconfig (by rw [hvalue']) (by rw [hvalue']) hapart
    (hapart.inStep huntouched huntouched') fun address r v hv => ?_
  obtain ⟨_, -, hvalue⟩ := value_ofSnapshot hsession
  rw [hvalue] at hv
  obtain ⟨k, hk, rfl⟩ := Program.exists_of_constant? hv
  exact hconstants k hk

/-- Two classes that inherit from each other and one with an unknown base.  They are called like classes of
    `twoBases`, inherit from some of them, and have the table of one. -/
def brokenClasses : List ClassType :=
  [{ id := 0xd0, name := "C", bases := [{ base := 0xc0 }, { base := 0x99 }],
     vtable := some (.ofTargets 0x6000 0xd0 8 [0x3100]) },
    { id := 0xb8, name := "A", bases := [{ base := 0xa0 }, { base := 0xa8 }],
      vtable := some (.ofTargets 0x5000 0xb8 8 [0x1200]) },
    { id := 0xa8, name := "C_nv", bases := [{ base := 0xb8 }] }]

theorem run_isolated_brokenClasses :
    ∃ noted noted', ofSnapshot twoBases {} = .ok noted ∧
      ofSnapshot (twoBases.withClasses brokenClasses) {} = .ok noted' ∧
      noted'.value.model.ids = [0xa0, 0xa8, 0xb0, 0xb8, 0xc0, 0xd0] ∧
      SameBesides [0xd0, 0xb8, 0xa8] (noted.value.run .never).value (noted'.value.run .never).value ∧
      (noted'.value.run .never).value.2.model.state 0xb8 = .rejected ∧
      (noted'.value.run .never).value.2.model.state 0xc0 = .attributed ∧
      (noted'.value.run .never).value.2.model.attributed.keys =
        [0x1000, 0x1100, 0x1200, 0x1300, 0x3000, 0x3100] := by
  obtain ⟨noted, hsession⟩ : ∃ noted, ofSnapshot twoBases {} = .ok noted := ⟨_, rfl⟩
  obtain ⟨discovered, hdiscovered, hvalue⟩ := value_ofSnapshot hsession
  rw [discoverClasses_of_sections_nil rfl hdiscovered] at hvalue
  have hentries : ∀ e ∈ (ofClasses .itanium 8 twoBases.classes).classes.entries,
      ∀ spec ∈ e.2.bases, spec.base ∉ brokenClasses.map (·.id) := by decide +kernel
  obtain ⟨noted', hsession', hsame⟩ := @run_isolated _ _ _ hsession brokenClasses
    (by rw [hvalue]; decide +kernel)
    (fun id c hc spec hspec => by
      rw [hvalue] at hc
      exact hentries (id, c) (OrderedMap.get?_eq_some_iff.mp hc) spec hspec)
    (by simp [twoBases])
  obtain ⟨discovered', hdiscovered', hvalue'⟩ := value_ofSnapshot hsession'
  rw [discoverClasses_of_sections_nil rfl hdiscovered'] at hvalue'
  refine ⟨noted, noted', hsession, hsession', ?_, hsame ?_ .never .never (finishes_never _)
    (finishes_never _), ?_, ?_, ?_⟩
  · rw [hvalue']
    decide +kernel
  · rw [hvalue']
    simp only [brokenClasses, List.forall_mem_cons, List.not_mem_nil, false_imp_iff, implies_true, and_true]
    exact ⟨⟨_, rfl⟩, ⟨_, rfl⟩, ⟨_, rfl⟩⟩
  · rw [hvalue']
    decide +kernel
  · rw [hvalue']
    decide +kernel
  · rw [hvalue']
    decide +kernel

end Session

end ClassRecovery
