/-
  Attribution states over many runs.

  Between runs no class is being analysed, and just those classes are interrupted that are attributed and
  still open (`Progress.Consistent`).  A run only ever advances a class (`Progress.Advances`): an
  attributed class stays attributed, and a closed one is not looked at again.  The calls that a run makes for
  its classes (`Session.analyses`) account for all that it records (`Session.attributed_run`), so a class for which
  anything was recorded is attributed from then on (`Session.runs_consistent`).
-/
import ClassRecovery.Proofs.Attribution.Commits
import ClassRecovery.Proofs.Session.Transparency

namespace ClassRecovery

open ClassModel

/-! ## One class -/

/-- The class is not being analysed, and is interrupted only if it is attributed and has candidates. -/
structure Progress.Consistent (plan : ClassPlan) (p : Progress) : Prop where
  idle : p.state ≠ .analyzing
  interrupted : p.interrupted = true → p.state = .attributed ∧ ∃ trials, plan = .trials trials

/-- What a run may do to the progress of a class. -/
structure Progress.Advances (plan : ClassPlan) (p p' : Progress) : Prop where
  consistent : p.Consistent plan → p'.Consistent plan
  attributed : p.Consistent plan → p.state = .attributed → p'.state = .attributed
  closed : p.isOpen = false → p' = p

namespace Progress

variable {plan : ClassPlan} {p p' p'' : Progress}

theorem Advances.refl (plan : ClassPlan) (p : Progress) : p.Advances plan p :=
  ⟨id, fun _ h => h, fun _ => rfl⟩

theorem Advances.trans (h : p.Advances plan p') (h' : p'.Advances plan p'') : p.Advances plan p'' where
  consistent := h'.consistent ∘ h.consistent
  attributed hp hstate := h'.attributed (h.consistent hp) (h.attributed hp hstate)
  closed hclosed := by
    have hsame := h.closed hclosed
    rw [h'.closed (hsame ▸ hclosed), hsame]

theorem consistent_new (plan : ClassPlan) : Consistent plan {} := ⟨by simp, by simp⟩

/-- An open class that is attributed was interrupted. -/
theorem interrupted_of_isOpen (hopen : p.isOpen = true) (hstate : p.state = .attributed) :
    p.interrupted = true := by
  simpa [isOpen, hstate] using hopen

theorem Consistent.isOpen_of_interrupted (h : p.Consistent plan) (hp : p.interrupted = true) :
    p.isOpen = true := by
  simp [isOpen, (h.interrupted hp).1, hp]

/-- A rejected class, or one that is attributed and not interrupted, is closed. -/
theorem isOpen_of_settled
    (h : p.state = .rejected ∨ p.state = .attributed ∧ p.interrupted = false) : p.isOpen = false := by
  rcases h with h | ⟨h, hp⟩
  · simp [isOpen, h]
  · simp [isOpen, h, hp]

/-- A class without a table is rejected. -/
theorem advances_rejected (hopen : p.isOpen = true) (hplan : plan = .untabled) :
    p.Advances plan { p with state := .rejected } where
  consistent hp :=
    ⟨by simp, fun h => by
      obtain ⟨trials, htrials⟩ := (hp.interrupted h).2
      cases hplan.symm.trans htrials⟩
  attributed hp hstate := by
    obtain ⟨trials, htrials⟩ := (hp.interrupted (interrupted_of_isOpen hopen hstate)).2
    cases hplan.symm.trans htrials
  closed hclosed := by
    rw [hopen] at hclosed
    cases hclosed

end Progress

namespace Attributor

/-- **A class that goes through its candidates advances**, and is attributed if any is accepted. -/
theorem Leaves.advances {complete : Prop} {found : List Attribution} {trials : List Trial}
    {result : Except AnalysisError ClassAttribution} {p p' : Progress}
    (h : Leaves complete p.interrupted found result p') (hopen : p.isOpen = true) :
    p.Advances (.trials trials) p' ∧ (found ≠ [] → p'.state = .attributed) := by
  have hresumed : p.state = .attributed → (p.interrupted || !found.isEmpty) = true := fun hstate => by
    rw [Progress.interrupted_of_isOpen hopen hstate, Bool.true_or]
  have hfound : found ≠ [] → (p.interrupted || !found.isEmpty) = true := fun hne => by
    rw [Bool.or_eq_true]
    exact .inr (by simpa using hne)
  have hclosed : p.isOpen = false → p' = p := fun hclosed => by
    rw [hopen] at hclosed
    cases hclosed
  cases h with
  | closed hcomplete hattributions =>
    refine ⟨⟨fun _ => ⟨?_, by rintro ⟨⟩⟩, fun _ hstate => if_pos (hresumed hstate), hclosed⟩,
      fun hne => if_pos (hfound hne)⟩
    simp only
    split <;> simp
  | interrupted hcomplete haccepted =>
    exact ⟨⟨fun _ => ⟨by simp, fun _ => ⟨rfl, trials, rfl⟩⟩, fun _ _ => rfl, hclosed⟩, fun _ => rfl⟩
  | restored hcomplete hnone =>
    refine ⟨⟨fun _ => ⟨by simp, by rintro ⟨⟩⟩, fun _ hstate => ?_, hclosed⟩, fun hne => ?_⟩
    · rw [hresumed hstate] at hnone
      cases hnone
    · rw [hfound hne] at hnone
      cases hnone

end Attributor

/-! ## All classes -/

namespace ClassModel

/-- No class is being analysed, and those that are interrupted are attributed and still open. -/
def Consistent (plan : ClassId → ClassPlan) (m : ClassModel) : Prop :=
  ∀ id, (m.progressOf id).Consistent (plan id)

/-- Attribution has gone on: the classes are the same, and each of them has advanced. -/
structure Upholds (plan : ClassId → ClassPlan) (m m' : ClassModel) : Prop where
  hierarchy : m'.hierarchy = m.hierarchy
  coherent : m.Coherent → m'.Coherent
  advances : ∀ id, (m.progressOf id).Advances (plan id) (m'.progressOf id)

section
variable {plan : ClassId → ClassPlan} {m m' m'' : ClassModel} {id : ClassId}

theorem Upholds.refl (plan : ClassId → ClassPlan) (m : ClassModel) : Upholds plan m m :=
  ⟨rfl, id, fun _ => .refl _ _⟩

theorem Upholds.trans (h : Upholds plan m m') (h' : Upholds plan m' m'') : Upholds plan m m'' :=
  ⟨h'.hierarchy.trans h.hierarchy, h'.coherent ∘ h.coherent,
    fun id => (h.advances id).trans (h'.advances id)⟩

theorem Upholds.consistent (h : Upholds plan m m') (hm : m.Consistent plan) : m'.Consistent plan :=
  fun id => (h.advances id).consistent (hm id)

/-- Only the progress of one class has changed. -/
theorem Upholds.of_setProgress (hattributes : Attributes m m') {p : Progress}
    (hm : m'.progress = m.progress.insert id p) (h : (m.progressOf id).Advances (plan id) p) :
    Upholds plan m m' := by
  refine ⟨hattributes.hierarchy, hattributes.coherent, fun id' => ?_⟩
  simp only [progressOf, hm, OrderedMap.get?_insert]
  split
  · next hid => exact hid ▸ h
  · exact .refl _ _

end

end ClassModel

namespace Attributor

section
variable (a : Attributor) (policy : CancelPolicy) {id : ClassId} {s : AnalysisState}

theorem plan_of_table {table : BaseOffsetTable} {m : ClassModel}
    (hcheck : m.checkAnalyzable id = .ok ()) (htable : (m.offsetTable id).1 = .ok table) :
    a.plan m id = .trials ((a.discovered m id).map (a.trial id table)) := by
  simp only [plan, hcheck, htable, discovered]

/-- **Attributing an open class.** -/
theorem attributeClass_upholds (hopen : s.model.needsAttribution id = true) :
    let r := (a.attributeClass policy id s).value
    Upholds (a.plan s.model) s.model r.2.model ∧
      (a.found policy id s ≠ [] → r.2.model.state id = .attributed) := by
  intro r
  cases hcheck : s.model.checkAnalyzable id with
  | error e =>
    have hr : r = _ := attributeClass_of_check_error policy hcheck
    rw [hr]
    exact ⟨.refl _ _, fun h => by simp [found, hcheck] at h⟩
  | ok _ =>
    have hsame := attributes_offsetTable s.model id
    cases htable : (s.model.offsetTable id).1 with
    | error e =>
      have hr : r = _ := attributeClass_of_table_error policy hcheck htable
      have hplan : a.plan s.model id = .untabled := by simp only [plan, hcheck, htable]
      rw [hr]
      exact ⟨.of_setProgress (hsame.trans (attributes_setProgress ..)) rfl
        (Progress.advances_rejected hopen hplan), fun h => by simp [found, hcheck, htable] at h⟩
    | ok table =>
      obtain ⟨p, hleaves, hmodel⟩ := a.commits_of_table policy hcheck htable
      obtain ⟨hadvances, hattributed⟩ := hleaves.advances hopen
      change r.2.model = _ at hmodel
      have hattributes : Attributes s.model r.2.model := by
        rw [hmodel]
        exact hsame.trans ⟨rfl, rfl, rfl, fun hm => hm.of_hierarchy rfl hm.tables⟩
      refine ⟨.of_setProgress hattributes (congrArg progress hmodel) ?_, fun hfound => ?_⟩
      · rw [a.plan_of_table hcheck htable]
        exact hadvances
      · rw [hmodel]
        exact (congrArg Progress.state (progressOf_setProgress ..)).trans (hattributed hfound)

end

end Attributor

namespace Session

/-- The classes that a pass attributes, with the state at which it does. -/
def analysesOf (a : Attributor) (policy : CancelPolicy) :
    List ClassId → AnalysisState → List (ClassId × AnalysisState)
  | [], _ => []
  | id :: rest, s =>
    let start : AnalysisState := { s with work := s.work.checked }
    if policy s.work then []
    else if !s.model.needsAttribution id then analysesOf a policy rest start
    else
      (id, start) ::
        match (a.attributeClass policy id start).value with
        | (.error _, _) => []
        | (.ok _, s) => analysesOf a policy rest s

/-- The classes that a run attributes. -/
def analyses (s : Session) (policy : CancelPolicy) : List (ClassId × AnalysisState) :=
  match (layOutAll policy s.model.ids { classes := s.model.size } { model := s.model }).value with
  | (.cancelled, _, _) => []
  | (.finished, _, state) => analysesOf s.attributor policy s.model.ids state

/-- What analyses of classes leave: they went on, all that was recorded is what they found, and the classes
    for which something was found are attributed. -/
structure Analysed (a : Attributor) (policy : CancelPolicy) (plan : ClassId → ClassPlan)
    (analyses : List (ClassId × AnalysisState)) (m m' : ClassModel) : Prop where
  upholds : Upholds plan m m'
  recorded : m'.attributed =
    a.commitAll m.attributed (analyses.flatMap fun call => a.found policy call.1 call.2)
  needed : ∀ call ∈ analyses, m.needsAttribution call.1 = true
  attributed : m.Consistent plan → ∀ call ∈ analyses, a.found policy call.1 call.2 ≠ [] →
    m'.state call.1 = .attributed

section
variable {a : Attributor} {policy : CancelPolicy} {plan : ClassId → ClassPlan}
variable {analyses : List (ClassId × AnalysisState)} {m m₁ m' : ClassModel}

theorem Analysed.nil (a : Attributor) (policy : CancelPolicy) (plan : ClassId → ClassPlan)
    (m : ClassModel) : Analysed a policy plan [] m m :=
  ⟨.refl plan m, rfl, by simp, by simp⟩

/-- Layouts do not matter. -/
theorem Analysed.of_keeps (hkeeps : Keeps m m₁) (h : Analysed a policy plan analyses m₁ m') :
    Analysed a policy plan analyses m m' := by
  have hledger := ledger_eq_of_keeps hkeeps
  have hprogress : m₁.progressOf = m.progressOf :=
    funext fun id => congrArg (·.progressOf id) hledger
  have hupholds : Upholds plan m m₁ :=
    ⟨hkeeps.1.hierarchy, hkeeps.2, fun id => hprogress ▸ .refl _ _⟩
  refine ⟨hupholds.trans h.upholds, ?_, ?_, fun hm => h.attributed (hupholds.consistent hm)⟩
  · rw [h.recorded, show m₁.attributed = m.attributed from congrArg Ledger.attributed hledger]
  · simpa only [needsAttribution, hprogress] using h.needed

/-- One more class, which is attributed before the others are. -/
theorem Analysed.cons {id : ClassId} {s : AnalysisState} (hopen : m.needsAttribution id = true)
    (hupholds : Upholds plan m m₁) (hrecorded : m₁.attributed = a.commitAll m.attributed (a.found policy id s))
    (hfound : a.found policy id s ≠ [] → m₁.state id = .attributed)
    (hrest : Analysed a policy plan analyses m₁ m') :
    Analysed a policy plan ((id, s) :: analyses) m m' := by
  refine ⟨hupholds.trans hrest.upholds, ?_, ?_, fun hm => ?_⟩
  · rw [hrest.recorded, hrecorded, List.flatMap_cons, a.commitAll_append]
  · simp only [List.mem_cons, forall_eq_or_imp]
    refine ⟨hopen, fun call hcall => ?_⟩
    by_contra hclosed
    have hclosed : m.needsAttribution call.1 = false := by simpa using hclosed
    have hneeded := hrest.needed call hcall
    rw [needsAttribution, (hupholds.advances call.1).closed hclosed] at hneeded
    cases hneeded.symm.trans hclosed
  · simp only [List.mem_cons, forall_eq_or_imp]
    have hm₁ := hupholds.consistent hm
    exact ⟨fun hne => (hrest.upholds.advances id).attributed (hm₁ id) (hfound hne), hrest.attributed hm₁⟩

end

/-- **Attributing classes**, unless cancelled. -/
theorem attributeAll_analysed (a : Attributor) (policy : CancelPolicy) {m₀ : ClassModel}
    (hm₀ : m₀.Coherent) (ids : List ClassId) (report : AnalysisReport) {s : AnalysisState}
    (hm : s.model.Coherent) (hsame : s.model.hierarchy = m₀.hierarchy) :
    Analysed a policy (a.plan m₀) (analysesOf a policy ids s) s.model
      (attributeAll a policy ids report s).value.2.2.model := by
  induction ids generalizing report s with
  | nil => exact .nil ..
  | cons id rest ih =>
    simp only [attributeAll, analysesOf]
    split
    · exact .nil ..
    · split
      · exact ih report (s := { s with work := s.work.checked }) hm hsame
      · next hopen =>
        have hopen : s.model.needsAttribution id = true := by simpa using hopen
        have hplan : a.plan s.model = a.plan m₀ := funext (a.plan_congr hm hm₀ hsame)
        have hwrites := (a.attributeClass_writes policy id { s with work := s.work.checked }).1
        obtain ⟨hupholds, hfound⟩ :=
          a.attributeClass_upholds policy (s := { s with work := s.work.checked }) hopen
        simp only [hplan] at hupholds
        simp only [Noted.value_bind]
        generalize (a.attributeClass policy id _).value = r at hwrites hupholds hfound ⊢
        rcases r with ⟨e | found, s'⟩
        · exact .cons hopen hupholds hwrites.attributed hfound (.nil ..)
        · exact .cons hopen hupholds hwrites.attributed hfound
            (ih (report.addAttribution found) (hupholds.coherent hm) (hupholds.hierarchy.trans hsame))

/-! ## Runs -/

section
variable {s : Session} (policy : CancelPolicy)

theorem runClasses_analysed (hs : s.Sound) :
    Analysed s.attributor policy s.classPlan (s.analyses policy) s.model
      (s.runClasses policy).value.2.2.model := by
  have hkeeps := keeps_layOutAll policy s.model.ids { classes := s.model.size } { model := s.model }
  simp only [runClasses, analyses, Noted.value_bind]
  generalize (layOutAll policy s.model.ids _ _).value = r at hkeeps ⊢
  obtain ⟨stop, report, state⟩ := r
  cases stop with
  | cancelled => exact .of_keeps hkeeps (.nil ..)
  | finished =>
    exact .of_keeps hkeeps (attributeAll_analysed s.attributor policy hs.coherent s.model.ids report
      (hkeeps.2 hs.coherent) hkeeps.1.hierarchy)

theorem model_run (s : Session) :
    (s.run policy).value.2.model = (s.runClasses policy).value.2.2.model := by
  rcases s.value_run policy with ⟨-, -, hvalue⟩ | ⟨-, work, report, -, hvalue⟩
  · rw [hvalue]
  · rw [hvalue, (runCasts_spec _ policy work report).1]

/-- **What a run records** is what the classes that it attributes show. -/
theorem run_analysed (hs : s.Sound) :
    Analysed s.attributor policy s.classPlan (s.analyses policy) s.model
      (s.run policy).value.2.model := by
  rw [model_run]
  exact runClasses_analysed policy hs

/-- **Runs uphold the states of the classes.** -/
theorem runs_upholds (hs : s.Sound) (policies : List CancelPolicy) :
    Upholds s.classPlan s.model (s.runs policies).model := by
  induction policies generalizing s with
  | nil => exact .refl _ _
  | cons policy policies ih =>
    have hrun := (run_spec hs policy).1
    have hplan := hrun.input.classPlan hs hrun.sound.coherent
    exact (run_analysed policy hs).upholds.trans (hplan ▸ ih hrun.sound)

/-- Classes that a later run attributes still need it. -/
theorem needed_of_analyses (hs : s.Sound) (after : List CancelPolicy) {id : ClassId}
    (hid : id ∈ ((s.runs after).analyses policy).map (·.1)) : s.model.needsAttribution id = true := by
  obtain ⟨call, hcall, rfl⟩ := List.mem_map.mp hid
  have hneeded := (run_analysed policy (continues_runs hs after).sound).needed call hcall
  by_contra hclosed
  have hclosed : s.model.needsAttribution call.1 = false := by simpa using hclosed
  rw [needsAttribution, ((runs_upholds hs after).advances call.1).closed hclosed] at hneeded
  cases hneeded.symm.trans hclosed

end

/-- **The states of classes are consistent after every run.**  No class is being analysed.  A class for
    which something was recorded, by any run before, is attributed.  A class that was interrupted is
    attributed and still needs attribution.  A class that is rejected, or attributed and not interrupted,
    stays as it is, and no later run attributes it again. -/
theorem runs_consistent {snapshot : ProgramSnapshot} {config : AnalysisConfig} {noted : Noted Session}
    (hsession : ofSnapshot snapshot config = .ok noted) (policies : List CancelPolicy) :
    let s := noted.value.runs policies
    (∀ id, s.model.state id ≠ .analyzing) ∧
      (∀ before policy after, policies = before ++ policy :: after →
        let found (call : ClassId × AnalysisState) :=
          noted.value.attributor.found policy call.1 call.2
        let analyses := (noted.value.runs before).analyses policy
        (noted.value.runs (before ++ [policy])).model.attributed =
            noted.value.attributor.commitAll (noted.value.runs before).model.attributed
              (analyses.flatMap found) ∧
          ∀ call ∈ analyses, found call ≠ [] → s.model.state call.1 = .attributed) ∧
      (∀ id, s.model.isInterrupted id = true →
        s.model.state id = .attributed ∧ s.model.needsAttribution id = true) ∧
      ∀ id, (s.model.state id = .rejected ∨
          s.model.state id = .attributed ∧ s.model.isInterrupted id = false) →
        ∀ after, (s.runs after).model.progressOf id = s.model.progressOf id ∧
          ∀ policy, id ∉ ((s.runs after).analyses policy).map (·.1) := by
  intro s
  obtain ⟨hs, huntouched⟩ := untouched_ofSnapshot hsession
  have hstart : noted.value.model.Consistent noted.value.classPlan := fun id => by
    rw [progressOf, huntouched.progress]
    exact Progress.consistent_new _
  have hruns (policies : List CancelPolicy) :
      (noted.value.runs policies).model.Consistent noted.value.classPlan :=
    (runs_upholds hs policies).consistent hstart
  have hsound : s.Sound := (continues_runs hs policies).sound
  refine ⟨fun id => (hruns policies id).idle, ?_, fun id hid => ?_, fun id hid after => ?_⟩
  · rintro before policy after rfl
    have hbefore := continues_runs hs before
    have hplan := hbefore.input.classPlan hs hbefore.sound.coherent
    have hattributor : (noted.value.runs before).attributor = noted.value.attributor := by
      rw [attributor, hbefore.input.config, hbefore.input.program, attributor]
    have hrun := run_analysed policy hbefore.sound
    rw [hplan, hattributor] at hrun
    have hnext := hbefore.trans (run_spec hbefore.sound policy).1
    have hafter := runs_upholds hnext.sound after
    rw [hnext.input.classPlan hs hnext.sound.coherent, ← runs_append] at hafter
    refine ⟨?_, fun call hcall hfound => (hafter.advances call.1).attributed
      (hrun.upholds.consistent (hruns before) call.1)
      (hrun.attributed (hruns before) call hcall hfound)⟩
    rw [runs_append]
    exact hrun.recorded
  · obtain ⟨hstate, -⟩ := (hruns policies id).interrupted hid
    exact ⟨hstate, (hruns policies id).isOpen_of_interrupted hid⟩
  · have hclosed : s.model.needsAttribution id = false := Progress.isOpen_of_settled hid
    refine ⟨((runs_upholds hsound after).advances id).closed hclosed, fun policy hcall => ?_⟩
    cases (needed_of_analyses policy hsound after hcall).symm.trans hclosed

/-- A run that is stopped between the constructor and the destructor of a class, and one that goes on to its
    end. -/
theorem runs_consistent_resumed :
    let stop : CancelPolicy := fun w => decide (6 < w.checks)
    ∃ noted, ofSnapshot twoBases {} = .ok noted ∧
      let first := noted.value.runs [stop]
      let s := noted.value.runs [stop, .never]
      first.model.isInterrupted 0xc0 = true ∧ first.model.state 0xc0 = .attributed ∧
        first.model.needsAttribution 0xc0 = true ∧ s.model.state 0xc0 = .attributed ∧
        s.model.isInterrupted 0xc0 = false ∧
        ∀ after, (s.runs after).model.progressOf 0xc0 = s.model.progressOf 0xc0 := by
  intro stop
  obtain ⟨noted, hsession⟩ : ∃ noted, ofSnapshot twoBases {} = .ok noted := ⟨_, rfl⟩
  obtain ⟨discovered, hdiscovered, hvalue⟩ := value_ofSnapshot hsession
  rw [discoverClasses_of_sections_nil rfl hdiscovered] at hvalue
  have hinterrupted : (noted.value.runs [stop]).model.isInterrupted 0xc0 = true := by
    rw [hvalue]
    decide +kernel
  have hclosed : (noted.value.runs [stop, .never]).model.state 0xc0 = .attributed ∧
      (noted.value.runs [stop, .never]).model.isInterrupted 0xc0 = false := by
    rw [hvalue]
    decide +kernel
  obtain ⟨-, -, hfirst, -⟩ := runs_consistent hsession [stop]
  obtain ⟨-, -, -, hlast⟩ := runs_consistent hsession [stop, .never]
  obtain ⟨hstate, hneeds⟩ := hfirst 0xc0 hinterrupted
  exact ⟨noted, hsession, hinterrupted, hstate, hneeds, hclosed.1, hclosed.2,
    fun after => (hlast 0xc0 (.inr hclosed) after).1⟩

end Session

end ClassRecovery
