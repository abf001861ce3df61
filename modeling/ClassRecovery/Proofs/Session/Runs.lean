/-
  Runs of a session.

  What a session comes to in the end is decided before any run: the recorded functions, the progress of the
  classes and the overrides (`Session.outcome`, `Session.overridden`), and the layouts.  No run changes it,
  whether it is cancelled or not, and a run that is not cancelled gets there (`Session.run_spec`).
  Then nothing is left to do, and later runs change nothing (`Session.done_iff`, `Session.done_runs`).
-/
import ClassRecovery.Proofs.DynamicCast
import ClassRecovery.Proofs.Model.Names
import ClassRecovery.Proofs.Session.Passes

namespace ClassRecovery

open ClassModel

namespace Session

/-! ## Runs -/

/-- The session after several runs. -/
def runs (s : Session) (policies : List CancelPolicy) : Session :=
  policies.foldl (fun s policy => (s.run policy).value.2) s

/-- Whether a run goes on to its end: no check stops it. -/
def finishes (s : Session) (policy : CancelPolicy) : Bool :=
  match (s.run policy).value.1 with
  | .error _ => true
  | .ok report => !report.cancelled

/-- What attributing the classes comes to. -/
def classPlan (s : Session) : ClassId → ClassPlan := s.attributor.plan s.model

/-- The overrides that are offered. -/
def castPlan (s : Session) : List CallSiteOverride :=
  if s.config.dynamicCast.enabled then
    CastResolver.plan ⟨s.program, s.program.dataflow, s.model, s.config⟩
  else []

/-- What attribution comes to in the end. -/
def outcome (s : Session) : Ledger := s.model.ledger.complete s.classPlan s.model.ids

/-- The overrides there are in the end. -/
def overridden (s : Session) : OverrideStore := s.store.acceptAll s.castPlan

/-- The classes of the session hold together, and only interrupted classes remember candidates. -/
structure Sound (s : Session) : Prop where
  coherent : s.model.Coherent
  tidy : s.model.ledger.Tidy

/-- Nothing is left to do but lay out classes. -/
structure Done (s : Session) : Prop where
  classes : ∀ id ∈ s.model.ids, s.model.ledger.Settled s.classPlan id
  casts : ∀ o ∈ s.castPlan, s.store.Settled o

/-- The sessions are about the same classes of the same program. -/
structure SameInput (s s' : Session) : Prop where
  config : s'.config = s.config
  program : s'.program = s.program
  hierarchy : s'.model.hierarchy = s.model.hierarchy
  typeNames : s'.model.typeNames = s.model.typeNames

/-- The second session may follow from the first by a run: it comes to the same in the end. -/
structure Continues (s s' : Session) : Prop where
  input : SameInput s s'
  sound : s'.Sound
  outcome : s'.outcome = s.outcome
  overridden : s'.overridden = s.overridden
  done : s.Done → s'.Done

section
variable {s s' : Session} {policy : CancelPolicy}

theorem SameInput.classes (h : SameInput s s') : s'.model.classes = s.model.classes :=
  congrArg Hierarchy.classes h.hierarchy

theorem SameInput.ids (h : SameInput s s') : s'.model.ids = s.model.ids := by
  rw [ClassModel.ids, h.classes, ClassModel.ids]

theorem SameInput.classPlan (h : SameInput s s') (hs : s.Sound) (hs' : s'.model.Coherent) :
    s'.classPlan = s.classPlan := by
  have hattributor : s'.attributor = s.attributor := by
    rw [attributor, h.config, h.program, attributor]
  rw [Session.classPlan, hattributor]
  exact funext (s.attributor.plan_congr hs' hs.coherent h.hierarchy)

theorem SameInput.castPlan (h : SameInput s s') : s'.castPlan = s.castPlan := by
  rw [Session.castPlan, h.config, h.program, CastResolver.plan_congr h.classes, Session.castPlan]

/-- A session is done if and only if it has what it comes to. -/
theorem done_iff : s.Done ↔ s.model.ledger = s.outcome ∧ s.store = s.overridden := by
  constructor
  · intro h
    exact ⟨(Ledger.complete_of_settled h.classes).symm,
      (OverrideStore.acceptAll_of_settled h.casts).symm⟩
  · rintro ⟨hledger, hstore⟩
    constructor
    · rw [hledger]
      exact Ledger.settled_complete s.classPlan s.model.ledger s.model.ids
    · rw [hstore]
      exact s.store.settled_acceptAll s.castPlan

theorem Continues.trans {s'' : Session} (h : Continues s s') (h' : Continues s' s'') :
    Continues s s'' where
  input := ⟨h'.input.config.trans h.input.config, h'.input.program.trans h.input.program,
    h'.input.hierarchy.trans h.input.hierarchy, h'.input.typeNames.trans h.input.typeNames⟩
  sound := h'.sound
  outcome := h'.outcome.trans h.outcome
  overridden := h'.overridden.trans h.overridden
  done := h'.done ∘ h.done

/-! ## The passes of a run -/

theorem ledger_eq_of_keeps {m m' : ClassModel} (h : Keeps m m') : m'.ledger = m.ledger := by
  rw [ledger, h.1.attributed, h.1.progress, ledger]

theorem runClasses_spec (hs : s.Sound) (policy : CancelPolicy) :
    let r := (s.runClasses policy).value
    r.2.2.model.hierarchy = s.model.hierarchy ∧ r.2.2.model.typeNames = s.model.typeNames ∧
      r.2.2.model.Coherent ∧
      Passed s.classPlan s.model.ids s.model.ledger r.2.2.model.ledger r.1 := by
  have hkeeps := keeps_layOutAll policy s.model.ids { classes := s.model.size } { model := s.model }
  simp only [runClasses, Noted.value_bind]
  generalize (layOutAll policy s.model.ids _ _).value = r at hkeeps ⊢
  obtain ⟨stop, report, state⟩ := r
  simp only at hkeeps
  have hledger := ledger_eq_of_keeps hkeeps
  have hcoherent := hkeeps.2 hs.coherent
  cases stop with
  | cancelled =>
    refine ⟨hkeeps.1.hierarchy, hkeeps.1.typeNames, hcoherent, ?_⟩
    change Passed s.classPlan s.model.ids s.model.ledger state.model.ledger .cancelled
    rw [hledger]
    exact .cancelled hs.tidy
  | finished =>
    obtain ⟨hattributes, hpassed⟩ := attributeAll_spec s.attributor policy hs.coherent s.model.ids
      report hcoherent hkeeps.1.hierarchy (hledger ▸ hs.tidy)
    exact ⟨hattributes.hierarchy.trans hkeeps.1.hierarchy,
      hattributes.typeNames.trans hkeeps.1.typeNames, hattributes.coherent hcoherent,
      hledger ▸ hpassed⟩

theorem runCasts_spec (s : Session) (policy : CancelPolicy) (work : Workload)
    (report : AnalysisReport) :
    let r := (s.runCasts policy work report).value
    r.2 = { s with store := r.2.store } ∧
      ∃ front rest, s.castPlan = front ++ rest ∧ r.2.store = s.store.acceptAll front ∧
        ((∀ report, r.1 = .ok report → report.cancelled = false) → rest = []) := by
  unfold runCasts castPlan
  split
  · obtain ⟨⟨front, rest, hsplit, hstore, hfinished⟩, herror⟩ := CastResolver.run_spec
      ⟨s.program, s.program.dataflow, s.model, s.config⟩ policy ⟨s.store, work⟩
    simp only [Noted.value_bind]
    generalize (CastResolver.run _ policy ⟨s.store, work⟩).value = r at hstore hfinished herror ⊢
    rcases r with ⟨e | cast, state⟩
    · exact ⟨rfl, [], [], herror e rfl, rfl, fun _ => rfl⟩
    · exact ⟨rfl, front, rest, hsplit, hstore, fun h => hfinished cast rfl (h _ rfl)⟩
  · exact ⟨rfl, [], [], rfl, rfl, fun _ => rfl⟩

/-- A run is a pass over the classes and, unless that is cancelled, one over the calls. -/
theorem value_run (s : Session) (policy : CancelPolicy) :
    let r := (s.runClasses policy).value
    (r.1 = .cancelled ∧ s.finishes policy = false ∧
      (s.run policy).value.2 = { s with model := r.2.2.model }) ∨
    (r.1 = .finished ∧ ∃ work report, report.cancelled = r.2.1.cancelled ∧
      (s.run policy).value = ({ s with model := r.2.2.model }.runCasts policy work report).value) := by
  unfold finishes
  simp only [run, Noted.value_bind]
  generalize (s.runClasses policy).value = r
  obtain ⟨stop, report, state⟩ := r
  cases stop with
  | cancelled => exact .inl ⟨rfl, rfl, rfl⟩
  | finished =>
    refine .inr ⟨rfl, state.work, { report with functionsCommitted := state.model.attributed.size },
      rfl, ?_⟩
    simp only [Noted.value_bind]
    generalize (runCasts _ policy state.work _).value = r
    rcases r with ⟨e | report, s'⟩ <;> rfl

/-! ## One run -/

/-- The session after a pass over the classes. -/
theorem continues_runClasses (hs : s.Sound) (policy : CancelPolicy) :
    let r := (s.runClasses policy).value
    let s₁ : Session := { s with model := r.2.2.model }
    Continues s s₁ ∧ (r.1 = .finished → ∀ id ∈ s₁.model.ids, s₁.model.ledger.Settled s₁.classPlan id) := by
  intro r s₁
  obtain ⟨hhierarchy, hnames, hcoherent, hpassed⟩ := runClasses_spec hs policy
  have hinput : SameInput s s₁ := ⟨rfl, rfl, hhierarchy, hnames⟩
  have hplan := hinput.classPlan hs hcoherent
  refine ⟨⟨hinput, ⟨hcoherent, hpassed.tidy⟩, ?_, ?_, fun hdone => ⟨?_, ?_⟩⟩, ?_⟩
  · rw [outcome, hplan, hinput.ids]
    exact hpassed.outcome
  · rw [overridden, hinput.castPlan]
    rfl
  · rw [hplan, hinput.ids]
    exact fun id hid => hpassed.settles id (hdone.classes id hid)
  · rw [hinput.castPlan]
    exact hdone.casts
  · rw [hplan, hinput.ids]
    exact hpassed.finished

/-- The session after a pass over the calls. -/
theorem continues_runCasts (hs : s.Sound) (policy : CancelPolicy) (work : Workload)
    (report : AnalysisReport) :
    let r := (s.runCasts policy work report).value
    Continues s r.2 ∧
      ((∀ id ∈ s.model.ids, s.model.ledger.Settled s.classPlan id) →
        (∀ report, r.1 = .ok report → report.cancelled = false) → r.2.Done) := by
  intro r
  obtain ⟨hr, front, rest, hsplit, hstore, hfinished⟩ := s.runCasts_spec policy work report
  have hinput : SameInput s { s with store := r.2.store } := ⟨rfl, rfl, rfl, rfl⟩
  rw [hr, hstore]
  refine ⟨⟨⟨rfl, rfl, rfl, rfl⟩, ⟨hs.coherent, hs.tidy⟩, rfl, ?_, fun hdone => ⟨hdone.classes, ?_⟩⟩,
    fun hsettled hnever => ⟨hsettled, ?_⟩⟩
  · change (s.store.acceptAll front).acceptAll s.castPlan = s.store.acceptAll s.castPlan
    rw [hsplit, OverrideStore.acceptAll_acceptAll]
  · exact fun o ho => (hdone.casts o ho).acceptAll front
  · change ∀ o ∈ s.castPlan, (s.store.acceptAll front).Settled o
    rw [hsplit, hfinished hnever, List.append_nil]
    exact s.store.settled_acceptAll front

/-- **A run changes nothing about what the session comes to**, and a run that is not cancelled gets
    there. -/
theorem run_spec (hs : s.Sound) (policy : CancelPolicy) :
    Continues s (s.run policy).value.2 ∧
      (s.finishes policy = true → (s.run policy).value.2.Done) := by
  obtain ⟨hclasses, hsettled⟩ := continues_runClasses hs policy
  rcases s.value_run policy with ⟨-, hfinishes, hvalue⟩ | ⟨hfinished, work, report, -, hvalue⟩
  · rw [hvalue, hfinishes]
    exact ⟨hclasses, by simp⟩
  · obtain ⟨hcasts, hdone⟩ := continues_runCasts hclasses.sound policy work report
    rw [finishes, hvalue]
    refine ⟨hclasses.trans hcasts, fun hfinishes => hdone (hsettled hfinished) ?_⟩
    intro report hreport
    rw [hreport] at hfinishes
    simpa using hfinishes

/-! ## Several runs -/

theorem Continues.refl (hs : s.Sound) : Continues s s :=
  ⟨⟨rfl, rfl, rfl, rfl⟩, hs, rfl, rfl, id⟩

/-- **No runs change what the session comes to.** -/
theorem continues_runs (hs : s.Sound) (policies : List CancelPolicy) :
    Continues s (s.runs policies) := by
  induction policies generalizing s with
  | nil => exact .refl hs
  | cons policy policies ih =>
    have hrun := (run_spec hs policy).1
    exact hrun.trans (ih hrun.sound)

theorem runs_append (s : Session) (before after : List CancelPolicy) (policy : CancelPolicy) :
    s.runs (before ++ policy :: after) = (((s.runs before).run policy).value.2).runs after := by
  simp [runs]

/-- Once a run was not cancelled, the session is done. -/
theorem done_runs (hs : s.Sound) {before : List CancelPolicy}
    (hfinishes : (s.runs before).finishes policy = true) (after : List CancelPolicy) :
    (s.runs (before ++ policy :: after)).Done := by
  have hbefore := continues_runs hs before
  obtain ⟨hrun, hdone⟩ := run_spec hbefore.sound policy
  rw [runs_append]
  exact (continues_runs hrun.sound after).done (hdone hfinishes)

/-! ## Layouts -/

section
variable {h : Hierarchy} {names : OrderedMap ClassId String} (hnames : Distinct names)
include hnames

theorem layouts_runClasses (hs : s.Sound) (hdescribes : Describes h names s.model)
    (policy : CancelPolicy) :
    let r := (s.runClasses policy).value
    Describes h names r.2.2.model ∧ Extends s.model.types r.2.2.model.types ∧
      (r.1 = .finished → LaidOut h names s.model.ids r.2.2.model.types) := by
  have hlaid := layOutAll_spec hnames policy s.model.ids { classes := s.model.size }
    (s := { model := s.model }) hdescribes
  have hkeeps := keeps_layOutAll policy s.model.ids { classes := s.model.size } { model := s.model }
  simp only [runClasses, Noted.value_bind]
  generalize (layOutAll policy s.model.ids _ _).value = r at hlaid hkeeps ⊢
  obtain ⟨stop, report, state⟩ := r
  cases stop with
  | cancelled => exact ⟨hlaid.1, hlaid.2.1, by rintro ⟨⟩⟩
  | finished =>
    obtain ⟨hstate, hextends, hall⟩ := hlaid
    obtain ⟨hattributes, -⟩ := attributeAll_spec s.attributor policy hs.coherent s.model.ids
      report hstate.coherent hkeeps.1.hierarchy (ledger_eq_of_keeps hkeeps ▸ hs.tidy)
    simp only at hstate hextends hall
    refine ⟨⟨hattributes.coherent hstate.coherent, hattributes.hierarchy.trans hstate.hierarchy,
      hattributes.typeNames.trans hstate.typeNames, ?_⟩, ?_, fun _ => ?_⟩
    · exact hattributes.types ▸ hstate.registered
    · exact hattributes.types ▸ hextends
    · exact hattributes.types ▸ hall trivial

/-- **Registered layouts stay**, and a run that is not cancelled registers those of all classes that can
    be laid out. -/
theorem layouts_run (hs : s.Sound) (hdescribes : Describes h names s.model)
    (policy : CancelPolicy) :
    let s' := (s.run policy).value.2
    Describes h names s'.model ∧ Extends s.model.types s'.model.types ∧
      (s.finishes policy = true → LaidOut h names s.model.ids s'.model.types) := by
  obtain ⟨hclasses, hextends, hall⟩ := layouts_runClasses hnames hs hdescribes policy
  rcases s.value_run policy with ⟨-, hfinishes, hvalue⟩ | ⟨hfinished, work, report, -, hvalue⟩
  · rw [hvalue, hfinishes]
    exact ⟨hclasses, hextends, by simp⟩
  · obtain ⟨hr, -⟩ := runCasts_spec { s with model := (s.runClasses policy).value.2.2.model } policy
      work report
    rw [hvalue, hr]
    exact ⟨hclasses, hextends, fun _ => hall hfinished⟩

theorem layouts_runs (hs : s.Sound) (hdescribes : Describes h names s.model)
    (policies : List CancelPolicy) :
    Describes h names (s.runs policies).model ∧
      Extends s.model.types (s.runs policies).model.types := by
  induction policies generalizing s with
  | nil => exact ⟨hdescribes, fun _ _ hl => hl⟩
  | cons policy policies ih =>
    obtain ⟨hrun, hextends, -⟩ := layouts_run hnames hs hdescribes policy
    obtain ⟨hruns, hextends'⟩ := ih (run_spec hs policy).1.sound hrun
    exact ⟨hruns, fun name l hl => hextends' name l (hextends name l hl)⟩

/-- Once a run was not cancelled, all classes that can be laid out are. -/
theorem laidOut_runs (hs : s.Sound) (hdescribes : Describes h names s.model)
    {before : List CancelPolicy} (hfinishes : (s.runs before).finishes policy = true)
    (after : List CancelPolicy) :
    let s' := s.runs (before ++ policy :: after)
    Describes h names s'.model ∧ LaidOut h names s.model.ids s'.model.types := by
  have hbefore := continues_runs hs before
  have hrun := (run_spec hbefore.sound policy).1
  obtain ⟨hlayouts, -⟩ := layouts_runs hnames hs hdescribes before
  obtain ⟨hlayouts', -, hall⟩ := layouts_run hnames hbefore.sound hlayouts policy
  obtain ⟨hlayouts'', hextends⟩ := layouts_runs hnames hrun.sound hlayouts' after
  rw [runs_append]
  refine ⟨hlayouts'', fun id hid typeName hlays hname => hextends.contains ?_⟩
  exact hall hfinishes id (hbefore.input.ids ▸ hid) typeName hlays hname

end

end

end Session

end ClassRecovery
