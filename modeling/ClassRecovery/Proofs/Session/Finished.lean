/-
  Runs that go on to their end.

  A policy shows in what a run gives only by cancelling it: a run that goes on to its end gives what a run
  gives that nothing cancels (`Session.run_of_finishes`).  The work that was done before does not show either.
-/
import ClassRecovery.Proofs.CastOutcomes
import ClassRecovery.Proofs.Session.Uncancelled

namespace ClassRecovery

/-! ## Attribution -/

namespace Attributor

variable {a : Attributor} {policy : CancelPolicy}

theorem runCandidates_of_ok {run : ClassRun} {candidates : List Candidate} {outcome : ClassAttribution}
    {s : AnalysisState} {found : ClassAttribution}
    (h : (a.runCandidates policy run candidates outcome s).value.1 = .ok found) (work : Workload) :
    let r := (a.runCandidates policy run candidates outcome s).value
    let once := (a.runCandidates .never run candidates outcome ⟨s.model, work⟩).value
    once.1 = r.1 ∧ once.2.model = r.2.model := by
  induction candidates generalizing outcome s work with
  | nil => exact ⟨rfl, rfl⟩
  | cons c rest ih =>
    simp only [runCandidates, CancelPolicy.never, Bool.false_eq_true, if_false] at h ⊢
    split at h
    · cases h
    · next hpolicy =>
      rw [if_neg hpolicy]
      split at h
      · next hskip =>
        rw [if_pos hskip, if_pos hskip]
        exact ih h _
      · next hskip =>
        rw [if_neg hskip, if_neg hskip]
        exact ih h _

/-- A class that was not cancelled came out as it does if nothing is cancelled. -/
theorem attributeClass_of_ok {id : ClassId} {s : AnalysisState} {found : ClassAttribution}
    (h : (a.attributeClass policy id s).value.1 = .ok found) (work : Workload) :
    let r := (a.attributeClass policy id s).value
    let once := (a.attributeClass .never id ⟨s.model, work⟩).value
    once.1 = r.1 ∧ once.2.model = r.2.model := by
  cases hcheck : s.model.checkAnalyzable id with
  | error e =>
    rw [attributeClass_of_check_error policy hcheck,
      attributeClass_of_check_error .never (s := ⟨s.model, work⟩) hcheck]
    exact ⟨rfl, rfl⟩
  | ok _ =>
    cases htable : (s.model.offsetTable id).1 with
    | error e =>
      rw [attributeClass_of_table_error policy hcheck htable,
        attributeClass_of_table_error .never (s := ⟨s.model, work⟩) hcheck htable]
      exact ⟨rfl, rfl⟩
    | ok table =>
      rw [attributeClass_of_table policy hcheck htable] at h ⊢
      rw [attributeClass_of_table .never (s := ⟨s.model, work⟩) hcheck htable]
      exact runCandidates_of_ok h work

end Attributor

/-! ## Calls -/

namespace CastResolver

/-- **Passes that are not cancelled** give the same, if they begin with the same overrides. -/
theorem run_of_finished {r : CastResolver} {policy : CancelPolicy} {s s' : CastState}
    (h : ∀ report, (r.run policy s).value.1 = .ok report → report.cancelled = false)
    (hstore : s'.store = s.store) :
    (r.run .never s').value.1 = (r.run policy s).value.1 ∧
      (r.run .never s').value.2.store = (r.run policy s).value.2.store := by
  rcases hfound : r.program.functionsNamed r.config.castEntryName with _ | ⟨f, _ | ⟨g, rest⟩⟩
  · simp only [run, hfound]
    exact ⟨rfl, hstore⟩
  · cases hroutine : (r.routine f).value with
    | error e =>
      simp only [run, hfound, Noted.value_bind, hroutine]
      exact ⟨rfl, hstore⟩
    | ok routine =>
      rw [run_of_routine hfound hroutine policy s] at h ⊢
      rw [run_of_routine hfound hroutine .never s']
      obtain ⟨hreport, hvisited⟩ := visitAll_of_finished (h _ rfl)
      obtain ⟨hreport', hvisited'⟩ := visitAll_of_finished
        (r.visitAll_never routine (r.calls routine) { entryPoint := some f.entry } s')
      rw [hstore] at hreport' hvisited'
      exact ⟨congrArg Except.ok (hreport'.trans hreport.symm), hvisited'.trans hvisited.symm⟩
  · simp only [run, hfound]
    exact ⟨rfl, hstore⟩

end CastResolver

/-! ## Sessions -/

namespace Session

variable {policy : CancelPolicy}

theorem layOutAll_of_finished {ids : List ClassId} {report : AnalysisReport} {s : AnalysisState}
    (h : (layOutAll policy ids report s).value.1 = .finished) (work : Workload) :
    let r := (layOutAll policy ids report s).value
    let once := (layOutAll .never ids report ⟨s.model, work⟩).value
    once.2.1 = r.2.1 ∧ once.2.2.model = r.2.2.model := by
  induction ids generalizing report s work with
  | nil => exact ⟨rfl, rfl⟩
  | cons id rest ih =>
    simp only [layOutAll, CancelPolicy.never, Bool.false_eq_true, if_false] at h ⊢
    split at h
    · cases h
    · next hpolicy =>
      rw [if_neg hpolicy]
      simp only [Noted.value_bind] at h ⊢
      generalize (s.model.buildLayout id).value = built at h ⊢
      obtain ⟨e | l, m⟩ := built
      · exact ih (s := ⟨m, _⟩) h _
      · exact ih (s := ⟨m, _⟩) h _

theorem attributeAll_of_finished {a : Attributor} {ids : List ClassId} {report : AnalysisReport}
    {s : AnalysisState} (h : (attributeAll a policy ids report s).value.1 = .finished)
    (work : Workload) :
    let r := (attributeAll a policy ids report s).value
    let once := (attributeAll a .never ids report ⟨s.model, work⟩).value
    once.2.1 = r.2.1 ∧ once.2.2.model = r.2.2.model := by
  induction ids generalizing report s work with
  | nil => exact ⟨rfl, rfl⟩
  | cons id rest ih =>
    simp only [attributeAll, CancelPolicy.never, Bool.false_eq_true, if_false] at h ⊢
    split at h
    · cases h
    · next hpolicy =>
      rw [if_neg hpolicy]
      split at h
      · next hclosed =>
        rw [if_pos hclosed, if_pos hclosed]
        exact ih (s := ⟨s.model, _⟩) h _
      · next hopen =>
        rw [if_neg hopen, if_neg hopen]
        simp only [Noted.value_bind] at h ⊢
        cases hresult : (a.attributeClass policy id ⟨s.model, s.work.checked⟩).value with
        | mk result s₁ =>
          rw [hresult] at h
          cases result with
          | error e => cases h
          | ok found =>
            obtain ⟨honce, hmodel⟩ :=
              Attributor.attributeClass_of_ok (congrArg Prod.fst hresult) work.checked
            rw [hresult] at honce hmodel
            generalize (a.attributeClass .never id ⟨s.model, work.checked⟩).value = once
              at honce hmodel ⊢
            obtain ⟨result', m, work'⟩ := once
            obtain rfl : result' = .ok found := honce
            obtain rfl : m = s₁.model := hmodel
            exact ih h work'

theorem runClasses_of_finished {s : Session} (h : (s.runClasses policy).value.1 = .finished) :
    let r := (s.runClasses policy).value
    let once := (s.runClasses .never).value
    once.2.1 = r.2.1 ∧ once.2.2.model = r.2.2.model := by
  simp only [runClasses, Noted.value_bind] at h ⊢
  cases hlaid : (layOutAll policy s.model.ids { classes := s.model.size } { model := s.model }).value with
  | mk stop rest =>
    obtain ⟨report, state⟩ := rest
    rw [hlaid] at h
    cases stop with
    | cancelled => cases h
    | finished =>
      obtain ⟨hreport, hmodel⟩ := layOutAll_of_finished (congrArg Prod.fst hlaid) {}
      obtain ⟨hstop, -⟩ := layOutAll_never s.model.ids { classes := s.model.size } { model := s.model }
      rw [hlaid] at hreport hmodel
      generalize (layOutAll .never s.model.ids _ _).value = once at hreport hmodel hstop ⊢
      obtain ⟨stop', report', m, work⟩ := once
      obtain rfl : stop' = .finished := hstop
      obtain rfl : report' = report := hreport
      obtain rfl : m = state.model := hmodel
      exact attributeAll_of_finished h work

/-- What the pass over the calls works with. -/
def resolver (s : Session) : CastResolver := ⟨s.program, s.program.dataflow, s.model, s.config⟩

/-- What a pass over the calls gives and the overrides it leaves, if there is one. -/
def casts (s : Session) (policy : CancelPolicy) (work : Workload) :
    Option (Except AnalysisError CastReport × OverrideStore) :=
  if s.config.dynamicCast.enabled then
    some ((s.resolver.run policy ⟨s.store, work⟩).value.1,
      (s.resolver.run policy ⟨s.store, work⟩).value.2.store)
  else none

/-- The report and the session with what a pass over the calls gave. -/
def addCasts (s : Session) (report : AnalysisReport) :
    Option (Except AnalysisError CastReport × OverrideStore) →
      Except AnalysisError AnalysisReport × Session
  | none => (.ok report, s)
  | some (.error e, _) => (.error e, s)
  | some (.ok cast, store) =>
    (.ok { report with dynamicCast := some cast, cancelled := cast.cancelled }, { s with store })

theorem value_runCasts (s : Session) (policy : CancelPolicy) (work : Workload)
    (report : AnalysisReport) :
    (s.runCasts policy work report).value = s.addCasts report (s.casts policy work) := by
  unfold runCasts casts resolver
  split
  · simp only [Noted.value_bind]
    generalize (CastResolver.run _ policy _).value = r
    obtain ⟨e | cast, state⟩ := r <;> rfl
  · rfl

theorem casts_of_finished {s : Session} {work : Workload}
    (h : ∀ cast store, s.casts policy work = some (.ok cast, store) → cast.cancelled = false)
    (work' : Workload) : s.casts .never work' = s.casts policy work := by
  unfold casts at h ⊢
  split
  · next henabled =>
    rw [if_pos henabled] at h
    obtain ⟨hcast, hstore⟩ := @CastResolver.run_of_finished s.resolver policy ⟨s.store, work⟩
      ⟨s.store, work'⟩ (fun cast hcast => h cast _ (by rw [hcast])) rfl
    rw [hcast, hstore]
  · rfl

/-- The report of a run and the session that it leaves, without the journal. -/
theorem value_run_of_finished {s : Session} (h : (s.runClasses policy).value.1 = .finished) :
    let r := (s.runClasses policy).value
    (s.run policy).value =
      ({ s with model := r.2.2.model }.runCasts policy r.2.2.work
        { r.2.1 with functionsCommitted := r.2.2.model.attributed.size }).value := by
  simp only [run, Noted.value_bind]
  generalize (s.runClasses policy).value = r at h ⊢
  obtain ⟨stop, report, state⟩ := r
  obtain rfl : stop = .finished := h
  simp only [Noted.value_bind]
  generalize (runCasts _ policy state.work _).value = r
  obtain ⟨e | report, s'⟩ := r <;> rfl

/-- **A run that goes on to its end** gives what a run gives that nothing cancels. -/
theorem run_of_finishes {s : Session} (h : s.finishes policy = true) :
    (s.run policy).value = (s.run .never).value := by
  rcases s.value_run policy with ⟨-, hnot, -⟩ | ⟨hfinished, -⟩
  · rw [hnot] at h
    cases h
  · have hvalue := value_run_of_finished hfinished
    obtain ⟨hreport, hmodel⟩ := runClasses_of_finished hfinished
    rw [hvalue, value_runCasts]
    rw [value_run_of_finished s.runClasses_never.1, hreport, hmodel, value_runCasts,
      casts_of_finished fun cast store hcasts => ?_]
    rw [finishes, hvalue, value_runCasts, hcasts, addCasts] at h
    simpa using h

end Session

end ClassRecovery
