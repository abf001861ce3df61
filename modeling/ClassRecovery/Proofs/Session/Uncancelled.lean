/-
  Runs that nothing cancels.

  If no check ever asks to stop, every pass goes on to its end, and so does the run
  (`Session.finishes_never`).
-/
import ClassRecovery.Proofs.Session.Runs

namespace ClassRecovery

/-! ## Attribution -/

namespace Attributor

theorem runCandidates_never (a : Attributor) (run : ClassRun) (candidates : List Candidate)
    (outcome : ClassAttribution) (s : AnalysisState) :
    ∃ found, (a.runCandidates .never run candidates outcome s).value.1 = .ok found := by
  induction candidates generalizing outcome s with
  | nil => exact ⟨_, rfl⟩
  | cons c rest ih =>
    simp only [runCandidates, CancelPolicy.never, Bool.false_eq_true, if_false]
    split
    · exact ih outcome _
    · exact ih _ _

theorem attributeClass_never (a : Attributor) (id : ClassId) (s : AnalysisState) :
    ∃ found, (a.attributeClass .never id s).value.1 = .ok found := by
  cases hplan : a.plan s.model id with
  | skipped =>
    obtain ⟨found, hvalue⟩ := attributeClass_of_skipped .never hplan
    exact ⟨found, by rw [hvalue]⟩
  | untabled =>
    obtain ⟨found, hvalue⟩ := attributeClass_of_untabled .never hplan
    exact ⟨found, by rw [hvalue]⟩
  | trials trials =>
    obtain ⟨table, candidates, -, -, hvalue⟩ := attributeClass_of_trials .never hplan
    rw [hvalue]
    exact a.runCandidates_never _ candidates _ _

end Attributor

/-! ## Calls -/

namespace CastResolver

theorem cancelled_add (report : CastReport) (outcome : CastOutcome) :
    (report.add outcome).cancelled = report.cancelled := by
  cases outcome <;> rfl

theorem visitAll_never (r : CastResolver) (routine : CastRoutine) (references : List Reference)
    (report : CastReport) (s : CastState) :
    (r.visitAll .never routine references report s).value.1.cancelled = report.cancelled := by
  induction references generalizing report s with
  | nil => rfl
  | cons reference rest ih =>
    simp only [visitAll, CancelPolicy.never, Bool.false_eq_true, if_false]
    exact (ih _ _).trans (cancelled_add report _)

theorem run_never (r : CastResolver) (s : CastState) {report : CastReport}
    (h : (r.run .never s).value.1 = .ok report) : report.cancelled = false := by
  simp only [run] at h
  generalize r.program.functionsNamed r.config.castEntryName = found at h
  rcases found with _ | ⟨f, _ | ⟨g, rest⟩⟩
  · cases h
    rfl
  · simp only [Noted.value_bind] at h
    generalize (r.routine f).value = found at h
    rcases found with e | routine
    · cases h
    · cases h
      exact r.visitAll_never routine _ _ _
  · cases h

end CastResolver

/-! ## Sessions -/

namespace Session

theorem cancelled_addAttribution (report : AnalysisReport) (outcome : ClassAttribution) :
    (report.addAttribution outcome).cancelled = report.cancelled := by
  simp only [AnalysisReport.addAttribution]
  split
  · rfl
  · rfl
  all_goals split <;> rfl

theorem layOutAll_never (ids : List ClassId) (report : AnalysisReport) (s : AnalysisState) :
    (layOutAll .never ids report s).value.1 = .finished ∧
      (layOutAll .never ids report s).value.2.1.cancelled = report.cancelled := by
  induction ids generalizing report s with
  | nil => exact ⟨rfl, rfl⟩
  | cons id rest ih =>
    obtain ⟨report', hreport, hvalue⟩ := @layOutAll_cons .never s rfl id rest report
    rw [hvalue]
    exact ⟨(ih report' _).1, (ih report' _).2.trans hreport⟩

theorem attributeAll_never (a : Attributor) (ids : List ClassId) (report : AnalysisReport)
    (s : AnalysisState) :
    (attributeAll a .never ids report s).value.1 = .finished ∧
      (attributeAll a .never ids report s).value.2.1.cancelled = report.cancelled := by
  induction ids generalizing report s with
  | nil => exact ⟨rfl, rfl⟩
  | cons id rest ih =>
    simp only [attributeAll, CancelPolicy.never, Bool.false_eq_true, if_false]
    split
    · exact ih report _
    · obtain ⟨found, hfound⟩ := a.attributeClass_never id { s with work := s.work.checked }
      simp only [Noted.value_bind]
      generalize (a.attributeClass .never id _).value = r at hfound ⊢
      obtain ⟨result, s'⟩ := r
      obtain rfl : result = .ok found := hfound
      exact ⟨(ih _ s').1, (ih _ s').2.trans (cancelled_addAttribution report found)⟩

theorem runClasses_never (s : Session) :
    (s.runClasses .never).value.1 = .finished ∧
      (s.runClasses .never).value.2.1.cancelled = false := by
  obtain ⟨hstop, hreport⟩ :=
    layOutAll_never s.model.ids { classes := s.model.size } { model := s.model }
  simp only [runClasses, Noted.value_bind]
  generalize (layOutAll .never s.model.ids _ _).value = r at hstop hreport ⊢
  obtain ⟨stop, report, state⟩ := r
  obtain rfl : stop = .finished := hstop
  obtain ⟨hstop', hreport'⟩ := attributeAll_never s.attributor s.model.ids report state
  exact ⟨hstop', hreport'.trans hreport⟩

theorem runCasts_never (s : Session) (work : Workload) {report report' : AnalysisReport}
    (hreport : report.cancelled = false)
    (h : (s.runCasts .never work report).value.1 = .ok report') : report'.cancelled = false := by
  unfold runCasts at h
  split at h
  · simp only [Noted.value_bind] at h
    generalize hcast : (CastResolver.run _ .never _).value = r at h
    rcases r with ⟨e | cast, state⟩
    · cases h
    · cases h
      exact CastResolver.run_never _ _ (congrArg Prod.fst hcast)
  · cases h
    exact hreport

/-- **A run that nothing cancels goes on to its end.** -/
theorem finishes_never (s : Session) : s.finishes .never = true := by
  obtain ⟨hstop, hreport⟩ := s.runClasses_never
  rcases s.value_run .never with ⟨hcancelled, -⟩ | ⟨-, work, report, hsame, hvalue⟩
  · rw [hstop] at hcancelled
    cases hcancelled
  · rw [finishes, hvalue]
    split
    · rfl
    · next report' hreport' =>
      rw [runCasts_never _ work (hsame.trans hreport) hreport']
      rfl

end Session

end ClassRecovery
