/-
  Passes over the classes.

  A pass that lays out classes keeps what is registered, and to the end it registers the layouts of all
  classes that can be laid out (`Session.layOutAll_spec`).  A pass that attributes classes settles some of
  them, and leaves the outcome for all of them as it is (`Session.attributeAll_spec`).
-/
import ClassRecovery.Proofs.Attribution.Resumption
import ClassRecovery.Proofs.Model.Building
import ClassRecovery.Session

namespace ClassRecovery

open ClassModel

namespace Session

/-! ## Laying out -/

theorem layOutAll_cons {policy : CancelPolicy} {s : AnalysisState} (hgo : policy s.work = false)
    (id : ClassId) (rest : List ClassId) (report : AnalysisReport) :
    ∃ report', report'.cancelled = report.cancelled ∧
      (layOutAll policy (id :: rest) report s).value =
        (layOutAll policy rest report' ⟨(s.model.buildLayout id).value.2, s.work.checked⟩).value := by
  simp only [layOutAll, hgo, Bool.false_eq_true, if_false, Noted.value_bind]
  rcases (s.model.buildLayout id).value with ⟨e | l, m⟩
  · exact ⟨{ report with layoutFailures := report.layoutFailures ++ [(id, e)] }, rfl, rfl⟩
  · exact ⟨{ report with classesLaidOut := report.classesLaidOut + 1 }, rfl, rfl⟩

theorem layOutAll_cancelled {policy : CancelPolicy} {s : AnalysisState} (hstop : policy s.work = true)
    (id : ClassId) (rest : List ClassId) (report : AnalysisReport) :
    (layOutAll policy (id :: rest) report s).value =
      (.cancelled, report, ⟨s.model, s.work.checked⟩) := by
  simp only [layOutAll, hstop, if_true]
  rfl

theorem keeps_layOutAll (policy : CancelPolicy) (ids : List ClassId) (report : AnalysisReport)
    (s : AnalysisState) : Keeps s.model (layOutAll policy ids report s).value.2.2.model := by
  induction ids generalizing report s with
  | nil => exact .refl _
  | cons id rest ih =>
    cases hpolicy : policy s.work with
    | true =>
      rw [layOutAll_cancelled hpolicy]
      exact .refl _
    | false =>
      obtain ⟨report', -, hvalue⟩ := layOutAll_cons hpolicy id rest report
      rw [hvalue]
      exact (keeps_buildWithin (s.model.size + 1) id s.model).trans (ih report' ⟨_, _⟩)

/-- Every one of the classes that can be laid out has a registered layout. -/
def LaidOut (h : Hierarchy) (names : OrderedMap ClassId String) (ids : List ClassId)
    (types : TypeDatabase) : Prop :=
  ∀ id ∈ ids, ∀ typeName, LaysOut h names id → names.get? id = some typeName →
    types.contains typeName = true

/-- **Laying out classes**, unless cancelled. -/
theorem layOutAll_spec {h : Hierarchy} {names : OrderedMap ClassId String} (hnames : Distinct names)
    (policy : CancelPolicy) (ids : List ClassId) (report : AnalysisReport) {s : AnalysisState}
    (hs : Describes h names s.model) :
    let r := (layOutAll policy ids report s).value
    Describes h names r.2.2.model ∧ Extends s.model.types r.2.2.model.types ∧
      (r.1 = .finished → LaidOut h names ids r.2.2.model.types) := by
  induction ids generalizing report s with
  | nil => exact ⟨hs, fun _ _ hl => hl, fun _ => by simp [LaidOut]⟩
  | cons id rest ih =>
    cases hpolicy : policy s.work with
    | true =>
      rw [layOutAll_cancelled hpolicy]
      exact ⟨hs, fun _ _ hl => hl, by rintro ⟨⟩⟩
    | false =>
      obtain ⟨report', -, hvalue⟩ := layOutAll_cons hpolicy id rest report
      have hbuilt := buildLayout_spec hnames hs id
      obtain ⟨hdescribes, hextends, hall⟩ := ih report'
        (s := ⟨(s.model.buildLayout id).value.2, s.work.checked⟩) hbuilt.describes
      rw [hvalue]
      refine ⟨hdescribes, fun name l hl => hextends name l (hbuilt.grows name l hl), ?_⟩
      intro hfinished id' hid' typeName hlays hname
      rcases List.mem_cons.mp hid' with rfl | hid'
      · exact hextends.contains (hbuilt.contains hlays hname)
      · exact hall hfinished id' hid' typeName hlays hname

/-! ## Attributing -/

/-- What attributing classes may leave: some of them are settled, settled classes stay settled, and the
    outcome for all of them is as before. -/
structure Passed (plan : ClassId → ClassPlan) (ids : List ClassId) (l l' : Ledger) (stop : PassEnd) :
    Prop where
  tidy : l'.Tidy
  settles : ∀ id, l.Settled plan id → l'.Settled plan id
  outcome : l'.complete plan ids = l.complete plan ids
  finished : stop = .finished → ∀ id ∈ ids, l'.Settled plan id

theorem Passed.cancelled {plan : ClassId → ClassPlan} {ids : List ClassId} {l : Ledger}
    (htidy : l.Tidy) : Passed plan ids l l .cancelled :=
  ⟨htidy, fun _ h => h, rfl, by rintro ⟨⟩⟩

/-- One more class: it is settled at once, or by a step before the others are. -/
theorem Passed.cons {plan : ClassId → ClassPlan} {ids : List ClassId} {l l₁ l' : Ledger}
    {stop : PassEnd} {id : ClassId} (hstep : l₁ = l.finishClass id (plan id))
    (hsettles : ∀ id', l.Settled plan id' → l₁.Settled plan id')
    (hrest : Passed plan ids l₁ l' stop) : Passed plan (id :: ids) l l' stop := by
  have hsettled : l₁.Settled plan id := hstep ▸ l.settled_finishClass plan id
  refine ⟨hrest.tidy, fun id' h => hrest.settles id' (hsettles id' h), ?_, fun hfinished => ?_⟩
  · rw [Ledger.complete_cons, Ledger.complete_cons, (hrest.settles id hsettled).finishClass_eq,
      hrest.outcome, hstep]
  · simpa using ⟨hrest.settles id hsettled, hrest.finished hfinished⟩

/-- **Attributing classes**, unless cancelled. -/
theorem attributeAll_spec (a : Attributor) (policy : CancelPolicy) {m₀ : ClassModel}
    (hm₀ : m₀.Coherent) (ids : List ClassId) (report : AnalysisReport) {s : AnalysisState}
    (hm : s.model.Coherent) (hsame : s.model.hierarchy = m₀.hierarchy)
    (htidy : s.model.ledger.Tidy) :
    let r := (attributeAll a policy ids report s).value
    Attributes s.model r.2.2.model ∧
      Passed (a.plan m₀) ids s.model.ledger r.2.2.model.ledger r.1 := by
  induction ids generalizing report s with
  | nil => exact ⟨.refl _, htidy, fun _ h => h, rfl, by simp⟩
  | cons id rest ih =>
    have hplan : a.plan s.model = a.plan m₀ := funext (a.plan_congr hm hm₀ hsame)
    simp only [attributeAll]
    split
    · exact ⟨.refl _, .cancelled htidy⟩
    · split
      · next hclosed =>
        have hclosed : s.model.needsAttribution id = false := by simpa using hclosed
        have hsettled : s.model.ledger.Settled (a.plan m₀) id := .inr hclosed
        obtain ⟨hattributes, hpassed⟩ :=
          ih report (s := { s with work := s.work.checked }) hm hsame htidy
        exact ⟨hattributes, .cons hsettled.finishClass_eq.symm (fun _ h => h) hpassed⟩
      · next hopen =>
        have hopen : s.model.needsAttribution id = true := by simpa using hopen
        have hclass := Attributor.attributeClass_spec policy (a := a)
          (s := { s with work := s.work.checked }) htidy hopen
        have hsettles := hclass.settles hopen
        simp only [hplan] at hclass hsettles
        simp only [Noted.value_bind]
        generalize (a.attributeClass policy id _).value = r at hclass hsettles ⊢
        rcases r with ⟨e | found, s'⟩
        · have hfinish : s'.model.ledger.finishClass id (a.plan m₀ id) = _ := hclass.error e rfl
          refine ⟨hclass.attributes, hclass.tidy, hsettles, ?_, by rintro ⟨⟩⟩
          change s'.model.ledger.complete (a.plan m₀) (id :: rest) = _
          rw [Ledger.complete_cons, Ledger.complete_cons, hfinish]
        · obtain ⟨hattributes, hpassed⟩ := ih (report.addAttribution found) (s := s')
            (hclass.attributes.coherent hm) (hclass.attributes.hierarchy.trans hsame) hclass.tidy
          exact ⟨hclass.attributes.trans hattributes, .cons (hclass.ok found rfl) hsettles hpassed⟩

end Session

end ClassRecovery
