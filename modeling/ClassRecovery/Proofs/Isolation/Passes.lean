/-
  Passes over classes some of which have no offset tables.

  A pass comes to such a class between two others, reports it, and goes on with the next one as if it had
  not been there (`Session.layOutAll_inStep`, `Session.attributeAll_inStep`).  So what is reported of
  the other classes is the same (`AnalysisReport.Covers`).
-/
import ClassRecovery.Proofs.Attribution.Commits
import ClassRecovery.Proofs.Isolation.Models
import ClassRecovery.Proofs.Session.Uncancelled

namespace ClassRecovery

open ClassModel

/-- The second report says of all but the extra classes what the first says, and no extra class is
    laid out or attributed. -/
structure AnalysisReport.Covers (extra : List ClassId) (r r' : AnalysisReport) : Prop where
  classesLaidOut : r'.classesLaidOut = r.classesLaidOut
  layoutFailures : r'.layoutFailures.filter (fun failure => failure.1 ∉ extra) = r.layoutFailures
  classesAttributed : r'.classesAttributed = r.classesAttributed
  functionsCommitted : r'.functionsCommitted = r.functionsCommitted
  attributions : r'.attributions.filter (fun a => a.owner ∉ extra) = r.attributions
  dynamicCast : r'.dynamicCast = r.dynamicCast
  cancelled : r'.cancelled = r.cancelled

namespace AnalysisReport

/-- Adding an outcome touches nothing but the outcomes and what is counted of them. -/
theorem addAttribution_eq (r : AnalysisReport) (a : ClassAttribution) :
    ∃ rejected skipped, r.addAttribution a =
      { r with
        attributions := r.attributions ++ [a]
        classesAttributed := r.classesAttributed + if a.state = .attributed then 1 else 0
        classesRejected := rejected
        classesSkipped := skipped } := by
  unfold addAttribution
  cases hstate : a.state with
  | attributed => exact ⟨r.classesRejected, r.classesSkipped, by simp⟩
  | rejected => exact ⟨r.classesRejected + 1, r.classesSkipped, by simp⟩
  | notAnalyzed | analyzing =>
    cases hskipped : a.skipped.isSome with
    | true => exact ⟨r.classesRejected, r.classesSkipped + 1, by simp⟩
    | false => exact ⟨r.classesRejected, r.classesSkipped, by simp⟩

namespace Covers

variable {extra : List ClassId} {r r' : AnalysisReport} (h : Covers extra r r')
include h

theorem addLayout :
    Covers extra { r with classesLaidOut := r.classesLaidOut + 1 }
      { r' with classesLaidOut := r'.classesLaidOut + 1 } :=
  { h with classesLaidOut := congrArg (· + 1) h.classesLaidOut }

theorem addFailure {id : ClassId} (hid : id ∉ extra) (e : ModelError) :
    Covers extra { r with layoutFailures := r.layoutFailures ++ [(id, e)] }
      { r' with layoutFailures := r'.layoutFailures ++ [(id, e)] } :=
  { h with
    layoutFailures := by
      rw [List.filter_append, h.layoutFailures]
      simp [hid] }

theorem addFailure_extra {id : ClassId} (hid : id ∈ extra) (e : ModelError) :
    Covers extra r { r' with layoutFailures := r'.layoutFailures ++ [(id, e)] } :=
  { h with
    layoutFailures := by
      rw [List.filter_append, h.layoutFailures]
      simp [hid] }

theorem addAttribution {a : ClassAttribution} (ha : a.owner ∉ extra) :
    Covers extra (r.addAttribution a) (r'.addAttribution a) := by
  obtain ⟨_, _, hadd⟩ := r.addAttribution_eq a
  obtain ⟨_, _, hadd'⟩ := r'.addAttribution_eq a
  rw [hadd, hadd']
  exact
    { h with
      classesAttributed := congrArg (· + _) h.classesAttributed
      attributions := by
        rw [List.filter_append, h.attributions]
        simp [ha] }

theorem addAttribution_extra {a : ClassAttribution} (ha : a.owner ∈ extra)
    (hstate : a.state ≠ .attributed) : Covers extra r (r'.addAttribution a) := by
  obtain ⟨_, _, hadd⟩ := r'.addAttribution_eq a
  rw [hadd]
  exact
    { h with
      classesAttributed := by simp [hstate, h.classesAttributed]
      attributions := by
        rw [List.filter_append, h.attributions]
        simp [ha] }

end Covers

end AnalysisReport

/-! ## Attributing in step -/

namespace ClassModel

namespace InStep

variable {extra : List ClassId} {m₀ m₀' m m' : ClassModel} (h : InStep extra m₀ m₀' m m')
include h

/-- What changes the attribution only keeps models in step, if it changes that alike. -/
theorem of_attributes {n n' : ClassModel} (hn : Attributes m n) (hn' : Attributes m' n')
    (hattributed : n'.attributed = n.attributed)
    (hprogress : ∀ id ∉ extra, n'.progressOf id = n.progressOf id) : InStep extra m₀ m₀' n n' where
  left := ⟨hn.coherent h.left.coherent, hn.hierarchy.trans h.left.hierarchy,
    hn.typeNames.trans h.left.typeNames⟩
  right := ⟨hn'.coherent h.right.coherent, hn'.hierarchy.trans h.right.hierarchy,
    hn'.typeNames.trans h.right.typeNames⟩
  types := by rw [hn'.types, hn.types, h.types]
  attributed := hattributed
  progress := hprogress

theorem setProgress (id : ClassId) (p : Progress) :
    InStep extra m₀ m₀' (m.setProgress id p) (m'.setProgress id p) := by
  refine h.of_attributes (attributes_setProgress m id p) (attributes_setProgress m' id p) h.attributed
    fun id' hid' => ?_
  by_cases hsame : id' = id
  · rw [hsame, progressOf_setProgress, progressOf_setProgress]
  · simp only [progressOf, ClassModel.setProgress, OrderedMap.get?_insert_of_ne _ _ hsame]
    exact h.progress id' hid'

theorem setProgress_extra {id : ClassId} (hid : id ∈ extra) (p : Progress) :
    InStep extra m₀ m₀' m (m'.setProgress id p) := by
  refine h.of_attributes (.refl m) (attributes_setProgress m' id p) h.attributed fun id' hid' => ?_
  have hne : id' ≠ id := fun heq => hid' (heq ▸ hid)
  simp only [progressOf, ClassModel.setProgress, OrderedMap.get?_insert_of_ne _ _ hne]
  exact h.progress id' hid'

theorem setState {id : ClassId} (hid : id ∉ extra) (state : AttributionState) :
    InStep extra m₀ m₀' (m.setState id state) (m'.setState id state) := by
  rw [ClassModel.setState, ClassModel.setState, h.progress id hid]
  exact h.setProgress id _

/-- A class is analysable on both sides, or on neither. -/
theorem checkAnalyzable (hapart : Apart extra m₀ m₀') {id : ClassId} (hid : id ∉ extra) :
    m'.checkAnalyzable id = m.checkAnalyzable id := by
  have hknown : m'.knownParents id = m.knownParents id := by
    rw [knownParents, knownParents, h.get? hapart hid]
    cases hc : m.get? id with
    | none => rfl
    | some c =>
      have hbases : ∀ b ∈ c.bases.map (·.base), m'.contains b = m.contains b := by
        intro b hb
        obtain ⟨spec, hspec, rfl⟩ := List.mem_map.mp hb
        have hbase := hapart.bases id c ((h.left.get?_eq id).symm.trans hc) spec hspec
        exact congrArg Option.isSome (h.get? hapart hbase)
      simp only [List.filter_congr hbases]
  rw [ClassModel.checkAnalyzable, ClassModel.checkAnalyzable, h.get? hapart hid, hknown]

end InStep

end ClassModel

namespace Attributor

section

variable {extra : List ClassId} {m₀ m₀' : ClassModel} (a : Attributor)

/-- What a candidate adds to the outcome does not depend on the model. -/
theorem outcome_runCandidate (run : ClassRun) (c : Candidate) (outcome : ClassAttribution)
    (m m' : ClassModel) :
    (a.runCandidate run c outcome m').value.1 = (a.runCandidate run c outcome m).value.1 := by
  simp only [runCandidate]
  cases a.matchCandidate run.id run.table c <;> rfl

theorem owner_runCandidate (run : ClassRun) (c : Candidate) (outcome : ClassAttribution)
    (m : ClassModel) : (a.runCandidate run c outcome m).value.1.owner = outcome.owner := by
  simp only [runCandidate]
  cases a.matchCandidate run.id run.table c <;> rfl

theorem owner_runCandidates (policy : CancelPolicy) (run : ClassRun) (candidates : List Candidate)
    (outcome : ClassAttribution) (s : AnalysisState) {found : ClassAttribution}
    (hfound : (a.runCandidates policy run candidates outcome s).value.1 = .ok found) :
    found.owner = outcome.owner := by
  induction candidates generalizing outcome s with
  | nil =>
    cases hfound
    rfl
  | cons c rest ih =>
    simp only [runCandidates] at hfound
    split at hfound
    · cases hfound
    · split at hfound
      · exact ih outcome _ hfound
      · exact (ih _ _ hfound).trans (a.owner_runCandidate run c outcome s.model)

theorem owner_attributeClass (policy : CancelPolicy) (id : ClassId) (s : AnalysisState)
    {found : ClassAttribution} (hfound : (a.attributeClass policy id s).value.1 = .ok found) :
    found.owner = id := by
  cases hcheck : s.model.checkAnalyzable id with
  | error e =>
    rw [attributeClass_of_check_error policy hcheck] at hfound
    cases hfound
    rfl
  | ok _ =>
    cases htable : (s.model.offsetTable id).1 with
    | error e =>
      rw [attributeClass_of_table_error policy hcheck htable] at hfound
      cases hfound
      rfl
    | ok table =>
      rw [attributeClass_of_table policy hcheck htable] at hfound
      exact a.owner_runCandidates policy _ _ _ _ hfound

theorem runCandidate_inStep {run : ClassRun} (hid : run.id ∉ extra) (c : Candidate)
    (outcome : ClassAttribution) {m m' : ClassModel} (h : InStep extra m₀ m₀' m m') :
    InStep extra m₀ m₀' (a.runCandidate run c outcome m).value.2
      (a.runCandidate run c outcome m').value.2 := by
  obtain ⟨-, hvalue⟩ := a.value_runCandidate run c outcome m
  obtain ⟨-, hvalue'⟩ := a.value_runCandidate run c outcome m'
  rw [hvalue, hvalue', h.progress run.id hid, h.attributed]
  have hset := h.setProgress run.id
    { m.progressOf run.id with analyzed := (m.progressOf run.id).analyzed.add c.function }
  exact { hset with
    left := ⟨hset.left.coherent.of_hierarchy rfl hset.left.coherent.tables, hset.left.hierarchy,
      hset.left.typeNames⟩
    right := ⟨hset.right.coherent.of_hierarchy rfl hset.right.coherent.tables, hset.right.hierarchy,
      hset.right.typeNames⟩
    attributed := rfl }

theorem runCandidates_inStep {run : ClassRun} (hid : run.id ∉ extra) (candidates : List Candidate)
    (outcome : ClassAttribution) {s s' : AnalysisState}
    (h : InStep extra m₀ m₀' s.model s'.model) :
    let r := (a.runCandidates .never run candidates outcome s).value
    let r' := (a.runCandidates .never run candidates outcome s').value
    r'.1 = r.1 ∧ InStep extra m₀ m₀' r.2.model r'.2.model := by
  induction candidates generalizing outcome s s' with
  | nil =>
    simp only [runCandidates, Noted.value_bind, noteState, Noted.value_pure, setState_setInterrupted]
    exact ⟨trivial, h.setProgress _ _⟩
  | cons c rest ih =>
    have hanalyzed : s'.model.isAnalyzed run.id c.function = s.model.isAnalyzed run.id c.function := by
      rw [isAnalyzed, h.progress run.id hid, isAnalyzed]
    simp only [runCandidates, CancelPolicy.never, Bool.false_eq_true, if_false, hanalyzed]
    split
    · exact ih outcome h
    · simp only [Noted.value_bind, a.outcome_runCandidate run c outcome s.model s'.model]
      exact ih _ (a.runCandidate_inStep hid c outcome h)

variable (hapart : Apart extra m₀ m₀') {id : ClassId} {s s' : AnalysisState}
  (h : InStep extra m₀ m₀' s.model s'.model)
include hapart h

/-- **Attributing a class** gives the same on both sides. -/
theorem attributeClass_inStep (hid : id ∉ extra) :
    let r := (a.attributeClass .never id s).value
    let r' := (a.attributeClass .never id s').value
    r'.1 = r.1 ∧ InStep extra m₀ m₀' r.2.model r'.2.model := by
  have hcheck := h.checkAnalyzable hapart hid
  have htable := h.offsetTable hapart hid
  cases hresult : s.model.checkAnalyzable id with
  | error e =>
    rw [attributeClass_of_check_error .never hresult,
      attributeClass_of_check_error .never (hcheck.trans hresult)]
    exact ⟨rfl, h⟩
  | ok _ =>
    cases hfound : (s.model.offsetTable id).1 with
    | error e =>
      rw [attributeClass_of_table_error .never hresult hfound,
        attributeClass_of_table_error .never (hcheck.trans hresult) (htable.result.trans hfound)]
      exact ⟨rfl, htable.inStep.setState hid .rejected⟩
    | ok table =>
      have hinterrupted : s'.model.isInterrupted id = s.model.isInterrupted id := by
        rw [isInterrupted, h.progress id hid, isInterrupted]
      rw [attributeClass_of_table .never hresult hfound,
        attributeClass_of_table .never (hcheck.trans hresult) (htable.result.trans hfound),
        h.get? hapart hid, hinterrupted]
      exact a.runCandidates_inStep hid _ _ (htable.inStep.setState hid .analyzing)

/-- **An extra class** is skipped or rejected, and that does not show elsewhere. -/
theorem attributeClass_extra (hid : id ∈ extra) :
    ∃ found s₁, (a.attributeClass .never id s').value = (.ok found, s₁) ∧
      found.state ≠ .attributed ∧ InStep extra m₀ m₀' s.model s₁.model := by
  cases hcheck : s'.model.checkAnalyzable id with
  | error e => exact ⟨_, _, attributeClass_of_check_error .never hcheck, by simp, h⟩
  | ok _ =>
    obtain ⟨e, htable⟩ := h.untabled hapart hid
    exact ⟨_, _, attributeClass_of_table_error .never hcheck htable, by simp,
      h.offsetTable_extra.setProgress_extra hid _⟩

end

end Attributor

/-! ## Passes in step -/

namespace Session

variable {extra : List ClassId} {m₀ m₀' : ClassModel} (hapart : Apart extra m₀ m₀')
include hapart

/-- **Laying out classes** in step. -/
theorem layOutAll_inStep (ids : List ClassId) {report report' : AnalysisReport}
    {s s' : AnalysisState} (hreport : report.Covers extra report')
    (h : InStep extra m₀ m₀' s.model s'.model) :
    let r := (layOutAll .never (ids.filter (· ∉ extra)) report s).value
    let r' := (layOutAll .never ids report' s').value
    r.2.1.Covers extra r'.2.1 ∧ InStep extra m₀ m₀' r.2.2.model r'.2.2.model := by
  induction ids generalizing report report' s s' with
  | nil => exact ⟨hreport, h⟩
  | cons id rest ih =>
    by_cases hid : id ∈ extra
    -- The second side takes a step that the first does not take.
    · obtain ⟨e, hresult, hbuilt⟩ := h.buildLayout_extra hapart hid
      rw [List.filter_cons_of_neg (by simpa using hid)]
      simp only [layOutAll, CancelPolicy.never, Bool.false_eq_true, if_false, Noted.value_bind]
      generalize (s'.model.buildLayout id).value = built at hresult hbuilt ⊢
      obtain ⟨result, m'⟩ := built
      obtain rfl : result = .error e := hresult
      exact @ih _ _ s ⟨m', _⟩ (hreport.addFailure_extra hid e) hbuilt
    · obtain ⟨hresult, hbuilt⟩ := h.buildLayout hapart hid
      rw [List.filter_cons_of_pos (by simpa using hid)]
      simp only [layOutAll, CancelPolicy.never, Bool.false_eq_true, if_false, Noted.value_bind]
      generalize (s.model.buildLayout id).value = built at hresult hbuilt ⊢
      generalize (s'.model.buildLayout id).value = built' at hresult hbuilt ⊢
      obtain ⟨result, m⟩ := built
      obtain ⟨result', m'⟩ := built'
      obtain rfl : result' = result := hresult
      cases result' with
      | error e => exact @ih _ _ ⟨m, _⟩ ⟨m', _⟩ (hreport.addFailure hid e) hbuilt
      | ok l => exact @ih _ _ ⟨m, _⟩ ⟨m', _⟩ hreport.addLayout hbuilt

/-- **Attributing classes** in step. -/
theorem attributeAll_inStep (a : Attributor) (ids : List ClassId) {report report' : AnalysisReport}
    {s s' : AnalysisState} (hreport : report.Covers extra report')
    (h : InStep extra m₀ m₀' s.model s'.model) :
    let r := (attributeAll a .never (ids.filter (· ∉ extra)) report s).value
    let r' := (attributeAll a .never ids report' s').value
    r.2.1.Covers extra r'.2.1 ∧ InStep extra m₀ m₀' r.2.2.model r'.2.2.model := by
  induction ids generalizing report report' s s' with
  | nil => exact ⟨hreport, h⟩
  | cons id rest ih =>
    by_cases hid : id ∈ extra
    · rw [List.filter_cons_of_neg (by simpa using hid)]
      simp only [attributeAll, CancelPolicy.never, Bool.false_eq_true, if_false]
      split
      · exact @ih _ _ s ⟨s'.model, _⟩ hreport h
      · obtain ⟨found, s₁, hvalue, hstate, hstep⟩ :=
          @a.attributeClass_extra _ _ _ hapart _ s ⟨s'.model, s'.work.checked⟩ h hid
        have howner := a.owner_attributeClass .never id _ (congrArg Prod.fst hvalue)
        simp only [Noted.value_bind, hvalue]
        exact ih (hreport.addAttribution_extra (howner ▸ hid) hstate) hstep
    · have hneeds : s'.model.needsAttribution id = s.model.needsAttribution id := by
        rw [needsAttribution, h.progress id hid, needsAttribution]
      rw [List.filter_cons_of_pos (by simpa using hid)]
      simp only [attributeAll, CancelPolicy.never, Bool.false_eq_true, if_false, hneeds]
      split
      · exact @ih _ _ ⟨s.model, _⟩ ⟨s'.model, _⟩ hreport h
      · obtain ⟨hresult, hstep⟩ := @a.attributeClass_inStep _ _ _ hapart _
          ⟨s.model, s.work.checked⟩ ⟨s'.model, s'.work.checked⟩ h hid
        obtain ⟨found, hfound⟩ := a.attributeClass_never id ⟨s.model, s.work.checked⟩
        have howner := a.owner_attributeClass .never id _ hfound
        simp only [Noted.value_bind]
        generalize (a.attributeClass .never id ⟨s.model, s.work.checked⟩).value = r
          at hresult hstep hfound ⊢
        generalize (a.attributeClass .never id ⟨s'.model, s'.work.checked⟩).value = r'
          at hresult hstep ⊢
        obtain ⟨result, s₁⟩ := r
        obtain ⟨result', s₁'⟩ := r'
        obtain rfl : result = .ok found := hfound
        obtain rfl : result' = .ok found := hresult
        exact ih (hreport.addAttribution (howner.symm ▸ hid)) hstep

end Session

end ClassRecovery
