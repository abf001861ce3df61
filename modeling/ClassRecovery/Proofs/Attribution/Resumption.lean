/-
  Attributing a class, with interruptions.

  Attributing a class to the end gives its outcome (`Ledger.finishClass`).  If it is cancelled, at any
  candidate, what is left behind has the same outcome as before, and the classes besides are as they
  were (`Attributor.attributeClass_spec`).
-/
import ClassRecovery.Proofs.Attribution.Ledger
import ClassRecovery.Proofs.Model.Operations

namespace ClassRecovery

namespace ClassModel

/-! ## Changing the attribution only -/

/-- The models have the same classes and layouts; attribution may differ, and which offset
    tables are resolved. -/
structure Attributes (m m' : ClassModel) : Prop where
  hierarchy : m'.hierarchy = m.hierarchy
  typeNames : m'.typeNames = m.typeNames
  types : m'.types = m.types
  coherent : m.Coherent → m'.Coherent

theorem Attributes.refl (m : ClassModel) : Attributes m m := ⟨rfl, rfl, rfl, id⟩

theorem Attributes.trans {m₁ m₂ m₃ : ClassModel} (h : Attributes m₁ m₂) (h' : Attributes m₂ m₃) :
    Attributes m₁ m₃ :=
  ⟨h'.hierarchy.trans h.hierarchy, h'.typeNames.trans h.typeNames, h'.types.trans h.types,
    h'.coherent ∘ h.coherent⟩

theorem attributes_offsetTable (m : ClassModel) (id : ClassId) :
    Attributes m (m.offsetTable id).2 := ⟨rfl, rfl, rfl, fun hm => hm.offsetTable id⟩

theorem attributes_setProgress (m : ClassModel) (id : ClassId) (p : Progress) :
    Attributes m (m.setProgress id p) := ⟨rfl, rfl, rfl, fun hm => hm.of_hierarchy rfl hm.tables⟩

theorem progressOf_setProgress (m : ClassModel) (id : ClassId) (p : Progress) :
    (m.setProgress id p).progressOf id = p := by
  simp [progressOf, setProgress, OrderedMap.get?_insert_self]

theorem setProgress_setProgress (m : ClassModel) (id : ClassId) (p p' : Progress) :
    (m.setProgress id p).setProgress id p' = m.setProgress id p' := by
  simp only [setProgress, OrderedMap.insert_insert]

/-- A class that is left open: interrupted, or as if it had never been analysed. -/
theorem setInterrupted_setState (m : ClassModel) (id : ClassId) (state : AttributionState)
    (interrupted : Bool) :
    (m.setState id state).setInterrupted id interrupted =
      m.setProgress id
        (if interrupted then ⟨state, (m.progressOf id).analyzed, true⟩ else ⟨state, .empty, false⟩) := by
  rw [setState, setInterrupted, progressOf_setProgress, setProgress_setProgress]
  cases interrupted <;> rfl

/-- A class that is closed. -/
theorem setState_setInterrupted (m : ClassModel) (id : ClassId) (state : AttributionState) :
    (m.setInterrupted id false).setState id state = m.setProgress id ⟨state, .empty, false⟩ := by
  rw [setInterrupted, setState, progressOf_setProgress, setProgress_setProgress]
  rfl

theorem value_recordAll (m : ClassModel) (functions : List AttributedFunction) :
    Attributes m (m.recordAll functions).value ∧
      (m.recordAll functions).value.ledger = m.ledger.recordAll functions := by
  induction functions generalizing m with
  | nil => exact ⟨.refl m, rfl⟩
  | cons f rest ih =>
    obtain ⟨hsame, hledger⟩ := ih (m.record f)
    have hrecord : Attributes m (m.record f) := ⟨rfl, rfl, rfl, fun hm => hm.of_hierarchy rfl hm.tables⟩
    exact ⟨hrecord.trans hsame, hledger⟩

end ClassModel

open ClassModel

/-! ## Candidates -/

theorem Program.ascending_candidates (p : Program) (pointerSize : Word) (c : ClassType) :
    (p.candidates pointerSize c).Pairwise fun c c' => c.function < c'.function := by
  unfold Program.candidates
  cases c.validVtable? with
  | none => exact .nil
  | some v =>
    simp only
    generalize ((v.pointerAddresses pointerSize).flatMap p.functionsReferringTo).filter _ = found
    have hkeys := OrderedMap.forall_mem_ofList (P := fun e : Address × Candidate => e.2.function = e.1)
      (l := found.map fun f => (f.entry, ⟨f.entry, v.roleOf f.entry⟩)) (by simp)
    refine List.pairwise_map.mpr ((OrderedMap.ascending _).imp_of_mem fun {e e'} he he' h => ?_)
    rw [hkeys e he, hkeys e' he', UInt64.lt_iff_toNat_lt]
    exact of_decide_eq_true h

theorem Program.nodup_candidates (p : Program) (pointerSize : Word) (c : ClassType) :
    ((p.candidates pointerSize c).map (·.function)).Nodup :=
  List.pairwise_map.mpr ((p.ascending_candidates pointerSize c).imp UInt64.ne_of_lt)

namespace Attributor

/-- The trial of a candidate. -/
def trial (a : Attributor) (id : ClassId) (table : BaseOffsetTable) (c : Candidate) : Trial where
  function := c.function
  records :=
    match a.matchCandidate id table c with
    | .ok found => some (a.records found)
    | .error _ => none

/-- What attributing a class of a model comes to. -/
def plan (a : Attributor) (m : ClassModel) (id : ClassId) : ClassPlan :=
  match m.checkAnalyzable id with
  | .error _ => .skipped
  | .ok () =>
    match (m.offsetTable id).1 with
    | .error _ => .untabled
    | .ok table =>
      .trials (((m.get? id).elim [] (a.program.candidates a.pointerSize)).map (a.trial id table))

theorem checkAnalyzable_congr {m m' : ClassModel} (h : m.classes = m'.classes) (id : ClassId) :
    m.checkAnalyzable id = m'.checkAnalyzable id := by
  have hget : m.get? = m'.get? := funext fun id => by rw [ClassModel.get?, h, ClassModel.get?]
  have hcontains : m.contains = m'.contains :=
    funext fun id => by rw [ClassModel.contains, h, ClassModel.contains]
  have hknown : m.knownParents id = m'.knownParents id := by
    simp only [knownParents, hget, hcontains]
  unfold checkAnalyzable
  rw [hget, hknown]

/-- Plans are made from the classes alone. -/
theorem plan_congr (a : Attributor) {m m' : ClassModel} (hm : m.Coherent) (hm' : m'.Coherent)
    (h : m.hierarchy = m'.hierarchy) (id : ClassId) : a.plan m id = a.plan m' id := by
  have hclasses : m.classes = m'.classes := congrArg Hierarchy.classes h
  have htable : (m.offsetTable id).1 = (m'.offsetTable id).1 :=
    hm.offsetTable_congr hm' (congrArg Hierarchy.abi h) (congrArg Hierarchy.pointerSize h)
      fun _ _ => by rw [h]
  have hget : m.get? id = m'.get? id := by rw [ClassModel.get?, hclasses, ClassModel.get?]
  rw [plan, plan, checkAnalyzable_congr hclasses, htable, hget]

/-! ## The candidates of one class -/

theorem runCandidate_spec (a : Attributor) (run : ClassRun) (c : Candidate)
    (outcome : ClassAttribution) (m : ClassModel) :
    let t := a.trial run.id run.table c
    let r := (a.runCandidate run c outcome m).value
    Attributes m r.2 ∧
      r.2.ledger = (m.markAnalyzed run.id c.function).ledger.recordAll (t.records.getD []) ∧
      (!r.1.attributions.isEmpty) = (!outcome.attributions.isEmpty || t.records.isSome) := by
  have hmark := attributes_setProgress m run.id
    { m.progressOf run.id with analyzed := (m.progressOf run.id).analyzed.add c.function }
  simp only [runCandidate, trial]
  cases a.matchCandidate run.id run.table c with
  | error e => exact ⟨hmark, rfl, by simp⟩
  | ok found =>
    obtain ⟨hrecord, hledger⟩ := value_recordAll (m.markAnalyzed run.id c.function) (a.records found)
    exact ⟨hmark.trans hrecord, hledger, by simp⟩

/-- The trials that are left when the candidates in `done` were tried, or skipped since an earlier run
    tried them. -/
structure Midway (a : Attributor) (run : ClassRun) (analyzed : OrderedSet Address)
    (done rest : List Candidate) (outcome : ClassAttribution) (m : ClassModel) : Prop where
  nodup : ((done ++ rest).map (·.function)).Nodup
  state : m.progressOf run.id = ⟨.analyzing, analyzed, run.resumed⟩
  tried : ∀ c ∈ done, analyzed.contains c.function = true
  fresh : run.resumed = false → ∀ c ∈ rest, analyzed.contains c.function = false
  rejected : (run.resumed || !outcome.attributions.isEmpty) = false →
    ∀ c ∈ done, (a.trial run.id run.table c).records = none

/-- The outcome of a class in the middle of its candidates. -/
def target (a : Attributor) (run : ClassRun) (analyzed : OrderedSet Address) (rest : List Candidate)
    (outcome : ClassAttribution) (m : ClassModel) : Ledger :=
  m.ledger.conclude run.id (run.resumed || !outcome.attributions.isEmpty)
    (Ledger.left analyzed (rest.map (a.trial run.id run.table)))

section
variable {a : Attributor} {run : ClassRun} {analyzed : OrderedSet Address}
variable {done rest : List Candidate} {c : Candidate} {outcome : ClassAttribution} {m : ClassModel}

/-- A candidate that an earlier run tried is skipped. -/
theorem Midway.skip (h : Midway a run analyzed done (c :: rest) outcome m)
    (hresumed : run.resumed = true) (hc : analyzed.contains c.function = true) :
    Midway a run analyzed (done ++ [c]) rest outcome m ∧
      target a run analyzed rest outcome m = target a run analyzed (c :: rest) outcome m where
  left :=
    { nodup := by simpa using h.nodup
      state := h.state
      tried := by simpa [or_imp, forall_and, hc] using h.tried
      fresh := by simp [hresumed]
      rejected := by simp [hresumed] }
  right := by rw [target, target, List.map_cons, Ledger.left_cons_of_done hc]

/-- Other candidates have other addresses. -/
theorem Midway.other (h : Midway a run analyzed done (c :: rest) outcome m) :
    ∀ c' ∈ done ++ rest, c'.function ≠ c.function := by
  have hnodup := h.nodup
  rw [List.map_append, List.map_cons] at hnodup
  intro c' hc' heq
  refine (List.nodup_cons.mp (List.nodup_middle.mp hnodup)).1 (heq ▸ ?_)
  rw [← List.map_append]
  exact List.mem_map_of_mem hc'

/-- **Trying one candidate** leaves the outcome of the class as it is. -/
theorem Midway.step (h : Midway a run analyzed done (c :: rest) outcome m)
    (hc : analyzed.contains c.function = false) :
    let r := (a.runCandidate run c outcome m).value
    Midway a run (analyzed.add c.function) (done ++ [c]) rest r.1 r.2 ∧
      target a run (analyzed.add c.function) rest r.1 r.2 =
        target a run analyzed (c :: rest) outcome m ∧
      ∀ id ≠ run.id, r.2.progress.get? id = m.progress.get? id := by
  intro r
  obtain ⟨-, hledger, hsome⟩ := runCandidate_spec a run c outcome m
  have hother := h.other
  have hledger : r.2.ledger = Ledger.recordAll ⟨m.attributed, m.progress.insert run.id
      ⟨.analyzing, analyzed.add c.function, run.resumed⟩⟩
        ((a.trial run.id run.table c).records.getD []) := by
    rw [hledger, ledger, markAnalyzed, h.state]
    rfl
  have hprogress : r.2.progress = m.progress.insert run.id
      ⟨.analyzing, analyzed.add c.function, run.resumed⟩ := congrArg Ledger.progress hledger
  have hflag : (run.resumed || !r.1.attributions.isEmpty) =
      ((run.resumed || !outcome.attributions.isEmpty) ||
        (a.trial run.id run.table c).records.isSome) := by
    rw [hsome, Bool.or_assoc]
  refine ⟨⟨by simpa using h.nodup, ?_, ?_, ?_, ?_⟩, ?_, ?_⟩
  · rw [progressOf, hprogress, OrderedMap.get?_insert_self]
    rfl
  · intro c' hc'
    rcases List.mem_append.mp hc' with hc' | hc'
    · rw [OrderedMap.add, OrderedMap.contains_insert_of_ne _ _ (hother c' (by simp [hc']))]
      exact h.tried c' hc'
    · obtain rfl := List.mem_singleton.mp hc'
      exact OrderedMap.contains_insert_self _ _ _
  · intro hresumed c' hc'
    rw [OrderedMap.add, OrderedMap.contains_insert_of_ne _ _ (hother c' (by simp [hc']))]
    exact h.fresh hresumed c' (List.mem_cons_of_mem _ hc')
  · intro hnone
    obtain ⟨hbefore, hrecords⟩ := Bool.or_eq_false_iff.mp (hflag ▸ hnone)
    have hc' : (a.trial run.id run.table c).records = none := by simpa using hrecords
    simpa [or_imp, forall_and, hc'] using h.rejected hbefore
  · have htrials : ∀ t ∈ rest.map (a.trial run.id run.table), t.function ≠ c.function := by
      simpa [trial] using fun c' hc' => hother c' (List.mem_append_right _ hc')
    rw [target, target, List.map_cons, Ledger.left_cons_of_fresh hc, Ledger.conclude_cons,
      Ledger.left_add htrials, hflag, hledger]
    exact Ledger.conclude_insert (m.ledger.recordAll _) run.id _ _ _
  · intro id hne
    rw [hprogress, OrderedMap.get?_insert_of_ne _ _ hne]

end

/-- How going through candidates may end: with the outcome of the class, or before it, with a class that
    still has that outcome. -/
structure Ends (id : ClassId) (trials : List Trial) (outcome : Ledger) (m : ClassModel)
    (r : Except AnalysisError ClassAttribution × AnalysisState) : Prop where
  attributes : Attributes m r.2.model
  apart : ∀ id' ≠ id, r.2.model.progress.get? id' = m.progress.get? id'
  ok : ∀ found, r.1 = .ok found → r.2.model.ledger = outcome
  error : ∀ e, r.1 = .error e →
    r.2.model.ledger.finishClass id (.trials trials) = outcome ∧
      ((r.2.model.progressOf id).interrupted = false →
        (r.2.model.progressOf id).analyzed = .empty)

section
variable {a : Attributor} {run : ClassRun} {analyzed : OrderedSet Address}
variable {done rest : List Candidate} {outcome : ClassAttribution} {s : AnalysisState}

/-- After the last candidate the class has its outcome. -/
theorem ends_of_finished (policy : CancelPolicy) :
    Ends run.id (done.map (a.trial run.id run.table)) (target a run analyzed [] outcome s.model)
      s.model (a.runCandidates policy run [] outcome s).value := by
  simp only [runCandidates, Noted.value_bind, noteState, Noted.value_pure, setState_setInterrupted]
  refine ⟨attributes_setProgress .., fun id' hne => OrderedMap.get?_insert_of_ne _ _ hne, ?_, ?_⟩
  · rintro _ -
    simp [target, ledger, setProgress, Ledger.conclude, Ledger.left, Ledger.recordAll]
  · rintro _ ⟨⟩

/-- A class that is left at a candidate still has its outcome: it goes on if something was recorded, and
    begins anew if not. -/
theorem Midway.ends_of_cancelled {c : Candidate} {policy : CancelPolicy}
    (h : Midway a run analyzed done (c :: rest) outcome s.model) (hcancel : policy s.work = true) :
    Ends run.id ((done ++ c :: rest).map (a.trial run.id run.table))
      (target a run analyzed (c :: rest) outcome s.model) s.model
      (a.runCandidates policy run (c :: rest) outcome s).value := by
  simp only [runCandidates, hcancel, if_true, Noted.value_bind, noteState, Noted.value_pure,
    setInterrupted_setState, h.state]
  refine ⟨attributes_setProgress .., fun id' hne => OrderedMap.get?_insert_of_ne _ _ hne,
    by rintro _ ⟨⟩, fun _ _ => ?_⟩
  rw [List.map_append, target]
  cases hcommitted : run.resumed || !outcome.attributions.isEmpty with
  | true =>
    refine ⟨Ledger.finishClass_of_interrupted s.model.ledger run.id ?_ _, ?_⟩
    · simpa [trial] using h.tried
    · simp [progressOf_setProgress]
  | false =>
    obtain ⟨hresumed, -⟩ := Bool.or_eq_false_iff.mp hcommitted
    rw [Ledger.left_of_fresh (by simpa [trial] using h.fresh hresumed)]
    refine ⟨Ledger.finishClass_of_untouched s.model.ledger run.id ?_ _, ?_⟩
    · simpa using h.rejected hcommitted
    · simp [progressOf_setProgress]

end

/-- **Going through the candidates of a class**, unless cancelled. -/
theorem runCandidates_spec (a : Attributor) (policy : CancelPolicy) (run : ClassRun)
    {analyzed : OrderedSet Address} {done rest : List Candidate} {outcome : ClassAttribution}
    {s : AnalysisState} (h : Midway a run analyzed done rest outcome s.model) :
    Ends run.id ((done ++ rest).map (a.trial run.id run.table))
      (target a run analyzed rest outcome s.model) s.model
      (a.runCandidates policy run rest outcome s).value := by
  induction rest generalizing analyzed done outcome s with
  | nil =>
    rw [List.append_nil]
    exact ends_of_finished policy
  | cons c rest ih =>
    cases hpolicy : policy s.work with
    | true => exact h.ends_of_cancelled hpolicy
    | false =>
      simp only [runCandidates, hpolicy, Bool.false_eq_true, if_false]
      rw [show done ++ c :: rest = (done ++ [c]) ++ rest by simp]
      split
      · next hskip =>
        obtain ⟨hresumed, hanalyzed⟩ := (Bool.and_eq_true ..).mp hskip
        rw [isAnalyzed, h.state] at hanalyzed
        obtain ⟨hnext, htarget⟩ := h.skip hresumed hanalyzed
        rw [← htarget]
        exact @ih analyzed (done ++ [c]) outcome ⟨s.model, s.work.checked⟩ hnext
      · next htry =>
        have hc : analyzed.contains c.function = false := by
          cases hresumed : run.resumed with
          | true => simpa [hresumed, isAnalyzed, h.state] using htry
          | false => exact h.fresh hresumed c List.mem_cons_self
        obtain ⟨hnext, htarget, hapart⟩ := h.step hc
        have hsame := (runCandidate_spec a run c outcome s.model).1
        rw [← htarget]
        simp only [Noted.value_bind]
        generalize (a.runCandidate run c outcome s.model).value = r at hsame hnext hapart ⊢
        have hends (work : Workload) := @ih _ _ r.1 ⟨r.2, work⟩ hnext
        exact ⟨hsame.trans (hends _).attributes,
          fun id hne => ((hends _).apart id hne).trans (hapart id hne), (hends _).ok,
          (hends _).error⟩

/-! ## One class -/

/-- How attributing a class may end. -/
structure Attributed (plan : ClassId → ClassPlan) (id : ClassId) (m : ClassModel)
    (r : Except AnalysisError ClassAttribution × AnalysisState) : Prop where
  attributes : Attributes m r.2.model
  tidy : r.2.model.ledger.Tidy
  apart : ∀ id' ≠ id, r.2.model.progress.get? id' = m.progress.get? id'
  ok : ∀ found, r.1 = .ok found → r.2.model.ledger = m.ledger.finishClass id (plan id)
  error : ∀ e, r.1 = .error e →
    r.2.model.ledger.finishClass id (plan id) = m.ledger.finishClass id (plan id)

section
variable {a : Attributor} (policy : CancelPolicy) {id : ClassId} {s : AnalysisState}

/-- A class that cannot be analysed is left alone. -/
theorem attributeClass_of_check_error {e : Rejection} (hcheck : s.model.checkAnalyzable id = .error e) :
    (a.attributeClass policy id s).value = (.ok { owner := id, skipped := some e }, s) := by
  simp only [attributeClass, hcheck]
  rfl

/-- A class without a table is rejected. -/
theorem attributeClass_of_table_error {e : ModelError}
    (hcheck : s.model.checkAnalyzable id = .ok ()) (htable : (s.model.offsetTable id).1 = .error e) :
    (a.attributeClass policy id s).value =
      (.ok { owner := id, state := .rejected, skipped := some (.structural e) },
        ⟨(s.model.offsetTable id).2.setState id .rejected, s.work⟩) := by
  simp only [attributeClass, hcheck, Noted.value_bind, noteOffsetTable]
  generalize s.model.offsetTable id = found at htable
  obtain ⟨result, m⟩ := found
  obtain rfl : result = .error e := htable
  rfl

/-- A class that can be analysed and has a table goes through its candidates. -/
theorem attributeClass_of_table {table : BaseOffsetTable}
    (hcheck : s.model.checkAnalyzable id = .ok ()) (htable : (s.model.offsetTable id).1 = .ok table) :
    (a.attributeClass policy id s).value =
      (a.runCandidates policy ⟨id, table, s.model.isInterrupted id⟩
        ((s.model.get? id).elim [] (a.program.candidates a.pointerSize)) { owner := id }
        ⟨(s.model.offsetTable id).2.setState id .analyzing, s.work⟩).value := by
  simp only [attributeClass, hcheck, Noted.value_bind, noteOffsetTable]
  have hget : (s.model.offsetTable id).2.get? id = s.model.get? id := rfl
  have hinterrupted : (s.model.offsetTable id).2.isInterrupted id = s.model.isInterrupted id := rfl
  rw [← hget, ← hinterrupted]
  generalize s.model.offsetTable id = found at htable
  obtain ⟨result, m⟩ := found
  obtain rfl : result = .ok table := htable
  rfl

theorem attributeClass_of_skipped (hplan : a.plan s.model id = .skipped) :
    ∃ found, (a.attributeClass policy id s).value = (.ok found, s) := by
  unfold plan at hplan
  cases hcheck : s.model.checkAnalyzable id with
  | error e => exact ⟨_, attributeClass_of_check_error policy hcheck⟩
  | ok _ => cases htable : (s.model.offsetTable id).1 <;> simp [hcheck, htable] at hplan

theorem attributeClass_of_untabled (hplan : a.plan s.model id = .untabled) :
    ∃ found, (a.attributeClass policy id s).value =
      (.ok found, ⟨(s.model.offsetTable id).2.setState id .rejected, s.work⟩) := by
  unfold plan at hplan
  cases hcheck : s.model.checkAnalyzable id with
  | error e => simp [hcheck] at hplan
  | ok _ =>
    cases htable : (s.model.offsetTable id).1 with
    | error e => exact ⟨_, attributeClass_of_table_error policy hcheck htable⟩
    | ok table => simp [hcheck, htable] at hplan

theorem attributeClass_of_trials {trials : List Trial} (hplan : a.plan s.model id = .trials trials) :
    ∃ table candidates, (candidates.map (·.function)).Nodup ∧
      trials = candidates.map (a.trial id table) ∧
      (a.attributeClass policy id s).value =
        (a.runCandidates policy ⟨id, table, s.model.isInterrupted id⟩ candidates { owner := id }
          ⟨(s.model.offsetTable id).2.setState id .analyzing, s.work⟩).value := by
  unfold plan at hplan
  cases hcheck : s.model.checkAnalyzable id with
  | error e =>
    rw [hcheck] at hplan
    cases hplan
  | ok _ =>
    cases htable : (s.model.offsetTable id).1 with
    | error e => simp [hcheck, htable] at hplan
    | ok table =>
      simp only [hcheck, htable, ClassPlan.trials.injEq] at hplan
      refine ⟨table, _, ?_, hplan.symm, attributeClass_of_table policy hcheck htable⟩
      cases s.model.get? id with
      | none => exact .nil
      | some c => exact a.program.nodup_candidates a.pointerSize c

theorem Attributed.of_finished {plan : ClassId → ClassPlan} {m : ClassModel}
    {found : ClassAttribution} (htidy : m.ledger.Tidy) (hsame : Attributes m s.model)
    (hledger : s.model.ledger = m.ledger.finishClass id (plan id)) :
    Attributed plan id m (.ok found, s) where
  attributes := hsame
  tidy := hledger ▸ htidy.finishClass id (plan id)
  apart id' hne :=
    (congrArg (·.progress.get? id') hledger).trans (m.ledger.get?_finishClass (plan id) hne)
  ok _ _ := hledger
  error := by rintro _ ⟨⟩

/-- Classes that are settled stay settled. -/
theorem Attributed.settles {plan : ClassId → ClassPlan} {m : ClassModel}
    {r : Except AnalysisError ClassAttribution × AnalysisState} (h : Attributed plan id m r)
    (hopen : m.needsAttribution id = true) (id' : ClassId) (hsettled : m.ledger.Settled plan id') :
    r.2.model.ledger.Settled plan id' := by
  by_cases hne : id' = id
  · subst hne
    rcases hsettled with hskipped | hclosed
    · exact .inl hskipped
    · rw [show (m.ledger.progressOf id').isOpen = true from hopen] at hclosed
      cases hclosed
  · exact hsettled.congr (h.apart id' hne)

theorem Ends.attributed {plan : ClassId → ClassPlan} {m m₁ : ClassModel} {trials : List Trial}
    {r : Except AnalysisError ClassAttribution × AnalysisState} (hplan : plan id = .trials trials)
    (htidy : m.ledger.Tidy) (hstart : Attributes m m₁)
    (hapart : ∀ id' ≠ id, m₁.progress.get? id' = m.progress.get? id')
    (h : Ends id trials (m.ledger.finishClass id (plan id)) m₁ r) : Attributed plan id m r where
  attributes := hstart.trans h.attributes
  tidy := by
    rcases hr : r.1 with e | found
    · intro id' hid'
      by_cases hne : id' = id
      · subst hne
        exact (h.error e hr).2 hid'
      · have hsame : r.2.model.ledger.progressOf id' = m.ledger.progressOf id' := by
          simp only [Ledger.progressOf, ledger, h.apart id' hne, hapart id' hne]
        rw [hsame] at hid' ⊢
        exact htidy id' hid'
    · exact h.ok found hr ▸ htidy.finishClass id (plan id)
  apart id' hne := (h.apart id' hne).trans (hapart id' hne)
  ok := h.ok
  error e he := by
    rw [hplan] at h ⊢
    exact (h.error e he).1

/-- Analysis starts with all candidates left that no earlier run tried. -/
theorem midway_start {table : BaseOffsetTable} {candidates : List Candidate} {m : ClassModel}
    (hnodup : (candidates.map (·.function)).Nodup) (htidy : m.ledger.Tidy)
    (hopen : m.needsAttribution id = true) :
    let run : ClassRun := ⟨id, table, m.isInterrupted id⟩
    let m₁ := (m.offsetTable id).2.setState id .analyzing
    Midway a run (m.progressOf id).analyzed [] candidates { owner := id } m₁ ∧
      target a run (m.progressOf id).analyzed candidates { owner := id } m₁ =
        m.ledger.finishClass id (.trials (candidates.map (a.trial id table))) := by
  intro run m₁
  refine ⟨⟨hnodup, progressOf_setProgress .., by simp, fun hresumed c _ => ?_, by simp⟩, ?_⟩
  · rw [show (m.progressOf id).analyzed = .empty from htidy id hresumed]
    rfl
  · rw [target, List.isEmpty_nil, Bool.not_true, Bool.or_false,
      Ledger.finishClass_of_isOpen (l := m.ledger) hopen]
    exact Ledger.conclude_insert m.ledger id _ _ _

/-- **Attributing a class that is open**, unless cancelled. -/
theorem attributeClass_spec (htidy : s.model.ledger.Tidy)
    (hopen : s.model.needsAttribution id = true) :
    Attributed (a.plan s.model) id s.model (a.attributeClass policy id s).value := by
  have hfinish : s.model.ledger.finishClass id (a.plan s.model id) = _ :=
    Ledger.finishClass_of_isOpen (l := s.model.ledger) hopen (a.plan s.model id)
  have hsame := attributes_offsetTable s.model id
  cases hplan : a.plan s.model id with
  | skipped =>
    obtain ⟨found, hvalue⟩ := attributeClass_of_skipped policy hplan
    rw [hvalue]
    exact .of_finished htidy (.refl _) (by rw [hfinish, hplan])
  | untabled =>
    obtain ⟨found, hvalue⟩ := attributeClass_of_untabled policy hplan
    rw [hvalue]
    refine .of_finished htidy (hsame.trans (attributes_setProgress ..)) ?_
    rw [hfinish, hplan]
    rfl
  | trials trials =>
    obtain ⟨table, candidates, hnodup, rfl, hvalue⟩ := attributeClass_of_trials policy hplan
    obtain ⟨hmidway, htarget⟩ := @midway_start a id table candidates s.model hnodup htidy hopen
    have hends : Ends id (candidates.map (a.trial id table))
        (s.model.ledger.finishClass id (a.plan s.model id))
        ((s.model.offsetTable id).2.setState id .analyzing) (a.attributeClass policy id s).value := by
      rw [hvalue, hplan, ← htarget]
      exact runCandidates_spec a policy _ (s := ⟨_, s.work⟩) hmidway
    exact hends.attributed hplan htidy (hsame.trans (attributes_setProgress ..))
      fun id' hne => OrderedMap.get?_insert_of_ne _ _ hne

end

end Attributor

end ClassRecovery
