/-
  What attributing a class writes.

  The candidates that a call comes to depend on the policy and the work alone (`Attributor.reached`), so the
  attributions it records can be told in advance (`Attributor.found`).  These are recorded as a whole, one
  candidate after the other, and besides only the progress of the class changes
  (`Attributor.attributeClass_commits`).  How that is left depends on whether anything was
  accepted (`Attributor.Leaves`).
-/
import ClassRecovery.Proofs.Attribution.Matching
import ClassRecovery.Proofs.Attribution.Resumption

namespace ClassRecovery

open ClassModel

namespace Attributor

/-! ## The attributions of a call -/

/-- The functions with those that attributions show, in place of what was there for them.  Every attribution shows
    the functions that are called for bases, each with its base, and then, if the settings say so, the candidate
    itself with its class. -/
def commitAll (a : Attributor) (attributed : OrderedMap Address AttributedFunction) :
    List Attribution → OrderedMap Address AttributedFunction
  | [] => attributed
  | found :: rest =>
    let called := found.calls.foldl
      (fun m call => m.insert call.function ⟨call.function, call.base, found.role⟩) attributed
    let all := if a.config.commitCandidate then
      called.insert found.function ⟨found.function, found.owner, found.role⟩ else called
    a.commitAll all rest

theorem commitAll_eq (a : Attributor) (attributed : OrderedMap Address AttributedFunction)
    (found : List Attribution) : a.commitAll attributed found =
      (found.flatMap a.records).foldl (fun m f => m.insert f.function f) attributed := by
  induction found generalizing attributed with
  | nil => rfl
  | cons shown rest ih =>
    rw [commitAll, ih, List.flatMap_cons, List.foldl_append, records, List.foldl_append, List.foldl_map]
    cases a.config.commitCandidate <;> rfl

/-- The candidates of a class. -/
def discovered (a : Attributor) (m : ClassModel) (id : ClassId) : List Candidate :=
  (m.get? id).elim [] (a.program.candidates a.pointerSize)

/-- Whether the candidate was not looked at by the run that was interrupted, if there was one. -/
def isFresh (m : ClassModel) (id : ClassId) (c : Candidate) : Bool :=
  !(m.isInterrupted id && m.isAnalyzed id c.function)

/-- The candidates that are come to before the policy stops.  Only fresh ones are decompiled. -/
def reached (a : Attributor) (policy : CancelPolicy) (fresh : Candidate → Bool) :
    List Candidate → Workload → List Candidate
  | [], _ => []
  | c :: rest, work =>
    if policy work then []
    else
      let spent := if fresh c && a.decompiles c then 1 else 0
      c :: a.reached policy fresh rest
        { work.checked with decompilations := work.decompilations + spent }

/-- What those candidates show that match. -/
def accepted (a : Attributor) (id : ClassId) (table : BaseOffsetTable) (candidates : List Candidate) :
    List Attribution :=
  candidates.filterMap fun c => (a.matchCandidate id table c).toOption

/-- The candidates that attributing a class comes to. -/
def visited (a : Attributor) (policy : CancelPolicy) (id : ClassId) (s : AnalysisState) :
    List Candidate :=
  a.reached policy (isFresh s.model id) (a.discovered s.model id) s.work

/-- The attributions that attributing a class records: those of fresh candidates that match. -/
def found (a : Attributor) (policy : CancelPolicy) (id : ClassId) (s : AnalysisState) :
    List Attribution :=
  match s.model.checkAnalyzable id, (s.model.offsetTable id).1 with
  | .ok (), .ok table => a.accepted id table ((a.visited policy id s).filter (isFresh s.model id))
  | _, _ => []

theorem reached_isPrefix (a : Attributor) (policy : CancelPolicy) (fresh : Candidate → Bool)
    (candidates : List Candidate) (work : Workload) :
    a.reached policy fresh candidates work <+: candidates := by
  induction candidates generalizing work with
  | nil => exact List.prefix_rfl
  | cons c rest ih =>
    simp only [reached]
    split
    · exact List.nil_prefix
    · exact (List.cons_prefix_cons).mpr ⟨rfl, ih _⟩

theorem commitAll_append (a : Attributor) (attributed : OrderedMap Address AttributedFunction)
    (front rest : List Attribution) :
    a.commitAll attributed (front ++ rest) = a.commitAll (a.commitAll attributed front) rest := by
  simp only [commitAll_eq, List.flatMap_append, List.foldl_append]

theorem value_commit (a : Attributor) (m : ClassModel) (first : Attribution) :
    (a.commit m first).value = { m with attributed := a.commitAll m.attributed [first] } := by
  suffices ∀ functions : List AttributedFunction, (m.recordAll functions).value =
      { m with attributed := functions.foldl (fun m f => m.insert f.function f) m.attributed } by
    rw [commit, this, commitAll_eq, List.flatMap_singleton]
  intro functions
  induction functions generalizing m with
  | nil => rfl
  | cons f rest ih => exact ih (m.record f)

theorem accepted_cons (a : Attributor) (id : ClassId) (table : BaseOffsetTable) (c : Candidate)
    (rest : List Candidate) :
    a.accepted id table (c :: rest) = a.accepted id table [c] ++ a.accepted id table rest :=
  List.filterMap_append (l := [c])

/-- **One candidate** is recorded if it matches, and not at all if not. -/
theorem value_runCandidate (a : Attributor) (run : ClassRun) (c : Candidate)
    (outcome : ClassAttribution) (m : ClassModel) :
    let r := (a.runCandidate run c outcome m).value
    let found := a.accepted run.id run.table [c]
    r.1.attributions = outcome.attributions ++ found ∧
      r.2 =
        { m.setProgress run.id
            { m.progressOf run.id with analyzed := (m.progressOf run.id).analyzed.add c.function } with
          attributed := a.commitAll m.attributed found } := by
  simp only [runCandidate, accepted, List.filterMap_cons, List.filterMap_nil]
  cases a.matchCandidate run.id run.table c with
  | error e => exact ⟨(List.append_nil _).symm, rfl⟩
  | ok found =>
    simp only [Noted.value_bind, Except.toOption, value_commit]
    exact ⟨rfl, rfl⟩

/-! ## How a class is left -/

/-- What a call leaves of the progress of its class.  At the end of the candidates the class is closed.
    Before, it is interrupted if something was accepted, by this call or by one before, and
    otherwise as if it had never been analysed. -/
inductive Leaves (complete : Prop) (resumed : Bool) (found : List Attribution) :
    Except AnalysisError ClassAttribution → Progress → Prop where
  | closed {outcome : ClassAttribution} (hcomplete : complete) (h : outcome.attributions = found) :
    Leaves complete resumed found (.ok outcome)
      ⟨if resumed || !found.isEmpty then .attributed else .rejected, .empty, false⟩
  | interrupted {analyzed : OrderedSet Address} (hcomplete : ¬ complete)
      (h : (resumed || !found.isEmpty) = true) :
    Leaves complete resumed found (.error .cancelled) ⟨.attributed, analyzed, true⟩
  | restored (hcomplete : ¬ complete) (h : (resumed || !found.isEmpty) = false) :
    Leaves complete resumed found (.error .cancelled) ⟨.notAnalyzed, .empty, false⟩

/-- The attributions in `found` are recorded; besides only the progress of the class is changed. -/
def Commits (a : Attributor) (id : ClassId) (complete : Prop) (resumed : Bool)
    (before found : List Attribution) (m : ClassModel)
    (r : Except AnalysisError ClassAttribution × AnalysisState) : Prop :=
  ∃ p, Leaves complete resumed (before ++ found) r.1 p ∧
    r.2.model =
      { m with attributed := a.commitAll m.attributed found, progress := m.progress.insert id p }

/-- Where the class stands in between does not matter. -/
theorem Commits.append {a : Attributor} {id : ClassId} {complete : Prop} {resumed : Bool}
    {before before' first found : List Attribution} {m m' : ClassModel} {p : Progress}
    {r : Except AnalysisError ClassAttribution × AnalysisState}
    (h : Commits a id complete resumed before' found m' r) (hbefore : before' = before ++ first)
    (hm : m' = { m.setProgress id p with attributed := a.commitAll m.attributed first }) :
    Commits a id complete resumed before (first ++ found) m r := by
  obtain ⟨p', hleaves, hmodel⟩ := h
  rw [hbefore, List.append_assoc] at hleaves
  refine ⟨p', hleaves, hmodel.trans ?_⟩
  simp only [hm, setProgress, OrderedMap.insert_insert, commitAll_append]

section
variable {a : Attributor} {policy : CancelPolicy} {run : ClassRun} {outcome : ClassAttribution}
variable {analyzed : OrderedSet Address} {c : Candidate} {rest : List Candidate} {s : AnalysisState}

theorem commits_of_finished {complete : Prop} (hcomplete : complete) :
    Commits a run.id complete run.resumed outcome.attributions [] s.model
      (a.runCandidates policy run [] outcome s).value := by
  simp only [runCandidates, Noted.value_bind, noteState, Noted.value_pure, setState_setInterrupted]
  refine ⟨_, ?_, rfl⟩
  rw [List.append_nil]
  exact .closed hcomplete rfl

theorem commits_of_cancelled {complete : Prop} (hcomplete : ¬ complete)
    (hstate : s.model.progressOf run.id = ⟨.analyzing, analyzed, run.resumed⟩)
    (hcancel : policy s.work = true) :
    Commits a run.id complete run.resumed outcome.attributions [] s.model
      (a.runCandidates policy run (c :: rest) outcome s).value := by
  simp only [runCandidates, hcancel, if_true, Noted.value_bind, noteState, Noted.value_pure,
    setInterrupted_setState, hstate]
  refine ⟨_, ?_, rfl⟩
  rw [List.append_nil]
  cases h : run.resumed || !outcome.attributions.isEmpty with
  | true => exact .interrupted hcomplete h
  | false => exact .restored hcomplete h

end

/-- **Going through the candidates of a class** records what those show that are come to, are fresh
    and match. -/
theorem runCandidates_commits (a : Attributor) (policy : CancelPolicy) (run : ClassRun)
    {candidates : List Candidate} (hnodup : (candidates.map (·.function)).Nodup)
    {fresh : Candidate → Bool} {analyzed : OrderedSet Address}
    (hfresh : ∀ c ∈ candidates, fresh c = !(run.resumed && analyzed.contains c.function))
    {outcome : ClassAttribution} {s : AnalysisState}
    (hstate : s.model.progressOf run.id = ⟨.analyzing, analyzed, run.resumed⟩) :
    let front := a.reached policy fresh candidates s.work
    Commits a run.id (front = candidates) run.resumed outcome.attributions
      (a.accepted run.id run.table (front.filter fresh)) s.model
      (a.runCandidates policy run candidates outcome s).value := by
  -- A candidate that is looked at is not one of those that follow, so these stay as fresh as they are.
  induction candidates generalizing analyzed outcome s with
  | nil => exact commits_of_finished rfl
  | cons c rest ih =>
    obtain ⟨hc, hnodup⟩ := List.nodup_cons.mp hnodup
    simp only [List.mem_cons, forall_eq_or_imp] at hfresh
    obtain ⟨hcfresh, hfresh⟩ := hfresh
    cases hpolicy : policy s.work with
    | true =>
      simp only [reached, hpolicy, if_true, List.filter_nil]
      exact commits_of_cancelled (List.cons_ne_nil c rest).symm hstate hpolicy
    | false =>
      have hskip : (run.resumed && s.model.isAnalyzed run.id c.function) = !fresh c := by
        rw [hcfresh, isAnalyzed, hstate, Bool.not_not]
      simp only [runCandidates, reached, hpolicy, hskip, Bool.false_eq_true, if_false,
        List.cons.injEq, true_and]
      cases hc' : fresh c with
      | false =>
        simp only [Bool.not_false, if_true, List.filter_cons, hc', Bool.false_eq_true, if_false,
          Bool.false_and, Nat.add_zero]
        exact ih hnodup hfresh (s := ⟨s.model, s.work.checked⟩) hstate
      | true =>
        simp only [Bool.not_true, Bool.false_eq_true, if_false, List.filter_cons, hc', if_true,
          Bool.true_and, Noted.value_bind]
        obtain ⟨hattributions, hmodel⟩ := a.value_runCandidate run c outcome s.model
        generalize (a.runCandidate run c outcome s.model).value = r at hattributions hmodel ⊢
        rw [hstate] at hmodel
        have hstate' : r.2.progressOf run.id =
            ⟨.analyzing, analyzed.add c.function, run.resumed⟩ := by
          rw [hmodel]
          exact progressOf_setProgress s.model run.id _
        have hfresh' : ∀ c' ∈ rest,
            fresh c' = !(run.resumed && (analyzed.add c.function).contains c'.function) := by
          intro c' hc'
          have hne : c'.function ≠ c.function := fun heq => hc (List.mem_map.mpr ⟨c', hc', heq⟩)
          rw [hfresh c' hc', OrderedMap.add, OrderedMap.contains_insert_of_ne _ _ hne]
        have hrest (work : Workload) := @ih hnodup _ hfresh' r.1 ⟨r.2, work⟩ hstate'
        rw [accepted_cons]
        exact (hrest _).append hattributions hmodel

/-! ## One class -/

section
variable (a : Attributor) (policy : CancelPolicy) {id : ClassId} {s : AnalysisState}

theorem ascending_discovered (m : ClassModel) (id : ClassId) :
    (a.discovered m id).Pairwise fun c c' => c.function < c'.function := by
  unfold discovered
  cases m.get? id with
  | none => exact .nil
  | some c => exact a.program.ascending_candidates a.pointerSize c

/-- A class that can be analysed and has a table records what is found. -/
theorem commits_of_table {table : BaseOffsetTable} (hcheck : s.model.checkAnalyzable id = .ok ())
    (htable : (s.model.offsetTable id).1 = .ok table) :
    Commits a id (a.visited policy id s = a.discovered s.model id) (s.model.isInterrupted id) []
      (a.found policy id s) (s.model.offsetTable id).2 (a.attributeClass policy id s).value := by
  have hnodup : ((a.discovered s.model id).map (·.function)).Nodup :=
    List.pairwise_map.mpr ((a.ascending_discovered s.model id).imp UInt64.ne_of_lt)
  have hfound : a.found policy id s =
      a.accepted id table ((a.visited policy id s).filter (isFresh s.model id)) := by
    simp only [found, hcheck, htable]
  have hruns := @runCandidates_commits a policy ⟨id, table, s.model.isInterrupted id⟩
    (a.discovered s.model id) hnodup (isFresh s.model id) _ (fun _ _ => rfl) { owner := id }
    ⟨(s.model.offsetTable id).2.setState id .analyzing, s.work⟩ (progressOf_setProgress ..)
  rw [attributeClass_of_table policy hcheck htable, hfound, ← List.nil_append (a.accepted ..)]
  exact hruns.append rfl rfl

end

theorem owner_of_mem_found (a : Attributor) (policy : CancelPolicy) (id : ClassId) (s : AnalysisState) :
    ∀ shown ∈ a.found policy id s, shown.owner = id := by
  unfold found
  split
  · intro shown hshown
    obtain ⟨c, -, hc⟩ := List.mem_filterMap.mp hshown
    exact (owner_of_matchCandidate (toOption_eq_some_iff.mp hc)).1
  · simp

/-- The model differs by the attributions in `found`, which are all for the class, by the progress of the class, and
    by which offset tables are resolved. -/
structure Writes (a : Attributor) (id : ClassId) (found : List Attribution) (m m' : ClassModel) :
    Prop where
  owner : ∀ shown ∈ found, shown.owner = id
  attributed : m'.attributed = a.commitAll m.attributed found
  apart : ∀ id' ≠ id, m'.progressOf id' = m.progressOf id'
  rest : m' =
    { m with tables := m'.tables, attributed := m'.attributed, progress := m'.progress }

theorem Writes.of_progress {a : Attributor} {id : ClassId} {found : List Attribution}
    {m m' : ClassModel} {tables : OffsetMemo} {p : Progress} (howner : ∀ shown ∈ found, shown.owner = id)
    (h : m' =
      { m with
        tables, attributed := a.commitAll m.attributed found, progress := m.progress.insert id p }) :
    Writes a id found m m' := by
  subst h
  refine ⟨howner, rfl, fun id' hne => ?_, rfl⟩
  simp only [progressOf, OrderedMap.get?_insert_of_ne _ _ hne]

/-- What attributing a class writes, and how it ends. -/
theorem attributeClass_writes (a : Attributor) (policy : CancelPolicy) (id : ClassId)
    (s : AnalysisState) :
    let candidates := a.discovered s.model id
    let visited := a.visited policy id s
    let found := a.found policy id s
    let r := (a.attributeClass policy id s).value
    Writes a id found s.model r.2.model ∧
      (∀ outcome, r.1 = .ok outcome → outcome.attributions = found ∧
        (outcome.skipped = none → visited = candidates)) ∧
      ∀ e, r.1 = .error e → e = .cancelled ∧ visited ≠ candidates := by
  intro candidates visited found r
  cases hcheck : s.model.checkAnalyzable id with
  | error e =>
    have hr : r = (.ok { owner := id, skipped := some e }, s) :=
      attributeClass_of_check_error policy hcheck
    have hfound : found = [] := by simp only [found, Attributor.found, hcheck]
    rw [hr, hfound]
    refine ⟨⟨by simp, rfl, fun _ _ => rfl, rfl⟩, ?_, by rintro _ ⟨⟩⟩
    rintro _ ⟨⟩
    exact ⟨rfl, by rintro ⟨⟩⟩
  | ok _ =>
    cases htable : (s.model.offsetTable id).1 with
    | error e =>
      have hr : r = _ := attributeClass_of_table_error policy hcheck htable
      have hfound : found = [] := by simp only [found, Attributor.found, hcheck, htable]
      rw [hr, hfound]
      refine ⟨.of_progress (by simp) rfl, ?_, by rintro _ ⟨⟩⟩
      rintro _ ⟨⟩
      exact ⟨rfl, by rintro ⟨⟩⟩
    | ok table =>
      obtain ⟨p, hleaves, hmodel⟩ := a.commits_of_table policy hcheck htable
      refine ⟨.of_progress (a.owner_of_mem_found policy id s) hmodel, ?_⟩
      change Leaves _ _ _ r.1 p at hleaves
      generalize r.1 = result at hleaves
      cases hleaves with
      | closed hcomplete hattributions =>
        refine ⟨?_, by rintro _ ⟨⟩⟩
        rintro _ ⟨⟩
        exact ⟨hattributions, fun _ => hcomplete⟩
      | interrupted hcomplete | restored hcomplete =>
        refine ⟨by rintro _ ⟨⟩, ?_⟩
        rintro _ ⟨⟩
        exact ⟨rfl, hcomplete⟩

/-- **Attributing a class is all or nothing for every candidate.**  Recorded are, in ascending order of the
    candidates, the attributions of those that were come to, had not been looked at and match.  A
    class that is finished was come to the end of, one that is cancelled was not. -/
theorem attributeClass_commits (a : Attributor) (policy : CancelPolicy) (id : ClassId)
    (s : AnalysisState) :
    let candidates := a.discovered s.model id
    let visited := a.visited policy id s
    let found := a.found policy id s
    let r := (a.attributeClass policy id s).value
    candidates.Pairwise (fun c c' => c.function < c'.function) ∧ visited <+: candidates ∧
      Writes a id found s.model r.2.model ∧
      (found = [] → r.2.model.attributed = s.model.attributed) ∧
      (∀ outcome, r.1 = .ok outcome → outcome.attributions = found ∧
        (outcome.skipped = none → visited = candidates)) ∧
      ∀ e, r.1 = .error e → e = .cancelled ∧ visited ≠ candidates := by
  intro candidates visited found r
  have hwrites := a.attributeClass_writes policy id s
  refine ⟨a.ascending_discovered s.model id, a.reached_isPrefix .., hwrites.1, fun hnone => ?_,
    hwrites.2⟩
  rw [hwrites.1.attributed, show a.found policy id s = [] from hnone, commitAll]

/-- A class with two bases and two candidates.  The second one calls for the first base and then for another
    object's. -/
def twoCandidates : ProgramSnapshot where
  classes :=
    [{ id := 0xa0, name := "A", memberSize := 8 }, { id := 0xb0, name := "B", memberSize := 8 },
      { id := 0xc0, name := "C", bases := [{ base := 0xa0 }, { base := 0xb0 }],
        vtable := some (.ofTargets 0x6000 0xc0 8 [0x4000]) }]
  functions := [{ entry := 0x3000, name := "C::C", size := 0x80 }, { entry := 0x3100, name := "f", size := 0x80 }]
  references := [⟨0x3010, 0x6000, .data⟩, ⟨0x3110, 0x6000, .data⟩]
  bodies :=
    [{ entry := 0x3000, thisParameter := some 1,
       calls := [⟨0x3020, some 0x1000, some { origin := some 1, offset := 8 }⟩,
         ⟨0x3030, some 0x1100, some { origin := some 1, offset := 16 }⟩] },
      { entry := 0x3100, thisParameter := some 1,
        calls := [⟨0x3120, some 0x1200, some { origin := some 1, offset := 8 }⟩,
          ⟨0x3130, some 0x1300, some { origin := some 2, offset := 16 }⟩] }]

/-- The model of its classes, where two functions are recorded already. -/
def twoCandidatesStart : AnalysisState :=
  { model :=
      { ofClasses .itanium 8 twoCandidates.classes with
        attributed := .ofList [(0x1000, ⟨0x1000, 0xd0, .destructor⟩), (0x5000, ⟨0x5000, 0xd0, .constructor⟩)] } }

/-- The functions that the first candidate calls are recorded, and it is itself; of the second one nothing is,
    though its first call fits. -/
theorem attributeClass_commits_twoCandidates :
    let a : Attributor := ⟨.ofSnapshot twoCandidates, {}, 8⟩
    let r := (a.attributeClass .never 0xc0 twoCandidatesStart).value
    (a.discovered twoCandidatesStart.model 0xc0).map (·.function) = [0x3000, 0x3100] ∧
      (a.found .never 0xc0 twoCandidatesStart).map (·.function) = [0x3000] ∧
      r.2.model.attributed.entries =
        [(0x1000, ⟨0x1000, 0xa0, .constructor⟩), (0x1100, ⟨0x1100, 0xb0, .constructor⟩),
          (0x3000, ⟨0x3000, 0xc0, .constructor⟩), (0x5000, ⟨0x5000, 0xd0, .constructor⟩)] := by
  intro a r
  obtain ⟨-, -, hwrites, -⟩ := a.attributeClass_commits .never 0xc0 twoCandidatesStart
  have hfound : a.found .never 0xc0 twoCandidatesStart =
      [⟨0xc0, 0x3000, .constructor, [⟨0x3020, 0xa0, 8, 0x1000⟩, ⟨0x3030, 0xb0, 16, 0x1100⟩]⟩] := by
    decide +kernel
  refine ⟨by decide +kernel, by rw [hfound]; rfl, ?_⟩
  rw [hwrites.attributed, hfound]
  decide +kernel

end Attributor

end ClassRecovery
