/-
  What becomes of the calls of the dynamic-cast routine.

  A visit gives its call one outcome and lets the store grow by the override that it reports, if any
  (`CastResolver.visit_cases`).  So the outcomes of a pass account for all its calls (`CastResolver.Accounts`):
  each is listed once, a call is newly overridden just if the store was free to take an override there and
  both registers hold descriptors, and the store has grown by what was reported and by nothing else.
-/
import ClassRecovery.Proofs.CastPrototypes
import ClassRecovery.Proofs.Permutations

namespace ClassRecovery

/-! ## Outcomes and reports -/

/-- The call that came out so. -/
def CastOutcome.callSite : CastOutcome → Address
  | .overridden o => o.callSite
  | .unresolved callSite | .failed callSite _ | .skipped callSite => callSite

namespace CastReport

/-- The newly overridden calls. -/
def overriddenSites (r : CastReport) : List Address := r.overridden.map (·.callSite)

/-- The calls at which something failed. -/
def failedSites (r : CastReport) : List Address := r.failed.map (·.1)

/-- All calls that are listed, list after list. -/
def callSites (r : CastReport) : List Address :=
  r.overriddenSites ++ r.unresolved ++ r.failedSites ++ r.skipped

/-- The calls of each list are in ascending order. -/
structure Ascending (r : CastReport) : Prop where
  overridden : r.overriddenSites.Pairwise (· ≤ ·)
  unresolved : r.unresolved.Pairwise (· ≤ ·)
  failed : r.failedSites.Pairwise (· ≤ ·)
  skipped : r.skipped.Pairwise (· ≤ ·)

/-- The report with more calls, in this order. -/
def addAll (r : CastReport) (l : List CastOutcome) : CastReport := l.foldl add r

theorem mem_callSites {r : CastReport} {callSite : Address} :
    callSite ∈ r.callSites ↔ callSite ∈ r.overriddenSites ∨ callSite ∈ r.unresolved ∨
      callSite ∈ r.failedSites ∨ callSite ∈ r.skipped := by
  simp [callSites]

/-- One more outcome lists one more call. -/
theorem callSites_add (r : CastReport) (outcome : CastOutcome) :
    (r.add outcome).callSites.Perm (outcome.callSite :: r.callSites) := by
  refine List.perm_iff_count.mpr fun callSite => ?_
  cases outcome <;>
    simp only [callSites, overriddenSites, failedSites, add, CastOutcome.callSite, List.map_append,
      List.map_cons, List.map_nil, List.count_append, List.count_cons, List.count_nil] <;>
    omega

theorem callSites_addAll (r : CastReport) (l : List CastOutcome) :
    (r.addAll l).callSites.Perm (r.callSites ++ l.map (·.callSite)) := by
  induction l generalizing r with
  | nil => simp [addAll]
  | cons outcome l ih =>
    refine (ih (r.add outcome)).trans (((callSites_add r outcome).append_right _).trans ?_)
    exact List.perm_middle.symm

theorem Ascending.add {r : CastReport} (h : r.Ascending) {outcome : CastOutcome}
    (hlast : ∀ callSite ∈ r.callSites, callSite ≤ outcome.callSite) : (r.add outcome).Ascending := by
  have snoc : ∀ {l : List Address}, l.Pairwise (· ≤ ·) → (∀ a ∈ l, a ∈ r.callSites) →
      (l ++ [outcome.callSite]).Pairwise (· ≤ ·) := fun hl hsub =>
    List.pairwise_append.mpr ⟨hl, List.pairwise_singleton _ _,
      fun a ha b hb => List.mem_singleton.mp hb ▸ hlast a (hsub a ha)⟩
  cases outcome with
  | overridden o =>
    refine ⟨?_, h.unresolved, h.failed, h.skipped⟩
    rw [overriddenSites, CastReport.add, List.map_append]
    exact snoc h.overridden fun a ha => mem_callSites.mpr (.inl ha)
  | unresolved callSite =>
    exact ⟨h.overridden, snoc h.unresolved fun a ha => mem_callSites.mpr (.inr (.inl ha)), h.failed,
      h.skipped⟩
  | failed callSite cause =>
    refine ⟨h.overridden, h.unresolved, ?_, h.skipped⟩
    rw [failedSites, CastReport.add, List.map_append]
    exact snoc h.failed fun a ha => mem_callSites.mpr (.inr (.inr (.inl ha)))
  | skipped callSite =>
    exact ⟨h.overridden, h.unresolved, h.failed,
      snoc h.skipped fun a ha => mem_callSites.mpr (.inr (.inr (.inr ha)))⟩

/-- **Calls that come in ascending order** are listed in ascending order. -/
theorem Ascending.addAll {r : CastReport} (h : r.Ascending) {l : List CastOutcome}
    (hlast : ∀ callSite ∈ r.callSites, ∀ outcome ∈ l, callSite ≤ outcome.callSite)
    (hl : (l.map (·.callSite)).Pairwise (· ≤ ·)) : (r.addAll l).Ascending := by
  induction l generalizing r with
  | nil => exact h
  | cons outcome l ih =>
    simp only [List.mem_cons, forall_eq_or_imp] at hlast
    obtain ⟨hfirst, hrest⟩ := List.pairwise_cons.mp hl
    refine ih (h.add fun callSite hmem => (hlast callSite hmem).1) ?_ hrest
    intro callSite hmem next hnext
    rcases List.mem_cons.mp ((callSites_add r outcome).mem_iff.mp hmem) with rfl | hmem
    · exact hfirst _ (List.mem_map_of_mem hnext)
    · exact (hlast callSite hmem).2 next hnext

@[simp]
theorem entryPoint_addAll (r : CastReport) (l : List CastOutcome) :
    (r.addAll l).entryPoint = r.entryPoint := by
  induction l generalizing r with
  | nil => rfl
  | cons outcome l ih => exact (ih _).trans (by cases outcome <;> rfl)

end CastReport

/-! ## Stores that grow -/

namespace OverrideStore

/-- Overrides for different call sites were added, none of which carried one. -/
structure GrownBy (before : OverrideStore) (l : List CallSiteOverride) (after : OverrideStore) :
    Prop where
  refused : after.refused = before.refused
  different : (l.map (·.callSite)).Nodup
  free : ∀ o ∈ l, before.contains o.callSite = false
  get? : ∀ callSite, after.get? callSite =
    (before.get? callSite).or (l.find? fun o => o.callSite == callSite)

variable {before s : OverrideStore} {l : List CallSiteOverride}

theorem contains_eq_false_iff {callSite : Address} :
    s.contains callSite = false ↔ s.get? callSite = none := by
  rw [contains, OrderedMap.contains, Option.isSome_eq_false_iff, Option.isNone_iff_eq_none]
  rfl

theorem GrownBy.nil (s : OverrideStore) : s.GrownBy [] s := ⟨rfl, .nil, by simp, by simp⟩

theorem GrownBy.snoc (h : before.GrownBy l s) {o : CallSiteOverride} (ho : ¬ s.Settled o) :
    before.GrownBy (l ++ [o]) { s with overrides := s.overrides.insert o.callSite o } := by
  have hnone : s.get? o.callSite = none :=
    contains_eq_false_iff.mp (Bool.not_eq_true _ ▸ (not_or.mp ho).2)
  obtain ⟨hbefore, hfind⟩ := Option.or_eq_none_iff.mp ((h.get? o.callSite).symm.trans hnone)
  refine ⟨h.refused, ?_, fun o' ho' => ?_, fun callSite => ?_⟩
  · rw [List.map_append, List.map_singleton]
    refine List.nodup_append.mpr ⟨h.different, List.nodup_singleton _, ?_⟩
    rintro _ hmem _ hlast rfl
    obtain ⟨o', ho', hsite⟩ := List.mem_map.mp hmem
    exact List.find?_eq_none.mp hfind o' ho' (by simp [hsite, List.mem_singleton.mp hlast])
  · rcases List.mem_append.mp ho' with hmem | hmem
    · exact h.free o' hmem
    · rw [List.mem_singleton.mp hmem, contains_eq_false_iff, hbefore]
  · rw [OverrideStore.get?, OrderedMap.get?_insert, List.find?_append]
    by_cases hsite : callSite = o.callSite
    · rw [if_pos hsite, hsite, hbefore, hfind]
      simp
    · rw [if_neg hsite]
      have hskip : [o].find? (fun o => o.callSite == callSite) = none := by simp [Ne.symm hsite]
      rw [hskip, Option.or_none]
      exact h.get? callSite

/-- The call sites that were added carry an override now, but did not before. -/
theorem GrownBy.mem_iff {after : OverrideStore} (h : before.GrownBy l after) {callSite : Address} :
    callSite ∈ l.map (·.callSite) ↔
      before.contains callSite = false ∧ after.contains callSite = true := by
  constructor
  · intro hmem
    obtain ⟨o, ho, rfl⟩ := List.mem_map.mp hmem
    refine ⟨h.free o ho, ?_⟩
    show (after.get? o.callSite).isSome = true
    rw [h.get?, contains_eq_false_iff.mp (h.free o ho), Option.none_or, List.find?_isSome]
    exact ⟨o, ho, beq_self_eq_true _⟩
  · rintro ⟨hnone, hsome⟩
    replace hsome : (after.get? callSite).isSome = true := hsome
    rw [h.get?, contains_eq_false_iff.mp hnone, Option.none_or, List.find?_isSome] at hsome
    obtain ⟨o, ho, hsite⟩ := hsome
    exact List.mem_map.mpr ⟨o, ho, eq_of_beq hsite⟩

/-- Where an override is settled, adding it fails. -/
theorem Settled.add_error {o : CallSiteOverride} (h : s.Settled o) : ∃ e, s.add o = .error e := by
  unfold add
  by_cases hrefused : s.refused.contains o.callSite = true
  · exact ⟨_, if_pos hrefused⟩
  · rw [if_neg hrefused, if_pos (h.resolve_left hrefused)]
    exact ⟨_, rfl⟩

theorem add_of_not_settled {o : CallSiteOverride} (h : ¬ s.Settled o) :
    s.add o = .ok { s with overrides := s.overrides.insert o.callSite o } := by
  obtain ⟨hrefused, hcontains⟩ := not_or.mp h
  rw [add, if_neg hrefused, if_neg hcontains]

theorem refused_accept (s : OverrideStore) (o : CallSiteOverride) : (s.accept o).refused = s.refused := by
  by_cases h : s.Settled o
  · rw [h.accept_eq]
  · rw [accept_of_not_settled h]

theorem contains_accept (s : OverrideStore) (o : CallSiteOverride) (callSite : Address) :
    (s.accept o).contains callSite = true ↔ s.contains callSite = true ∨
      s.refused.contains callSite = false ∧ o.callSite = callSite := by
  by_cases h : s.Settled o
  · rw [h.accept_eq]
    refine ⟨.inl, ?_⟩
    rintro (hcontains | ⟨hfree, rfl⟩)
    · exact hcontains
    · exact h.resolve_left (by simp [hfree])
  · rw [accept_of_not_settled h]
    obtain ⟨hrefused, -⟩ := not_or.mp h
    by_cases hsite : callSite = o.callSite
    · subst hsite
      exact ⟨fun _ => .inr ⟨by simpa using hrefused, rfl⟩,
        fun _ => OrderedMap.contains_insert_self _ _ _⟩
    · rw [contains, OrderedMap.contains_insert_of_ne _ _ hsite]
      exact ⟨.inl, fun hor => hor.resolve_right fun hand => hsite hand.2.symm⟩

/-- **What is offered is taken**, except where overrides are refused. -/
theorem contains_acceptAll (s : OverrideStore) (l : List CallSiteOverride) (callSite : Address) :
    (s.acceptAll l).contains callSite = true ↔ s.contains callSite = true ∨
      s.refused.contains callSite = false ∧ ∃ o ∈ l, o.callSite = callSite := by
  induction l generalizing s with
  | nil => simp [acceptAll]
  | cons o l ih =>
    refine (ih (s.accept o)).trans ?_
    rw [contains_accept, refused_accept]
    simp only [List.mem_cons, exists_eq_or_imp]
    tauto

end OverrideStore

namespace CastResolver

/-! ## What registers hold -/

/-- The register holds the descriptor of a class before the instruction. -/
def HoldsClass (r : CastResolver) (register : Register) (address : Address) : Prop :=
  ∃ value c, r.dataflow address register = .ok (some value) ∧ r.model.get? value = some c

/-- The register holds the descriptor of a class at a call; or else, where that is to be tried, behind the
    delay slots of the call.  Without an answer for the call itself, nothing else is tried. -/
def HoldsClassNear (r : CastResolver) (register : Register) (callSite : Address) : Prop :=
  r.HoldsClass register callSite ∨
    r.config.dynamicCast.retryAfterDelaySlot = true ∧
      (∃ answer, r.dataflow callSite register = .ok answer) ∧
      ∃ next, r.program.afterDelaySlots? callSite = some next ∧ next ≠ callSite ∧
        r.HoldsClass register next

theorem classAt_eq_some_iff {r : CastResolver} {register : Register} {address : Address}
    {c : ClassType} :
    r.classAt register address = .ok (some c) ↔
      ∃ value, r.dataflow address register = .ok (some value) ∧ r.model.get? value = some c := by
  rw [classAt, bind_eq_ok_iff]
  constructor
  · rintro ⟨answer, hanswer, h⟩
    obtain ⟨value, rfl, hvalue⟩ := Option.bind_eq_some_iff.mp (Except.ok.inj h)
    exact ⟨value, hanswer, hvalue⟩
  · rintro ⟨value, hanswer, hvalue⟩
    exact ⟨some value, hanswer, congrArg Except.ok hvalue⟩

theorem exists_classAt_iff {r : CastResolver} {register : Register} {address : Address} :
    (∃ c, r.classAt register address = .ok (some c)) ↔ r.HoldsClass register address := by
  simp only [classAt_eq_some_iff]
  exact exists_comm

/-- **A class is found** just if the register holds its descriptor at the call or behind it. -/
theorem exists_classInRegister_iff {r : CastResolver} {register : Register} {callSite : Address} :
    (∃ c, (r.classInRegister register callSite).1 = .ok (some c)) ↔
      r.HoldsClassNear register callSite := by
  unfold classInRegister HoldsClassNear
  rcases hanswer : r.dataflow callSite register with e | answer
  · have herror : r.classAt register callSite = .error e := by
      rw [classAt, hanswer]
      rfl
    have hnot : ¬ r.HoldsClass register callSite := by
      rw [← exists_classAt_iff, herror]
      simp
    simp [herror, hnot]
  · have hclass : r.classAt register callSite = .ok (answer.bind r.model.get?) := by
      rw [classAt, hanswer]
      rfl
    rw [← exists_classAt_iff, hclass]
    cases answer.bind r.model.get? with
    | some c => simp
    | none =>
      cases hretry : r.config.dynamicCast.retryAfterDelaySlot with
      | false => simp
      | true =>
        cases hnext : r.program.afterDelaySlots? callSite with
        | none => simp
        | some next =>
          by_cases hne : next = callSite
          · simp [hne, Option.filter]
          · simp [hne, Option.filter, ← exists_classAt_iff]

/-! ## The outcomes of a pass -/

/-- **A visit** lets the store grow by the override that it reports, and otherwise leaves it. -/
theorem visit_cases (r : CastResolver) (routine : CastRoutine) (reference : Reference)
    (store : OverrideStore) :
    let visited := (r.visit routine reference store).value
    visited.1.callSite = reference.source ∧
      ((∃ o, visited.1 = .overridden o ∧ ¬ store.Settled o ∧
          visited.2.1 = { store with overrides := store.overrides.insert o.callSite o }) ∨
        (∀ o, visited.1 ≠ .overridden o) ∧ visited.2.1 = store) := by
  simp only [visit]
  split
  · exact ⟨rfl, .inr ⟨by rintro o ⟨⟩, rfl⟩⟩
  · rcases r.target routine reference.source with ⟨target, queries⟩
    cases target with
    | unresolved | failed => exact ⟨rfl, .inr ⟨by rintro o ⟨⟩, rfl⟩⟩
    | classes source destination =>
      by_cases hsettled : store.Settled (r.override routine reference.source source destination)
      · obtain ⟨e, he⟩ := hsettled.add_error
        simp only [he]
        exact ⟨rfl, .inr ⟨by rintro o ⟨⟩, rfl⟩⟩
      · simp only [OverrideStore.add_of_not_settled hsettled]
        exact ⟨rfl, .inl ⟨_, rfl, hsettled, rfl⟩⟩

/-- What becomes of calls that are visited one after the other, and the store afterwards. -/
def outcomes (r : CastResolver) (routine : CastRoutine) :
    List Reference → OverrideStore → List CastOutcome × OverrideStore
  | [], store => ([], store)
  | reference :: rest, store =>
    let (outcome, store, _) := (r.visit routine reference store).value
    let (later, store) := r.outcomes routine rest store
    (outcome :: later, store)

/-- **A pass that is not cancelled** reports what becomes of all its calls. -/
theorem visitAll_of_finished {r : CastResolver} {policy : CancelPolicy} {routine : CastRoutine}
    {references : List Reference} {report : CastReport} {s : CastState}
    (h : (r.visitAll policy routine references report s).value.1.cancelled = false) :
    let result := (r.visitAll policy routine references report s).value
    result.1 = report.addAll (r.outcomes routine references s.store).1 ∧
      result.2.store = (r.outcomes routine references s.store).2 := by
  induction references generalizing report s with
  | nil => exact ⟨rfl, rfl⟩
  | cons reference references ih =>
    simp only [visitAll] at h ⊢
    split at h
    · cases h
    · next hpolicy =>
      rw [if_neg hpolicy]
      exact ih h

theorem callSite_outcomes (r : CastResolver) (routine : CastRoutine) (references : List Reference)
    (store : OverrideStore) :
    (r.outcomes routine references store).1.map (·.callSite) = references.map (·.source) := by
  induction references generalizing store with
  | nil => rfl
  | cons reference references ih =>
    exact congrArg₂ List.cons (r.visit_cases routine reference store).1 (ih _)

/-- The store grows by what is reported. -/
theorem grownBy_outcomes {before store : OverrideStore} (report : CastReport)
    (h : before.GrownBy report.overridden store) (r : CastResolver) (routine : CastRoutine)
    (references : List Reference) :
    let result := r.outcomes routine references store
    before.GrownBy (report.addAll result.1).overridden result.2 := by
  induction references generalizing report store with
  | nil => exact h
  | cons reference references ih =>
    refine ih (report.add _) ?_
    obtain ⟨-, ⟨o, houtcome, hfree, hstore⟩ | ⟨hnone, hstore⟩⟩ := r.visit_cases routine reference store
    · rw [houtcome, hstore]
      exact h.snoc hfree
    · rw [hstore]
      convert h using 1
      cases houtcome : (r.visit routine reference store).value.1 with
      | overridden o => exact absurd houtcome (hnone o)
      | unresolved | failed | skipped => rfl

/-- **How the calls come out.**  Each reference to the routine that is not data is listed in one list, once,
    and the lists are ascending.  Overridden are the calls that carried no override, at which none is
    refused, that are direct, and before which both registers hold descriptors.  The store
    keeps what it had, and has these overrides besides. -/
structure Accounts (r : CastResolver) (routine : CastRoutine) (before : OverrideStore)
    (report : CastReport) (after : OverrideStore) : Prop where
  listed : report.callSites.Perm
    (((r.program.referencesTo routine.entry).filter fun c => !c.kind.isData).map (·.source))
  ascending : report.Ascending
  overridden_iff : ∀ callSite, callSite ∈ report.overriddenSites ↔
    before.contains callSite = false ∧ before.refused.contains callSite = false ∧
      (∃ c ∈ r.program.referencesTo routine.entry, c.kind.isDirectCall = true ∧ c.source = callSite) ∧
      r.HoldsClassNear routine.source callSite ∧ r.HoldsClassNear routine.destination callSite
  grown : before.GrownBy report.overridden after

theorem calls_perm (r : CastResolver) (routine : CastRoutine) :
    (r.calls routine).Perm ((r.program.referencesTo routine.entry).filter fun c => !c.kind.isData) :=
  (List.mergeSort_perm _ _).filter _

theorem calls_ascending (r : CastResolver) (routine : CastRoutine) :
    ((r.calls routine).map (·.source)).Pairwise (· ≤ ·) :=
  List.pairwise_map.mpr ((pairwise_mergeSort_byKey Reference.source _).filter _)

/-- **An offer is made** at direct calls, if both registers hold descriptors. -/
theorem exists_offer_iff {r : CastResolver} {routine : CastRoutine} {callSite : Address} :
    (∃ o ∈ (r.calls routine).filterMap (r.offer routine), o.callSite = callSite) ↔
      (∃ c ∈ r.program.referencesTo routine.entry, c.kind.isDirectCall = true ∧ c.source = callSite) ∧
        r.HoldsClassNear routine.source callSite ∧ r.HoldsClassNear routine.destination callSite := by
  simp only [List.mem_filterMap, (r.calls_perm routine).mem_iff, List.mem_filter,
    ← exists_classInRegister_iff]
  constructor
  · rintro ⟨o, ⟨c, ⟨hc, -⟩, hoffer⟩, rfl⟩
    have hsite := callSite_of_offer hoffer
    obtain ⟨hdirect, source, destination, htarget, -⟩ := offer_eq_some_iff.mp hoffer
    obtain ⟨hsource, hdestination⟩ := target_eq_classes_iff.mp htarget
    rw [hsite]
    exact ⟨⟨c, hc, hdirect, rfl⟩, ⟨source, hsource⟩, ⟨destination, hdestination⟩⟩
  · rintro ⟨⟨c, hc, hdirect, rfl⟩, ⟨source, hsource⟩, ⟨destination, hdestination⟩⟩
    have hdata : (!c.kind.isData) = true := by
      rw [eq_of_beq hdirect]
      rfl
    exact ⟨_, ⟨c, ⟨hc, hdata⟩, offer_eq_some_iff.mpr ⟨hdirect, source, destination,
      target_eq_classes_iff.mpr ⟨hsource, hdestination⟩, rfl⟩⟩, rfl⟩

theorem accounts_of_finished {r : CastResolver} {policy : CancelPolicy} {routine : CastRoutine}
    {s : CastState} {entry : Address}
    (h : (r.visitAll policy routine (r.calls routine) { entryPoint := some entry } s).value.1.cancelled =
      false) :
    let result := (r.visitAll policy routine (r.calls routine) { entryPoint := some entry } s).value
    r.Accounts routine s.store result.1 result.2.store := by
  obtain ⟨hreport, hstore⟩ := visitAll_of_finished h
  obtain ⟨front, rest, hsplit, haccepted, hfinished⟩ :=
    r.visitAll_spec policy routine (r.calls routine) { entryPoint := some entry } s
  have hall : front = r.calls routine := by rw [hsplit, hfinished h, List.append_nil]
  have hsites := r.callSite_outcomes routine (r.calls routine) s.store
  have hgrown := grownBy_outcomes { entryPoint := some entry } (.nil s.store) r routine (r.calls routine)
  simp only [← hreport, ← hstore] at hgrown
  refine ⟨?_, ?_, fun callSite => ?_, hgrown⟩
  · rw [hreport]
    refine (CastReport.callSites_addAll _ _).trans ?_
    rw [hsites]
    exact (r.calls_perm routine).map _
  · rw [hreport]
    refine CastReport.Ascending.addAll ⟨.nil, .nil, .nil, .nil⟩ (by rintro _ ⟨⟩) ?_
    rw [hsites]
    exact r.calls_ascending routine
  · rw [CastReport.overriddenSites, hgrown.mem_iff]
    refine and_congr_right fun hfree => ?_
    rw [haccepted, OverrideStore.contains_acceptAll, hfree, hall, exists_offer_iff]
    simp

/-! ## Whole passes -/

theorem run_of_routine {r : CastResolver} {f : FunctionInfo} {routine : CastRoutine}
    (hfound : r.program.functionsNamed r.config.castEntryName = [f])
    (hroutine : (r.routine f).value = .ok routine) (policy : CancelPolicy) (s : CastState) :
    let visited := (r.visitAll policy routine (r.calls routine) { entryPoint := some f.entry } s).value
    (r.run policy s).value = (.ok visited.1, visited.2) := by
  simp only [run, hfound, Noted.value_bind, hroutine]
  rfl

/-- **A pass** finds no routine, or cannot work with what it finds, or visits the calls of the routine. -/
theorem run_cases (r : CastResolver) (policy : CancelPolicy) (s : CastState) :
    let result := (r.run policy s).value
    result = (.ok {}, s) ∨ (∃ e, result = (.error e, s)) ∨
      ∃ f routine, r.program.functionsNamed r.config.castEntryName = [f] ∧
        (r.routine f).value = .ok routine ∧
        let visited := (r.visitAll policy routine (r.calls routine) { entryPoint := some f.entry } s).value
        result = (.ok visited.1, visited.2) := by
  rcases hfound : r.program.functionsNamed r.config.castEntryName with _ | ⟨f, _ | ⟨g, rest⟩⟩
  · refine .inl ?_
    simp only [run, hfound]
    rfl
  · cases hroutine : (r.routine f).value with
    | error e =>
      refine .inr (.inl ⟨e, ?_⟩)
      simp only [run, hfound, Noted.value_bind, hroutine]
      rfl
    | ok routine => exact .inr (.inr ⟨f, routine, rfl, hroutine, run_of_routine hfound hroutine policy s⟩)
  · refine .inr (.inl ⟨.ambiguousEntryPoint r.config.castEntryName (rest.length + 2), ?_⟩)
    simp only [run, hfound]
    rfl

theorem entry_of_routine {r : CastResolver} {f : FunctionInfo} {routine : CastRoutine}
    (h : (r.routine f).value = .ok routine) : routine.entry = f.entry := by
  simp only [CastResolver.routine, Noted.value_bind] at h
  cases hprototype : (r.checkPrototype f).value with
  | error e =>
    rw [hprototype] at h
    cases h
  | ok prototype =>
    rw [hprototype] at h
    obtain ⟨source, -, h⟩ := bind_eq_ok_iff.mp h
    obtain ⟨destination, -, h⟩ := bind_eq_ok_iff.mp h
    cases h
    rfl

/-- What is reported was not settled before. -/
theorem not_settled_of_visitAll {r : CastResolver} {policy : CancelPolicy} {routine : CastRoutine}
    {references : List Reference} {report : CastReport} {s : CastState} {o : CallSiteOverride}
    (h : o ∈ (r.visitAll policy routine references report s).value.1.overridden) :
    o ∈ report.overridden ∨ ¬ s.store.Settled o := by
  induction references generalizing report s with
  | nil => exact .inl h
  | cons reference references ih =>
    simp only [visitAll] at h
    split at h
    · exact .inl h
    · simp only [Noted.value_bind] at h
      obtain ⟨-, ⟨o', houtcome, hfree, -⟩ | ⟨hnone, hstore⟩⟩ :=
        r.visit_cases routine reference s.store
      all_goals rcases ih h with hmem | hnot
      · rcases mem_overridden_add.mp hmem with hmem | heq
        · exact .inl hmem
        · cases houtcome.symm.trans heq
          exact .inr hfree
      · exact .inr fun hsettled => hnot (r.visit_store routine reference s.store ▸
          hsettled.acceptAll _)
      · exact .inl ((mem_overridden_add.mp hmem).resolve_right (hnone o))
      · exact .inr (hstore ▸ hnot)

/-- A pass that is not cancelled settles its plan. -/
theorem settled_plan_of_run {r : CastResolver} {policy : CancelPolicy} {s : CastState}
    (h : ∀ report, (r.run policy s).value.1 = .ok report → report.cancelled = false) :
    ∀ o ∈ r.plan, (r.run policy s).value.2.store.Settled o := by
  obtain ⟨⟨front, rest, hsplit, hstore, hfinished⟩, herror⟩ := r.run_spec policy s
  cases hresult : (r.run policy s).value.1 with
  | error e => simp [herror e hresult]
  | ok report =>
    rw [hfinished report hresult (h report hresult), List.append_nil] at hsplit
    rw [hstore, hsplit]
    exact OverrideStore.settled_acceptAll s.store front

/-- **Where the plan is settled**, a pass changes nothing and reports no override. -/
theorem run_of_settled {r : CastResolver} {s : CastState} (h : ∀ o ∈ r.plan, s.store.Settled o)
    (policy : CancelPolicy) :
    let result := (r.run policy s).value
    result.2.store = s.store ∧ ∀ report, result.1 = .ok report → report.overridden = [] := by
  obtain ⟨⟨front, rest, hsplit, hstore, -⟩, -⟩ := r.run_spec policy s
  constructor
  · rw [hstore]
    exact OverrideStore.acceptAll_of_settled fun o ho => h o (hsplit ▸ List.mem_append_left rest ho)
  · intro report hreport
    refine List.eq_nil_iff_forall_not_mem.mpr fun o ho => ?_
    have hsettled := h o (mem_plan_of_run hreport o ho)
    rcases r.run_cases policy s with hresult | ⟨e, hresult⟩ | ⟨f, routine, -, -, hresult⟩ <;>
      cases (congrArg Prod.fst hresult).symm.trans hreport
    · cases ho
    · rcases not_settled_of_visitAll ho with hnone | hnot
      · cases hnone
      · exact hnot hsettled

/-- **What a pass does.**  If it finds the routine and is not cancelled, it accounts for its calls.  If it
    fails, it leaves the store.  After one that was not cancelled, another changes nothing. -/
theorem run_accounts (r : CastResolver) (policy : CancelPolicy) (s : CastState) :
    let result := (r.run policy s).value
    (∀ report entry, result.1 = .ok report → report.entryPoint = some entry →
      report.cancelled = false → ∃ f routine,
        r.program.functionsNamed r.config.castEntryName = [f] ∧ (r.routine f).value = .ok routine ∧
          routine.entry = entry ∧ r.Accounts routine s.store report result.2.store) ∧
    (∀ e, result.1 = .error e → result.2.store = s.store) ∧
    ((∀ report, result.1 = .ok report → report.cancelled = false) → ∀ policy' work,
      let again := (r.run policy' ⟨result.2.store, work⟩).value
      again.2.store = result.2.store ∧ ∀ report, again.1 = .ok report → report.overridden = []) := by
  refine ⟨fun report entry hreport hentry hfinished => ?_, fun e herror => ?_,
    fun h policy' work => run_of_settled (s := ⟨_, work⟩) (settled_plan_of_run h) policy'⟩
  · rcases r.run_cases policy s with hresult | ⟨e, hresult⟩ | ⟨f, routine, hfound, hroutine, hresult⟩
    · cases (congrArg Prod.fst hresult).symm.trans hreport
      cases hentry
    · cases (congrArg Prod.fst hresult).symm.trans hreport
    · cases (congrArg Prod.fst hresult).symm.trans hreport
      have hfound' : f.entry = entry := by
        rw [(visitAll_of_finished hfinished).1, CastReport.entryPoint_addAll] at hentry
        exact Option.some.inj hentry
      refine ⟨f, routine, hfound, hroutine, (entry_of_routine hroutine).trans hfound', ?_⟩
      rw [hresult]
      exact accounts_of_finished hfinished
  · rcases r.run_cases policy s with hresult | ⟨e', hresult⟩ | ⟨f, routine, -, -, hresult⟩
    · rw [hresult]
    · rw [hresult]
    · cases (congrArg Prod.fst hresult).symm.trans herror

/-- Calls of the routine: twice, and through a register besides, from `0x4010`; from where an override is
    there already, or is refused; from where a descriptor is known behind a delay slot only, or not
    at all. -/
def crossroadsCalls : List Reference :=
  [⟨0x4010, 0x9000, .call⟩, ⟨0x4010, 0x9000, .indirectCall⟩, ⟨0x4010, 0x9000, .call⟩,
    ⟨0x4020, 0x9000, .call⟩, ⟨0x4030, 0x9000, .call⟩, ⟨0x4040, 0x9000, .call⟩, ⟨0x4050, 0x9000, .call⟩]

/-- A program with these calls. -/
def crossroads : CastResolver :=
  let classes := [widgets.1, widgets.2]
  let program := Program.ofSnapshot
    { functions := [itaniumEntry], references := crossroadsCalls, classes
      registerConstants := [⟨0x4010, "rsi", 0xb0⟩, ⟨0x4010, "rdx", 0xa0⟩, ⟨0x4020, "rsi", 0xb0⟩,
        ⟨0x4020, "rdx", 0xa0⟩, ⟨0x4030, "rsi", 0xb0⟩, ⟨0x4030, "rdx", 0xa0⟩, ⟨0x4040, "rsi", 0xb0⟩,
        ⟨0x4048, "rdx", 0xa0⟩]
      delaySlots := [⟨0x4040, 0x4048⟩] }
  ⟨program, program.dataflow, .ofClasses .itanium 8 classes, {}⟩

/-- The store before the pass. -/
def crossroadsStore : OverrideStore where
  overrides := OrderedMap.empty.insert 0x4020
    (crossroads.override widgetRoutine 0x4020 widgets.1 widgets.1)
  refused := OrderedMap.empty.add 0x4030

/-- What the pass makes of them. -/
theorem run_accounts_crossroads :
    ∃ report, (crossroads.run .never ⟨crossroadsStore, {}⟩).value.1 = .ok report ∧
      report.entryPoint = some 0x9000 ∧ report.cancelled = false ∧
      report.overriddenSites = [0x4010, 0x4040] ∧ report.unresolved = [0x4050] ∧
      report.failedSites = [0x4030] ∧ report.skipped = [0x4010, 0x4010, 0x4020] ∧
      ∃ routine, crossroads.Accounts routine crossroadsStore report
        (crossroads.run .never ⟨crossroadsStore, {}⟩).value.2.store := by
  have hfound : crossroads.program.functionsNamed crossroads.config.castEntryName = [itaniumEntry] := by
    decide +kernel
  have hroutine : (crossroads.routine itaniumEntry).value = .ok widgetRoutine :=
    toOption_eq_some_iff.mp (by decide +kernel)
  have hreferences : crossroads.program.referencesTo widgetRoutine.entry = crossroadsCalls := by
    decide +kernel
  have hcalls : crossroads.calls widgetRoutine = crossroadsCalls := by
    rw [calls, hreferences, List.mergeSort_of_pairwise (by decide)]
    decide
  have hvisited : (fun r : CastReport => (r.entryPoint, r.cancelled,
      [r.overriddenSites, r.unresolved, r.failedSites, r.skipped]))
      (crossroads.visitAll .never widgetRoutine crossroadsCalls { entryPoint := some 0x9000 }
        ⟨crossroadsStore, {}⟩).value.1 =
      (some 0x9000, false, [[0x4010, 0x4040], [0x4050], [0x4030], [0x4010, 0x4010, 0x4020]]) := by
    decide +kernel
  have hrun := run_of_routine hfound hroutine .never ⟨crossroadsStore, {}⟩
  rw [hcalls] at hrun
  have hok := congrArg Prod.fst hrun
  simp only [Prod.mk.injEq, List.cons.injEq, and_true] at hvisited
  obtain ⟨hentry, hfinished, hoverridden, hunresolved, hfailed, hskipped⟩ := hvisited
  obtain ⟨haccounts, -, -⟩ := run_accounts crossroads .never ⟨crossroadsStore, {}⟩
  obtain ⟨-, routine, -, -, -, haccounted⟩ := haccounts _ 0x9000 hok hentry hfinished
  exact ⟨_, hok, hentry, hfinished, hoverridden, hunresolved, hfailed, hskipped, routine, haccounted⟩

end CastResolver

end ClassRecovery
