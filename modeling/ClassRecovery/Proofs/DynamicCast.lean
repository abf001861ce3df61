/-
  Overrides for the calls of the dynamic-cast routine.

  The classes of a program decide which overrides are offered, in which order (`CastResolver.plan`).  A pass
  offers some of them from the front, and all unless it is cancelled (`CastResolver.run_spec`).  The store
  accepts each of them, or never does (`OverrideStore.Settled`), so offering some of them again
  makes no difference.
-/
import ClassRecovery.DynamicCast
import ClassRecovery.Proofs.OrderedMap

namespace ClassRecovery

/-! ## Offering overrides -/

namespace OverrideStore

/-- The store after an override is offered. -/
def accept (s : OverrideStore) (o : CallSiteOverride) : OverrideStore :=
  match s.add o with
  | .ok s' => s'
  | .error _ => s

/-- The store after overrides are offered one after the other. -/
def acceptAll (s : OverrideStore) (l : List CallSiteOverride) : OverrideStore := l.foldl accept s

/-- Offering the override makes no difference: the call site is refused, or carries an override. -/
def Settled (s : OverrideStore) (o : CallSiteOverride) : Prop :=
  s.refused.contains o.callSite = true ∨ s.contains o.callSite = true

theorem Settled.accept_eq {s : OverrideStore} {o : CallSiteOverride} (h : s.Settled o) :
    s.accept o = s := by
  unfold accept add
  by_cases hrefused : s.refused.contains o.callSite = true
  · rw [if_pos hrefused]
  · rw [if_neg hrefused, if_pos (h.resolve_left hrefused)]

theorem accept_of_not_settled {s : OverrideStore} {o : CallSiteOverride} (h : ¬ s.Settled o) :
    s.accept o = { s with overrides := s.overrides.insert o.callSite o } := by
  obtain ⟨hrefused, hcontains⟩ := not_or.mp h
  rw [accept, add, if_neg hrefused, if_neg hcontains]

/-- **An override that was offered is settled.** -/
theorem settled_accept (s : OverrideStore) (o : CallSiteOverride) : (s.accept o).Settled o := by
  by_cases h : s.Settled o
  · rwa [h.accept_eq]
  · rw [accept_of_not_settled h]
    exact .inr (OrderedMap.contains_insert_self _ _ _)

theorem Settled.accept {s : OverrideStore} {o : CallSiteOverride} (h : s.Settled o)
    (o' : CallSiteOverride) : (s.accept o').Settled o := by
  by_cases h' : s.Settled o'
  · rwa [h'.accept_eq]
  · rw [accept_of_not_settled h']
    refine h.imp id fun hcontains => ?_
    by_cases hsite : o.callSite = o'.callSite
    · rw [OverrideStore.contains, hsite]
      exact OrderedMap.contains_insert_self _ _ _
    · exact (OrderedMap.contains_insert_of_ne _ _ hsite).trans hcontains

theorem Settled.acceptAll {s : OverrideStore} {o : CallSiteOverride} (h : s.Settled o)
    (l : List CallSiteOverride) : (s.acceptAll l).Settled o := by
  induction l generalizing s with
  | nil => exact h
  | cons o' l ih => exact ih (h.accept o')

theorem settled_acceptAll (s : OverrideStore) (l : List CallSiteOverride) :
    ∀ o ∈ l, (s.acceptAll l).Settled o := by
  induction l generalizing s with
  | nil => simp
  | cons o l ih =>
    simp only [List.mem_cons, forall_eq_or_imp]
    exact ⟨(settled_accept s o).acceptAll l, ih _⟩

theorem acceptAll_of_settled {s : OverrideStore} {l : List CallSiteOverride}
    (h : ∀ o ∈ l, s.Settled o) : s.acceptAll l = s := by
  induction l with
  | nil => rfl
  | cons o l ih =>
    simp only [List.mem_cons, forall_eq_or_imp] at h
    rw [acceptAll, List.foldl_cons, h.1.accept_eq, ← acceptAll, ih h.2]

theorem acceptAll_append (s : OverrideStore) (front rest : List CallSiteOverride) :
    s.acceptAll (front ++ rest) = (s.acceptAll front).acceptAll rest := List.foldl_append

/-- **Overrides may be offered again**, if some were offered before. -/
theorem acceptAll_acceptAll (s : OverrideStore) (front rest : List CallSiteOverride) :
    (s.acceptAll front).acceptAll (front ++ rest) = s.acceptAll (front ++ rest) := by
  rw [acceptAll_append, acceptAll_of_settled (settled_acceptAll s front), ← acceptAll_append]

end OverrideStore

namespace CastResolver

/-! ## The overrides of a program -/

/-- The override that a call is offered, if any. -/
def offer (r : CastResolver) (routine : CastRoutine) (reference : Reference) :
    Option CallSiteOverride :=
  if reference.kind.isDirectCall then
    match (r.target routine reference.source).1 with
    | .classes source destination => some (r.override routine reference.source source destination)
    | _ => none
  else none

/-- The overrides that the calls of the routine are offered. -/
def plan (r : CastResolver) : List CallSiteOverride :=
  match r.program.functionsNamed r.config.castEntryName with
  | [f] =>
    match (r.routine f).value with
    | .ok routine => (r.calls routine).filterMap (r.offer routine)
    | .error _ => []
  | _ => []

/-- Only the classes count of the model. -/
theorem plan_congr {program : Program} {dataflow : Dataflow} {config : AnalysisConfig}
    {m m' : ClassModel} (h : m.classes = m'.classes) :
    plan ⟨program, dataflow, m, config⟩ = plan ⟨program, dataflow, m', config⟩ := by
  have hget : m.get? = m'.get? := funext fun id => by rw [ClassModel.get?, h, ClassModel.get?]
  have hclassAt : classAt ⟨program, dataflow, m, config⟩ = classAt ⟨program, dataflow, m', config⟩ := by
    funext register address
    simp only [classAt, hget]
  have htarget : target ⟨program, dataflow, m, config⟩ = target ⟨program, dataflow, m', config⟩ := by
    funext routine callSite
    simp only [target, classInRegister, hclassAt]
  have hoffer : offer ⟨program, dataflow, m, config⟩ = offer ⟨program, dataflow, m', config⟩ := by
    funext routine reference
    simp only [offer, htarget, override, callPrototype]
  have hroutine : routine ⟨program, dataflow, m, config⟩ = routine ⟨program, dataflow, m', config⟩ := by
    funext f
    simp only [routine, checkPrototype, parameterRegister]
  simp only [plan, calls, hroutine, hoffer]

/-! ## Passes -/

theorem callSite_of_offer {r : CastResolver} {routine : CastRoutine} {reference : Reference}
    {o : CallSiteOverride} (h : r.offer routine reference = some o) :
    o.callSite = reference.source := by
  unfold offer at h
  split at h
  · split at h
    · rw [← Option.some.inj h]
      rfl
    · cases h
  · cases h

/-- What a visit does to the store. -/
theorem visit_store (r : CastResolver) (routine : CastRoutine) (reference : Reference)
    (store : OverrideStore) :
    (r.visit routine reference store).value.2.1 =
      store.acceptAll (r.offer routine reference).toList := by
  by_cases hskip : (!reference.kind.isDirectCall || store.contains reference.source) = true
  · have hsettled : ∀ o ∈ (r.offer routine reference).toList, store.Settled o := by
      intro o ho
      have hoffer : r.offer routine reference = some o := by simpa using ho
      rcases (Bool.or_eq_true ..).mp hskip with hdirect | hcontains
      · simp [offer, (Bool.not_eq_true' _).mp hdirect] at hoffer
      · exact .inr (callSite_of_offer hoffer ▸ hcontains)
    rw [OverrideStore.acceptAll_of_settled hsettled, visit, if_pos hskip]
    rfl
  · have hdirect : reference.kind.isDirectCall = true := by
      cases h : reference.kind.isDirectCall <;> simp_all
    rw [visit, if_neg hskip, offer, if_pos hdirect]
    rcases r.target routine reference.source with ⟨target, queries⟩
    cases target with
    | classes source destination =>
      simp only [Option.toList, OverrideStore.acceptAll, List.foldl, OverrideStore.accept]
      cases store.add (r.override routine reference.source source destination) <;> rfl
    | unresolved | failed => rfl

/-- **Visiting calls**, unless cancelled: some of them are visited, from the front. -/
theorem visitAll_spec (r : CastResolver) (policy : CancelPolicy) (routine : CastRoutine)
    (references : List Reference) (report : CastReport) (s : CastState) :
    let result := (r.visitAll policy routine references report s).value
    ∃ front rest, references = front ++ rest ∧
      result.2.store = s.store.acceptAll (front.filterMap (r.offer routine)) ∧
      (result.1.cancelled = false → rest = []) := by
  induction references generalizing report s with
  | nil => exact ⟨[], [], rfl, rfl, fun _ => rfl⟩
  | cons reference references ih =>
    simp only [visitAll]
    split
    · exact ⟨[], reference :: references, rfl, rfl, by rintro ⟨⟩⟩
    · have hstore := r.visit_store routine reference s.store
      simp only [Noted.value_bind]
      generalize (r.visit routine reference s.store).value = visited at hstore ⊢
      obtain ⟨outcome, store, queries⟩ := visited
      simp only at hstore
      obtain ⟨front, rest, rfl, hfront, hfinished⟩ := ih (report.add outcome) ⟨store, _⟩
      refine ⟨reference :: front, rest, rfl, hfront.trans ?_, hfinished⟩
      rw [hstore, ← OverrideStore.acceptAll_append]
      cases hoffer : r.offer routine reference <;> simp [hoffer]

/-- **A pass** offers overrides from the front of its plan, and all unless it is cancelled.  It fails only
    if there is nothing to offer. -/
theorem run_spec (r : CastResolver) (policy : CancelPolicy) (s : CastState) :
    let result := (r.run policy s).value
    (∃ front rest, r.plan = front ++ rest ∧ result.2.store = s.store.acceptAll front ∧
      ∀ report, result.1 = .ok report → report.cancelled = false → rest = []) ∧
      ∀ e, result.1 = .error e → r.plan = [] := by
  simp only [run, plan]
  generalize r.program.functionsNamed r.config.castEntryName = found
  rcases found with _ | ⟨f, _ | ⟨g, rest⟩⟩
  · exact ⟨⟨[], [], rfl, rfl, fun _ _ _ => rfl⟩, fun _ _ => rfl⟩
  · simp only [Noted.value_bind]
    generalize (r.routine f).value = found
    rcases found with e | routine
    · exact ⟨⟨[], [], rfl, rfl, fun _ _ _ => rfl⟩, fun _ _ => rfl⟩
    · obtain ⟨front, rest, hsplit, hstore, hfinished⟩ :=
        r.visitAll_spec policy routine (r.calls routine) { entryPoint := some f.entry } s
      refine ⟨⟨front.filterMap (r.offer routine), rest.filterMap (r.offer routine), ?_, hstore, ?_⟩,
        by rintro _ ⟨⟩⟩
      · rw [← List.filterMap_append, ← hsplit]
      · rintro _ ⟨⟩ hcancelled
        rw [hfinished hcancelled]
        rfl
  · exact ⟨⟨[], [], rfl, rfl, fun _ _ _ => rfl⟩, fun _ _ => rfl⟩

end CastResolver

end ClassRecovery
