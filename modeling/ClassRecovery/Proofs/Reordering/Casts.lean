/-
  Calls of the dynamic-cast routine in another order.

  What becomes of a call depends on the store at its own call site alone (`CastResolver.visit_outcome`), so two
  calls may change places (`CastResolver.outcomes_perm`).  A report lists its calls in ascending order,
  and lists nothing else about calls from one place, so it does not depend on the order of the
  references (`CastResolver.run_reordered`).
-/
import ClassRecovery.Proofs.CastOutcomes
import ClassRecovery.Proofs.Reordering.Discovery
import ClassRecovery.Proofs.Session.Uncancelled

namespace ClassRecovery

/-! ## Stores -/

namespace OverrideStore

variable {s : OverrideStore} {o o' : CallSiteOverride}

theorem contains_accept_of_ne (s : OverrideStore) {callSite : Address} (h : callSite ≠ o.callSite) :
    (s.accept o).contains callSite = s.contains callSite := by
  rw [Bool.eq_iff_iff, contains_accept]
  exact or_iff_left fun hand => h hand.2.symm

theorem settled_accept_iff (h : o.callSite ≠ o'.callSite) : (s.accept o').Settled o ↔ s.Settled o := by
  rw [Settled, Settled, refused_accept, contains_accept_of_ne s h]

/-- **Overrides may be offered in any order**, if there is one for each call site. -/
theorem accept_comm (s : OverrideStore) (h : o.callSite = o'.callSite → o = o') :
    (s.accept o).accept o' = (s.accept o').accept o := by
  by_cases hsite : o.callSite = o'.callSite
  · rw [h hsite]
  · by_cases ho : s.Settled o
    · rw [ho.accept_eq, (ho.accept o').accept_eq]
    · by_cases ho' : s.Settled o'
      · rw [ho'.accept_eq, (ho'.accept o).accept_eq]
      · rw [accept_of_not_settled (mt (settled_accept_iff (Ne.symm hsite)).mp ho'),
          accept_of_not_settled (mt (settled_accept_iff hsite).mp ho), accept_of_not_settled ho,
          accept_of_not_settled ho', OrderedMap.insert_comm _ hsite]

end OverrideStore

/-! ## Reports -/

namespace CastOutcome

def override? : CastOutcome → Option CallSiteOverride
  | .overridden o => some o
  | _ => none

def unresolved? : CastOutcome → Option Address
  | .unresolved callSite => some callSite
  | _ => none

def failed? : CastOutcome → Option (Address × HostError)
  | .failed callSite cause => some (callSite, cause)
  | _ => none

def skipped? : CastOutcome → Option Address
  | .skipped callSite => some callSite
  | _ => none

end CastOutcome

/-- A report has the outcomes of each kind in a list of their own. -/
theorem CastReport.addAll_eq (r : CastReport) (l : List CastOutcome) :
    r.addAll l =
      { r with
        overridden := r.overridden ++ l.filterMap (·.override?)
        unresolved := r.unresolved ++ l.filterMap (·.unresolved?)
        failed := r.failed ++ l.filterMap (·.failed?)
        skipped := r.skipped ++ l.filterMap (·.skipped?) } := by
  induction l generalizing r with
  | nil => simp [addAll]
  | cons outcome l ih =>
    refine (ih (r.add outcome)).trans ?_
    cases outcome <;>
      simp [add, CastOutcome.override?, CastOutcome.unresolved?, CastOutcome.failed?,
        CastOutcome.skipped?]

namespace CastResolver

/-! ## Calls that change places -/

/-- What becomes of a direct call that carries no override. -/
def verdict (r : CastResolver) (routine : CastRoutine) (callSite : Address) (refuses : Bool) :
    CastOutcome :=
  match (r.target routine callSite).1 with
  | .unresolved => .unresolved callSite
  | .failed e => .failed callSite e
  | .classes source destination =>
    if refuses then
      .failed callSite (.signature callSite "signature store rejected the override")
    else .overridden (r.override routine callSite source destination)

/-- **The outcome of a call** depends on its place, on whether it is direct, and on the store there. -/
theorem visit_outcome (r : CastResolver) (routine : CastRoutine) (reference : Reference)
    (store : OverrideStore) :
    (r.visit routine reference store).value.1 =
      if !reference.kind.isDirectCall || store.contains reference.source then
        .skipped reference.source
      else r.verdict routine reference.source (store.refused.contains reference.source) := by
  simp only [visit, verdict]
  split
  · rfl
  · next hskip =>
    have hfree : ¬ store.contains reference.source = true := fun h => hskip (by simp [h])
    rcases r.target routine reference.source with ⟨target, queries⟩
    cases target with
    | unresolved | failed => rfl
    | classes source destination =>
      by_cases hrefused : store.refused.contains reference.source = true
      · simp only [OverrideStore.add, override, hrefused, if_true]
        rfl
      · simp only [OverrideStore.add, override, hrefused, hfree]
        rfl

theorem visit_congr (r : CastResolver) (routine : CastRoutine) {c c' : Reference}
    (hsource : c.source = c'.source) (hdirect : c.kind.isDirectCall = c'.kind.isDirectCall) :
    r.visit routine c = r.visit routine c' := by
  funext store
  simp only [visit, hsource, hdirect]

/-- A call that is not direct is skipped, whatever the store. -/
theorem visit_of_not_direct (r : CastResolver) (routine : CastRoutine) {c : Reference}
    (h : c.kind.isDirectCall = false) (store : OverrideStore) :
    (r.visit routine c store).value.1 = .skipped c.source ∧
      (r.visit routine c store).value.2.1 = store := by
  simp only [visit, h]
  exact ⟨rfl, rfl⟩

/-- A visit leaves the other call sites as they are. -/
theorem visit_frame (r : CastResolver) (routine : CastRoutine) (c : Reference) (store : OverrideStore) :
    let store' := (r.visit routine c store).value.2.1
    store'.refused = store.refused ∧
      ∀ callSite, callSite ≠ c.source → store'.contains callSite = store.contains callSite := by
  have hstore := r.visit_store routine c store
  cases hoffer : r.offer routine c with
  | none =>
    rw [hoffer] at hstore
    simp only [hstore]
    exact ⟨rfl, fun _ _ => rfl⟩
  | some o =>
    have hsite := callSite_of_offer hoffer
    rw [hoffer] at hstore
    simp only [hstore]
    exact ⟨OverrideStore.refused_accept store o,
      fun callSite hne => store.contains_accept_of_ne (hsite ▸ hne)⟩

/-- Offers for one call site are the same. -/
theorem offer_unique {r : CastResolver} {routine : CastRoutine} {c c' : Reference}
    {o o' : CallSiteOverride} (h : r.offer routine c = some o) (h' : r.offer routine c' = some o')
    (hsite : o.callSite = o'.callSite) : o = o' := by
  rw [callSite_of_offer h, callSite_of_offer h'] at hsite
  have hdirect := (offer_eq_some_iff.mp h).1
  have hdirect' := (offer_eq_some_iff.mp h').1
  have hsame : r.offer routine c = r.offer routine c' := by
    simp only [offer, hdirect, hdirect', hsite]
  exact Option.some.inj (h.symm.trans (hsame.trans h'))

/-- **Two calls may change places.** -/
theorem visit_comm (r : CastResolver) (routine : CastRoutine) (c c' : Reference)
    (store : OverrideStore) :
    let first := (r.visit routine c store).value
    let second := (r.visit routine c' first.2.1).value
    let first' := (r.visit routine c' store).value
    let second' := (r.visit routine c first'.2.1).value
    [first.1, second.1].Perm [first'.1, second'.1] ∧ second.2.1 = second'.2.1 := by
  intro first second first' second'
  constructor
  · by_cases hsource : c.source = c'.source
    · cases hdirect : c.kind.isDirectCall with
      | false =>
        obtain ⟨hskipped, hstore⟩ := r.visit_of_not_direct routine hdirect store
        have hskipped' := (r.visit_of_not_direct routine hdirect first'.2.1).1
        rw [show second = first' by simp only [second, first, hstore, first'],
          show first.1 = second'.1 from hskipped.trans hskipped'.symm]
        exact .swap ..
      | true =>
        cases hdirect' : c'.kind.isDirectCall with
        | false =>
          obtain ⟨hskipped, hstore⟩ := r.visit_of_not_direct routine hdirect' store
          have hskipped' := (r.visit_of_not_direct routine hdirect' first.2.1).1
          rw [show second' = first by simp only [second', first', hstore, first],
            show second.1 = first'.1 from hskipped'.trans hskipped.symm]
          exact .swap ..
        | true =>
          have hsame := r.visit_congr routine hsource (hdirect.trans hdirect'.symm)
          simp only [second', first', ← hsame, second, first]
          exact .refl _
    · have hframe := r.visit_frame routine c store
      have hframe' := r.visit_frame routine c' store
      rw [show second.1 = first'.1 by
          rw [visit_outcome, visit_outcome, hframe.1, hframe.2 _ (Ne.symm hsource)],
        show second'.1 = first.1 by
          rw [visit_outcome, visit_outcome, hframe'.1, hframe'.2 _ hsource]]
      exact .swap ..
  · simp only [second, first, second', first', visit_store]
    cases hoffer : r.offer routine c with
    | none => rfl
    | some o =>
      cases hoffer' : r.offer routine c' with
      | none => rfl
      | some o' => exact store.accept_comm (offer_unique hoffer hoffer')

/-- **Calls may be visited in any order**: they come out the same, and so does the store. -/
theorem outcomes_perm (r : CastResolver) (routine : CastRoutine) {l l' : List Reference}
    (h : l.Perm l') (store : OverrideStore) :
    (r.outcomes routine l store).1.Perm (r.outcomes routine l' store).1 ∧
      (r.outcomes routine l store).2 = (r.outcomes routine l' store).2 := by
  induction h generalizing store with
  | nil => exact ⟨.refl _, rfl⟩
  | cons c _ ih =>
    obtain ⟨hperm, hstore⟩ := ih (r.visit routine c store).value.2.1
    exact ⟨hperm.cons _, hstore⟩
  | swap c c' l =>
    obtain ⟨hperm, hstore⟩ := r.visit_comm routine c' c store
    simp only [outcomes, hstore]
    exact ⟨hperm.append_right _, trivial⟩
  | trans _ _ ih ih' => exact ⟨(ih store).1.trans (ih' store).1, (ih store).2.trans (ih' store).2⟩

/-- What becomes of calls that are not skipped, their place tells. -/
theorem verdict_of_mem_outcomes {r : CastResolver} {routine : CastRoutine} {l : List Reference}
    {store : OverrideStore} {outcome : CastOutcome} (h : outcome ∈ (r.outcomes routine l store).1) :
    outcome = .skipped outcome.callSite ∨
      outcome = r.verdict routine outcome.callSite (store.refused.contains outcome.callSite) := by
  induction l generalizing store with
  | nil => cases h
  | cons c l ih =>
    rcases List.mem_cons.mp h with rfl | hmem
    · rw [(r.visit_cases routine c store).1, visit_outcome]
      split
      · exact .inl rfl
      · exact .inr rfl
    · rw [← (r.visit_frame routine c store).1]
      exact ih hmem

/-! ## Passes -/

/-- **The report does not depend on the order** of the outcomes, if these are listed in ascending order. -/
theorem addAll_congr {report : CastReport} {l l' : List CastOutcome} (hperm : l.Perm l')
    (h : (report.addAll l).Ascending) (h' : (report.addAll l').Ascending)
    (hoverridden : (report.addAll l).overriddenSites.Nodup)
    (hfailed : ∀ f ∈ (report.addAll l).failed, ∀ f' ∈ (report.addAll l).failed, f.1 = f'.1 → f = f') :
    report.addAll l = report.addAll l' := by
  rw [CastReport.addAll_eq] at h h' hoverridden hfailed ⊢
  rw [CastReport.addAll_eq]
  have sites {l l' : List Address} (hl : l.Pairwise (· ≤ ·)) (hl' : l'.Pairwise (· ≤ ·))
      (hperm : l.Perm l') : l = l' :=
    List.Perm.eq_of_pairwise (fun a b _ _ => UInt64.le_antisymm) hl hl' hperm
  congr 1
  · refine List.Perm.eq_of_pairwise ?_ (List.pairwise_map.mp h.overridden)
      (List.pairwise_map.mp h'.overridden) ((hperm.filterMap _).append_left _)
    intro o o' ho ho' hle hge
    have hmem := ((hperm.filterMap CastOutcome.override?).append_left report.overridden).mem_iff.mpr ho'
    exact List.inj_on_of_nodup_map hoverridden ho hmem (UInt64.le_antisymm hle hge)
  · exact sites h.unresolved h'.unresolved ((hperm.filterMap _).append_left _)
  · refine List.Perm.eq_of_pairwise ?_ (List.pairwise_map.mp h.failed)
      (List.pairwise_map.mp h'.failed) ((hperm.filterMap _).append_left _)
    intro f f' hf hf' hle hge
    have hmem := ((hperm.filterMap CastOutcome.failed?).append_left report.failed).mem_iff.mpr hf'
    exact hfailed f hf f' hmem (UInt64.le_antisymm hle hge)
  · exact sites h.skipped h'.skipped ((hperm.filterMap _).append_left _)

theorem outcomes_congr {r r' : CastResolver} (h : r'.visit = r.visit) : r'.outcomes = r.outcomes := by
  funext routine l store
  induction l generalizing store with
  | nil => rfl
  | cons c l ih => simp only [outcomes, h, ih]

/-- **The calls of the routine may come in any order**, if the pass is not cancelled. -/
theorem visitAll_reordered {r r' : CastResolver} {routine : CastRoutine} (hvisit : r'.visit = r.visit)
    (hcalls : (r'.calls routine).Perm (r.calls routine)) (entry : Address) (s : CastState) :
    let visited := (r.visitAll .never routine (r.calls routine) { entryPoint := some entry } s).value
    let visited' := (r'.visitAll .never routine (r'.calls routine) { entryPoint := some entry } s).value
    visited'.1 = visited.1 ∧ visited'.2.store = visited.2.store := by
  intro visited visited'
  have hfinished : visited.1.cancelled = false := r.visitAll_never routine _ _ s
  have hfinished' : visited'.1.cancelled = false := r'.visitAll_never routine _ _ s
  have haccounts := accounts_of_finished hfinished
  have haccounts' := accounts_of_finished hfinished'
  obtain ⟨hreport, hstore⟩ := visitAll_of_finished hfinished
  obtain ⟨hreport', hstore'⟩ := visitAll_of_finished hfinished'
  obtain ⟨hperm, hsame⟩ := r.outcomes_perm routine hcalls s.store
  rw [outcomes_congr hvisit] at hreport' hstore'
  refine ⟨?_, by rw [hstore', hsame, hstore]⟩
  have hascending := haccounts.ascending
  have hascending' := haccounts'.ascending
  have hdifferent := haccounts'.grown.different
  rw [hreport] at hascending ⊢
  rw [hreport'] at hascending' hdifferent ⊢
  refine addAll_congr hperm hascending' hascending hdifferent fun f hf f' hf' hsite => ?_
  have cause : ∀ f ∈ (r.outcomes routine (r'.calls routine) s.store).1.filterMap CastOutcome.failed?,
      r.verdict routine f.1 (s.store.refused.contains f.1) = .failed f.1 f.2 := by
    intro f hf
    obtain ⟨outcome, hmem, hfailed⟩ := List.mem_filterMap.mp hf
    cases outcome with
    | failed callSite e =>
      cases hfailed
      exact ((verdict_of_mem_outcomes hmem).resolve_left (by rintro ⟨⟩)).symm
    | overridden o | unresolved callSite | skipped callSite => cases hfailed
  rw [CastReport.addAll_eq] at hf hf'
  have hcause := cause f (by simpa using hf)
  have hcause' := cause f' (by simpa using hf')
  rw [← hsite, hcause] at hcause'
  exact Prod.ext hsite (CastOutcome.failed.inj hcause').2

theorem routine_congr {r r' : CastResolver} (hconfig : r'.config = r.config) : r'.routine = r.routine := by
  obtain ⟨program, dataflow, model, config⟩ := r
  obtain ⟨program', dataflow', model', config'⟩ := r'
  obtain rfl : config' = config := hconfig
  funext f
  simp only [routine, checkPrototype, parameterRegister]

/-- Resolvers that do the same with each call, and see the same calls in some order, run alike. -/
theorem run_congr (r r' : CastResolver) (hconfig : r'.config = r.config)
    (hnamed : r'.program.functionsNamed = r.program.functionsNamed)
    (hvisit : r'.visit = r.visit) (hcalls : ∀ routine, (r'.calls routine).Perm (r.calls routine))
    (s : CastState) :
    (r'.run .never s).value.1 = (r.run .never s).value.1 ∧
      (r'.run .never s).value.2.store = (r.run .never s).value.2.store := by
  have hroutine := routine_congr hconfig
  rcases hfound : r.program.functionsNamed r.config.castEntryName with _ | ⟨f, _ | ⟨g, rest⟩⟩
  · simp only [run, hnamed, hconfig, hfound, and_self]
  · cases hresult : (r.routine f).value with
    | error e => simp only [run, hnamed, hconfig, hfound, hroutine, Noted.value_bind, hresult, and_self]
    | ok routine =>
      have hfound' : r'.program.functionsNamed r'.config.castEntryName = [f] := by
        rw [hnamed, hconfig, hfound]
      have hresult' : (r'.routine f).value = .ok routine := by rw [hroutine, hresult]
      obtain ⟨hreport, hstore⟩ := visitAll_reordered hvisit (hcalls routine) f.entry s
      rw [run_of_routine hfound hresult, run_of_routine hfound' hresult']
      exact ⟨congrArg Except.ok hreport, hstore⟩
  · simp only [run, hnamed, hconfig, hfound, and_self]

/-- **A pass does not depend on the order of the references**, if it is not cancelled. -/
theorem run_reordered {program : Program} {references : List Reference}
    (hperm : program.references.Perm references) (sections : List Section) (dataflow : Dataflow)
    (model : ClassModel) (config : AnalysisConfig) (s : CastState) :
    let result := (run ⟨program, dataflow, model, config⟩ .never s).value
    let result' := (run ⟨program.arranged references sections, dataflow, model, config⟩ .never s).value
    result'.1 = result.1 ∧ result'.2.store = result.2.store := by
  refine run_congr ⟨program, dataflow, model, config⟩
    ⟨program.arranged references sections, dataflow, model, config⟩ rfl rfl rfl
    (fun routine => ?_) s
  refine (calls_perm _ routine).trans (.trans ?_ (calls_perm _ routine).symm)
  exact (hperm.symm.filter _).filter _

end CastResolver

end ClassRecovery
