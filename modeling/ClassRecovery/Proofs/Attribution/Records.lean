/-
  What is recorded for the functions that attributing a class reports.

  A class is reported with its matched candidates, and for each of them the functions that it calls for its bases
  are recorded, and the candidate itself if the settings say so.  For a function there is one record, so of
  several calls that come to one function the last one counts (`Attributor.attributeClass_recorded`).  An
  earlier one is lost: two bases may share their constructor
  (`Attributor.attributeClass_shared_constructor`).
-/
import ClassRecovery.Proofs.Attribution.Commits
import ClassRecovery.Proofs.Session.Transparency

namespace ClassRecovery

namespace Attributor

/-! ## Matched candidates -/

section
variable {a : Attributor} {id : ClassId} {table : BaseOffsetTable}

/-- No two matched candidates of a list show the same function. -/
theorem nodup_accepted {candidates : List Candidate} (hnodup : (candidates.map (·.function)).Nodup) :
    ((a.accepted id table candidates).map (·.function)).Nodup := by
  have hmatched {c : Candidate} {found : Attribution}
      (h : found ∈ (a.matchCandidate id table c).toOption) : found.function = c.function :=
    (owner_of_matchCandidate (toOption_eq_some_iff.mp h)).2
  refine List.pairwise_map.mpr (List.pairwise_filterMap.mpr ?_)
  refine (List.pairwise_map.mp hnodup).imp fun hne found hfound found' hfound' => ?_
  rw [hmatched hfound, hmatched hfound']
  exact hne

end

theorem nodup_found (a : Attributor) (policy : CancelPolicy) (id : ClassId) (s : AnalysisState) :
    ((a.found policy id s).map (·.function)).Nodup := by
  have hnodup : ((a.discovered s.model id).map (·.function)).Nodup :=
    List.pairwise_map.mpr ((a.ascending_discovered s.model id).imp UInt64.ne_of_lt)
  have hvisited : (a.visited policy id s).Sublist (a.discovered s.model id) :=
    (a.reached_isPrefix ..).sublist
  unfold found
  split
  · exact nodup_accepted (((List.filter_sublist.trans hvisited).map (·.function)).nodup hnodup)
  · simp

/-! ## Records -/

section
variable (a : Attributor) (attributed : OrderedMap Address AttributedFunction)
variable {before after : List Attribution} {found : Attribution}

/-- What is recorded last for a function stays. -/
theorem commitAll_last {all : List Attribution} {front rest : List AttributedFunction}
    {f : AttributedFunction} (hsplit : all.flatMap a.records = front ++ f :: rest)
    (hlast : ∀ g ∈ rest, g.function ≠ f.function) :
    (a.commitAll attributed all).get? f.function = some f := by
  rw [commitAll_eq, hsplit]
  exact OrderedMap.get?_foldl_insert_last (·.function) id attributed front f hlast

/-- What is recorded for a function is shown by one of the attributions. -/
theorem exists_commitAll {all : List Attribution} {f : AttributedFunction}
    (h : f ∈ all.flatMap a.records) :
    ∃ found ∈ all, ∃ g ∈ a.records found, g.function = f.function ∧
      (a.commitAll attributed all).get? f.function = some g := by
  obtain ⟨g, hg, hfunction, hget⟩ := OrderedMap.exists_get?_foldl_insert
    AttributedFunction.function id attributed ⟨f, h, rfl⟩
  obtain ⟨found, hfound, hshown⟩ := List.mem_flatMap.mp hg
  refine ⟨found, hfound, g, hshown, hfunction, ?_⟩
  rw [commitAll_eq]
  exact hget

/-- The record of a call stays unless a later one is for the same function. -/
theorem commitAll_call {earlier later : List AttributedCall} {call : AttributedCall}
    (hcalls : found.calls = earlier ++ call :: later)
    (hlater : ∀ c ∈ later, c.function ≠ call.function)
    (hown : a.config.commitCandidate = true → found.function ≠ call.function)
    (hafter : ∀ f ∈ after.flatMap a.records, f.function ≠ call.function) :
    (a.commitAll attributed (before ++ found :: after)).get? call.function =
      some ⟨call.function, call.base, found.role⟩ := by
  let record (c : AttributedCall) : AttributedFunction := ⟨c.function, c.base, found.role⟩
  let own : List AttributedFunction :=
    if a.config.commitCandidate then [⟨found.function, found.owner, found.role⟩] else []
  have hsplit : (before ++ found :: after).flatMap a.records =
      (before.flatMap a.records ++ earlier.map record) ++
        record call :: (later.map record ++ (own ++ after.flatMap a.records)) := by
    simp [records, hcalls, record, own]
  refine a.commitAll_last attributed hsplit fun g hg => ?_
  rcases List.mem_append.mp hg with hg | hg
  · obtain ⟨c, hc, rfl⟩ := List.mem_map.mp hg
    exact hlater c hc
  rcases List.mem_append.mp hg with hg | hg
  · by_cases hcommit : a.config.commitCandidate = true
    · obtain rfl : g = ⟨found.function, found.owner, found.role⟩ := by simpa [own, hcommit] using hg
      exact hown hcommit
    · simp [own, hcommit] at hg
  · exact hafter g hg

/-- The record of a candidate itself stays unless a later one is for it. -/
theorem commitAll_own (hcommit : a.config.commitCandidate = true)
    (hafter : ∀ f ∈ after.flatMap a.records, f.function ≠ found.function) :
    (a.commitAll attributed (before ++ found :: after)).get? found.function =
      some ⟨found.function, found.owner, found.role⟩ := by
  let record (c : AttributedCall) : AttributedFunction := ⟨c.function, c.base, found.role⟩
  have hsplit : (before ++ found :: after).flatMap a.records =
      (before.flatMap a.records ++ found.calls.map record) ++
        ⟨found.function, found.owner, found.role⟩ :: after.flatMap a.records := by
    simp [records, hcommit, record]
  exact a.commitAll_last attributed hsplit hafter

end

/-- **The store agrees with the report**, up to what is recorded twice.  For a function that is reported there is a
    record, and it tells what the last call or candidate with that function does.  So the record of a call names
    the base of the call and the role of the caller, unless a later call or candidate comes to the same
    function; and the record of a candidate names the class and the role, unless a later candidate calls it. -/
theorem attributeClass_recorded (a : Attributor) (policy : CancelPolicy) (id : ClassId)
    (s : AnalysisState) {outcome : ClassAttribution}
    (h : (a.attributeClass policy id s).value.1 = .ok outcome) :
    let recorded := (a.attributeClass policy id s).value.2.model.attributed?
    (∀ before found after, outcome.attributions = before ++ found :: after →
      (∀ earlier call later, found.calls = earlier ++ call :: later →
        (∀ c ∈ later, c.function ≠ call.function) →
        (a.config.commitCandidate = true → found.function ≠ call.function) →
        (∀ f ∈ after.flatMap a.records, f.function ≠ call.function) →
        recorded call.function = some ⟨call.function, call.base, found.role⟩) ∧
      (a.config.commitCandidate = true →
        (∀ call ∈ after.flatMap (·.calls), call.function ≠ found.function) →
        recorded found.function = some ⟨found.function, id, found.role⟩)) ∧
    ∀ found ∈ outcome.attributions, ∀ f ∈ a.records found,
      ∃ found' ∈ outcome.attributions, ∃ f' ∈ a.records found',
        f'.function = f.function ∧ recorded f.function = some f' := by
  intro recorded
  obtain ⟨hwrites, hok, -⟩ := a.attributeClass_writes policy id s
  obtain ⟨hattributions, -⟩ := hok outcome h
  have howner := hwrites.owner
  have hnodup := a.nodup_found policy id s
  rw [← hattributions] at howner hnodup
  have hrecorded : recorded = (a.commitAll s.model.attributed outcome.attributions).get? := by
    funext function
    rw [hattributions, ← hwrites.attributed]
    rfl
  refine ⟨fun before found after hsplit => ⟨?_, fun hcommit hlater => ?_⟩, fun found hfound f hf => ?_⟩
  · intro earlier call later hcalls hlater hown hafter
    rw [hrecorded, hsplit]
    exact a.commitAll_call _ hcalls hlater hown hafter
  · rw [hrecorded, hsplit, ← howner found (hsplit ▸ List.mem_append_right _ List.mem_cons_self)]
    refine a.commitAll_own _ hcommit fun f hf => ?_
    obtain ⟨found', hfound', hshown⟩ := List.mem_flatMap.mp hf
    rcases List.mem_append.mp hshown with hshown | hown
    · obtain ⟨call, hcall, rfl⟩ := List.mem_map.mp hshown
      exact hlater call (List.mem_flatMap.mpr ⟨found', hfound', hcall⟩)
    · -- no two candidates are the same function
      obtain rfl : f = ⟨found'.function, found'.owner, found'.role⟩ := by simpa [hcommit] using hown
      rw [hsplit, List.map_append, List.map_cons] at hnodup
      have hnot := (List.nodup_cons.mp (List.nodup_append.mp hnodup).2.1).1
      exact fun heq => hnot (List.mem_map.mpr ⟨found', hfound', heq⟩)
  · rw [hrecorded]
    exact a.exists_commitAll _ (List.mem_flatMap.mpr ⟨found, hfound, hf⟩)

/-- A class with two bases that have one constructor, the code of both. -/
def sharedConstructor : ProgramSnapshot :=
  { Session.twoBases with
    references := [⟨0x3010, 0x6000, .data⟩]
    bodies :=
      [{ entry := 0x3000, thisParameter := some 1,
         calls := [⟨0x3020, some 0x1000, some { origin := some 1 }⟩,
           ⟨0x3030, some 0x1000, some { origin := some 1, offset := 16 }⟩] }] }

/-- That class being attributed, in the model of the classes. -/
def sharedAttributor : Attributor := ⟨.ofSnapshot sharedConstructor, {}, 8⟩

def sharedStart : AnalysisState := ⟨.ofClasses .itanium 8 sharedConstructor.classes, {}⟩

/-- What is reported for it. -/
def sharedOutcome : ClassAttribution where
  owner := 0xc0
  state := .attributed
  attributions :=
    [⟨0xc0, 0x3000, .constructor, [⟨0x3020, 0xa0, 0, 0x1000⟩, ⟨0x3030, 0xb0, 16, 0x1000⟩]⟩]

theorem outcome_shared :
    (sharedAttributor.attributeClass .never 0xc0 sharedStart).value.1 = .ok sharedOutcome := by
  refine toOption_eq_some_iff.mp ?_
  decide +kernel

/-- The record of the second call stays, and that of the candidate itself. -/
theorem attributeClass_recorded_second :
    let r := (sharedAttributor.attributeClass .never 0xc0 sharedStart).value
    r.1 = .ok sharedOutcome ∧
      r.2.model.attributed? 0x1000 = some ⟨0x1000, 0xb0, .constructor⟩ ∧
      r.2.model.attributed? 0x3000 = some ⟨0x3000, 0xc0, .constructor⟩ := by
  obtain ⟨hstored, -⟩ := sharedAttributor.attributeClass_recorded .never 0xc0 sharedStart outcome_shared
  obtain ⟨hcalls, hown⟩ := hstored [] _ [] rfl
  exact ⟨outcome_shared,
    hcalls [_] ⟨0x3030, 0xb0, 16, 0x1000⟩ [] rfl (by simp) (by simp) (by simp), hown rfl (by simp)⟩

/-- **A reported call may be lost**: where two bases share their constructor, its record names the second of
    them, and there is none that names the first. -/
theorem attributeClass_shared_constructor :
    let r := (sharedAttributor.attributeClass .never 0xc0 sharedStart).value
    ∃ outcome found call, r.1 = .ok outcome ∧ found ∈ outcome.attributions ∧ call ∈ found.calls ∧
      r.2.model.attributed? call.function ≠ some ⟨call.function, call.base, found.role⟩ := by
  refine ⟨sharedOutcome, _, ⟨0x3020, 0xa0, 0, 0x1000⟩, outcome_shared, List.mem_cons_self,
    List.mem_cons_self, ?_⟩
  decide +kernel

end Attributor

end ClassRecovery
