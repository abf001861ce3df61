/-
  The candidates of a class are the functions that refer to its table.

  A chain of thunks that ends visits no address twice, as from every address there is one way on only.  So
  it has no more thunks than there are functions, and following it that far finds its end
  (`Program.followThunks_eq_some_iff`).  A chain that runs in a circle or comes to an address without a function
  has no end, and then none is found.

  * `Program.candidates_exact`: the candidates are, by address, the functions at the ends of the chains from
    the functions that refer to the table, without those that have a signature from the user.  Matching one
    never fails because it is a thunk, or no function.
-/
import ClassRecovery.Proofs.Attribution.Thunks
import ClassRecovery.Proofs.FunctionBodies
import ClassRecovery.Proofs.Reordering.Sessions

namespace ClassRecovery

/-! ## The ends of chains -/

namespace Program

/-- The chain of thunks from a function ends in another. -/
def EndsIn (p : Program) (f g : FunctionInfo) : Prop :=
  g.isThunk = false ∧ ∃ n, p.LeadsTo n f.entry g.entry

section Chains

variable {p : Program} {address last : Address} {f g : FunctionInfo}

/-- There is one way on from a function: where it goes on to, if it is a thunk. -/
theorem leadsTo_iff_of_found (hf : p.functionAt? address = some f) {n : Nat} :
    p.LeadsTo n address last ↔
      n = 0 ∧ address = last ∨
        ∃ k next, n = k + 1 ∧ f.thunkTarget = some next ∧ p.LeadsTo k next last := by
  constructor
  · rintro (_ | ⟨hfound, hthunk, hrest⟩)
    · exact .inl ⟨rfl, rfl⟩
    · obtain rfl := Option.some.inj (hf.symm.trans hfound)
      exact .inr ⟨_, _, rfl, hthunk, hrest⟩
  · rintro (⟨rfl, rfl⟩ | ⟨k, next, rfl, hthunk, hrest⟩)
    · exact .here address
    · exact .thunk hf hthunk hrest

/-- A chain to a function begins with one. -/
theorem LeadsTo.isSome_functionAt? {n : Nat} (h : p.LeadsTo n address last)
    (hlast : (p.functionAt? last).isSome = true) : (p.functionAt? address).isSome = true := by
  cases h with
  | here => exact hlast
  | thunk hfound _ _ => rw [hfound, Option.isSome_some]

/-- All chains from an address to where there is no thunk have as many thunks. -/
theorem LeadsTo.length_unique {n n' : Nat} (h : p.LeadsTo n address last)
    (h' : p.LeadsTo n' address last) (hg : p.functionAt? last = some g)
    (hlast : g.thunkTarget = none) : n = n' := by
  induction h generalizing n' with
  | here =>
    rcases (leadsTo_iff_of_found hg).mp h' with ⟨rfl, -⟩ | ⟨_, _, -, hthunk, -⟩
    · rfl
    · cases hlast.symm.trans hthunk
  | thunk hfound hthunk _ ih =>
    rcases (leadsTo_iff_of_found hfound).mp h' with ⟨-, rfl⟩ | ⟨k, next, rfl, hthunk', hrest'⟩
    · obtain rfl := Option.some.inj (hfound.symm.trans hg)
      cases hlast.symm.trans hthunk
    · obtain rfl := Option.some.inj (hthunk.symm.trans hthunk')
      rw [ih hrest' hg]

/-- The thunks of a chain that ends are different functions. -/
theorem LeadsTo.exists_thunks {n : Nat} (h : p.LeadsTo n address last)
    (hg : p.functionAt? last = some g) (hlast : g.thunkTarget = none) :
    ∃ thunks : List Address, thunks.length = n ∧ thunks.Nodup ∧
      ∀ a ∈ thunks, (p.functionAt? a).isSome = true ∧ ∃ k ≤ n, p.LeadsTo k a last := by
  induction h with
  | here => exact ⟨[], rfl, .nil, by simp⟩
  | @thunk n address next last f hfound hthunk hrest ih =>
    obtain ⟨thunks, hlength, hnodup, hthunks⟩ := ih hg
    have hwhole : p.LeadsTo (n + 1) address last := .thunk hfound hthunk hrest
    refine ⟨address :: thunks, by simp [hlength], List.nodup_cons.mpr ⟨fun hmem => ?_, hnodup⟩, ?_⟩
    · -- the chain would come back to where it began, with fewer thunks to go
      obtain ⟨-, k, hk, hleads⟩ := hthunks address hmem
      have := hleads.length_unique hwhole hg hlast
      omega
    · intro a ha
      rcases List.mem_cons.mp ha with rfl | ha
      · exact ⟨by simp [hfound], n + 1, Nat.le_refl _, hwhole⟩
      · obtain ⟨hknown, k, hk, hleads⟩ := hthunks a ha
        exact ⟨hknown, k, by omega, hleads⟩

/-- A chain that ends has no more thunks than there are functions. -/
theorem LeadsTo.le_size {n : Nat} (h : p.LeadsTo n address last)
    (hg : p.functionAt? last = some g) (hlast : g.thunkTarget = none) : n ≤ p.functions.size := by
  obtain ⟨thunks, rfl, hnodup, hthunks⟩ := h.exists_thunks hg hlast
  exact OrderedMap.length_le_size hnodup fun a ha => (hthunks a ha).1

end Chains

section Followed

variable {s : ProgramSnapshot} {f g : FunctionInfo}

/-- As much fuel as there are functions on a chain suffices to find its end. -/
theorem followThunksWithin_eq_some_iff (fuel : Nat)
    (hf : (ofSnapshot s).functionAt? f.entry = some f) :
    (ofSnapshot s).followThunksWithin fuel f = some g ↔
      (ofSnapshot s).functionAt? g.entry = some g ∧ g.thunkTarget = none ∧
        ∃ n < fuel, (ofSnapshot s).LeadsTo n f.entry g.entry := by
  induction fuel generalizing f with
  | zero => simp [followThunksWithin]
  | succ fuel ih =>
    simp only [leadsTo_iff_of_found hf, followThunksWithin]
    cases hthunk : f.thunkTarget with
    | none =>
      constructor
      · intro h
        obtain rfl := Option.some.inj h
        exact ⟨hf, hthunk, 0, by omega, .inl ⟨rfl, rfl⟩⟩
      · rintro ⟨hg, -, n, -, ⟨-, hsame⟩ | ⟨_, _, -, hnext, -⟩⟩
        · exact hf.symm.trans (hsame ▸ hg)
        · cases hnext
    | some target =>
      simp only [Option.bind_eq_some_iff]
      constructor
      · rintro ⟨next, hnext, hfollow⟩
        obtain rfl := entry_of_functionAt? hnext
        obtain ⟨hg, hlast, n, hn, hleads⟩ := (ih hnext).mp hfollow
        exact ⟨hg, hlast, n + 1, by omega, .inr ⟨n, next.entry, rfl, rfl, hleads⟩⟩
      · rintro ⟨hg, hlast, n, hn, ⟨-, hsame⟩ | ⟨k, _, rfl, hnext, hleads⟩⟩
        · obtain rfl := Option.some.inj (hf.symm.trans (hsame ▸ hg))
          cases hthunk.symm.trans hlast
        · obtain rfl := Option.some.inj hnext
          obtain ⟨next, hknown⟩ := Option.isSome_iff_exists.mp (hleads.isSome_functionAt? (by simp [hg]))
          obtain rfl := entry_of_functionAt? hknown
          exact ⟨next, hknown, (ih hknown).mpr ⟨hg, hlast, k, by omega, hleads⟩⟩

/-- **Following thunks finds the end of the chain**, if the chain has one. -/
theorem followThunks_eq_some_iff (hf : (ofSnapshot s).functionAt? f.entry = some f) :
    (ofSnapshot s).followThunks f = some g ↔
      (ofSnapshot s).functionAt? g.entry = some g ∧ (ofSnapshot s).EndsIn f g := by
  rw [followThunks, followThunksWithin_eq_some_iff _ hf, EndsIn]
  simp only [FunctionInfo.isThunk, Option.isSome_eq_false_iff, Option.isNone_iff_eq_none]
  refine and_congr_right fun hg => and_congr_right fun hlast => ?_
  constructor
  · rintro ⟨n, -, hleads⟩
    exact ⟨n, hleads⟩
  · rintro ⟨n, hleads⟩
    exact ⟨n, Nat.lt_succ_of_le (hleads.le_size hg hlast), hleads⟩

end Followed

end Program

/-! ## The functions that refer to a table -/

/-- The addresses of the pointers are those in the storage at multiples of the size of pointers. -/
theorem Vtable.mem_pointerAddresses_iff {v : Vtable} {pointerSize : Word} (hpos : 0 < pointerSize.toNat)
    {address : Address} :
    address ∈ v.pointerAddresses pointerSize ↔
      address < v.storageStop pointerSize ∧
        ∃ k, address.toNat = (v.storageStart pointerSize).toNat + k * pointerSize.toNat := by
  have hstop := (v.storageStop pointerSize).toNat_lt
  unfold pointerAddresses
  simp only [List.mem_map, List.mem_range, Nat.max_eq_left (show 1 ≤ pointerSize.toNat from hpos),
    UInt64.lt_iff_toNat_lt]
  generalize (v.storageStart pointerSize).toNat = start at *
  generalize (v.storageStop pointerSize).toNat = stop at *
  generalize pointerSize.toNat = step at *
  -- the `k`-th pointer begins before the end
  have hbefore (k : Nat) : k < (stop - start + step - 1) / step ↔ start + k * step < stop := by
    rw [Nat.lt_div_iff_mul_lt hpos]
    omega
  constructor
  · rintro ⟨k, hk, rfl⟩
    have hlt := (hbefore k).mp hk
    rw [UInt64.toNat_ofNat_of_lt' (Nat.lt_trans hlt hstop)]
    exact ⟨hlt, k, rfl⟩
  · rintro ⟨hlt, k, hk⟩
    refine ⟨k, (hbefore k).mpr (hk ▸ hlt), ?_⟩
    rw [← hk, UInt64.ofNat_toNat]

namespace Program

/-- A function refers to a table: the chain of thunks from a function in which a reference to one of the
    pointers of the table begins ends in it. -/
def RefersToTable (p : Program) (v : Vtable) (pointerSize : Word) (g : FunctionInfo) : Prop :=
  ∃ r ∈ p.references, r.kind.isData = true ∧
    r.target < v.storageStop pointerSize ∧
    (∃ k, r.target.toNat = (v.storageStart pointerSize).toNat + k * pointerSize.toNat) ∧
    ∃ f, p.functionContaining? r.source = some f ∧ p.EndsIn f g

section Candidates

variable {s : ProgramSnapshot} {g : FunctionInfo} {pointerSize : Word}

theorem mem_functionsReferringTo_iff {address : Address} :
    g ∈ (ofSnapshot s).functionsReferringTo address ↔
      (ofSnapshot s).functionAt? g.entry = some g ∧
        ∃ r ∈ s.references, r.kind.isData = true ∧ r.target = address ∧
          ∃ f, (ofSnapshot s).functionContaining? r.source = some f ∧ (ofSnapshot s).EndsIn f g := by
  simp only [functionsReferringTo, referencesTo, references_ofSnapshot, List.mem_filterMap,
    List.mem_filter, beq_iff_eq, Option.bind_eq_some_iff]
  constructor
  · rintro ⟨r, ⟨⟨hr, htarget⟩, hdata⟩, f, hf, hfollow⟩
    obtain ⟨hg, hends⟩ :=
      (followThunks_eq_some_iff (functionContaining?_eq_some_iff.mp hf).1.known).mp hfollow
    exact ⟨hg, r, hr, hdata, htarget, f, hf, hends⟩
  · rintro ⟨hg, r, hr, hdata, htarget, f, hf, hends⟩
    exact ⟨r, ⟨⟨hr, htarget⟩, hdata⟩, f, hf,
      (followThunks_eq_some_iff (functionContaining?_eq_some_iff.mp hf).1.known).mpr ⟨hg, hends⟩⟩

/-- The candidates are the functions that refer to the pointers of the table. -/
theorem mem_candidates_iff (p : Program) {c : ClassType} {v : Vtable} (hv : c.validVtable? = some v)
    {address : Address} :
    address ∈ (p.candidates pointerSize c).map (·.function) ↔
      ∃ g, g.entry = address ∧ g.isUserDefined = false ∧
        ∃ a ∈ v.pointerAddresses pointerSize, g ∈ p.functionsReferringTo a := by
  simp only [candidates, hv]
  generalize hfound : ((v.pointerAddresses pointerSize).flatMap p.functionsReferringTo).filter
    (fun f => !f.isUserDefined) = found
  let entry (f : FunctionInfo) : Address × Candidate := (f.entry, ⟨f.entry, v.roleOf f.entry⟩)
  have hkeys : (OrderedMap.ofList (found.map entry)).values.map (·.function) =
      (OrderedMap.ofList (found.map entry)).keys := by
    rw [OrderedMap.values, List.map_map]
    exact List.map_congr_left (OrderedMap.forall_mem_ofList (by simp [entry]))
  have hmem (g : FunctionInfo) : g ∈ found ↔ g.isUserDefined = false ∧
      ∃ a ∈ v.pointerAddresses pointerSize, g ∈ p.functionsReferringTo a := by
    rw [← hfound, List.mem_filter, List.mem_flatMap, and_comm, Bool.not_eq_true']
  rw [hkeys, OrderedMap.mem_keys_ofList_iff, List.map_map, List.mem_map]
  simp only [hmem]
  exact exists_congr fun g => and_comm

/-- A candidate is a function at the end of a chain of thunks. -/
theorem exists_of_mem_candidates {c : ClassType} {candidate : Candidate}
    (h : candidate ∈ (ofSnapshot s).candidates pointerSize c) :
    ∃ g, (ofSnapshot s).functionAt? candidate.function = some g ∧ g.isThunk = false := by
  cases hv : c.validVtable? with
  | none =>
    rw [candidates, hv] at h
    cases h
  | some v =>
    obtain ⟨g, hentry, -, a, -, hg⟩ := (mem_candidates_iff _ hv).mp (List.mem_map_of_mem h)
    obtain ⟨hknown, r, -, -, -, f, -, hlast, -⟩ := mem_functionsReferringTo_iff.mp hg
    exact ⟨g, hentry ▸ hknown, hlast⟩

/-- The candidates of the program of a snapshot do not depend on the order of the references. -/
theorem candidates_of_perm {references : List Reference} (h : s.references.Perm references) :
    (ofSnapshot { s with references }).candidates = (ofSnapshot s).candidates := by
  have hreordered : s.Reordered { s with references } :=
    ⟨rfl, .inl rfl, h, .inl rfl, .inl rfl, .inl rfl, rfl, .inl rfl, rfl, rfl⟩
  funext pointerSize
  rw [ofSnapshot_reordered hreordered]
  exact (ofSnapshot s).candidates_reordered (references_ofSnapshot s ▸ h) _ pointerSize

end Candidates

end Program

/-! ## Rejections of candidates -/

/-- A rejection for what the body of a candidate does, and not for what the candidate is. -/
def Rejection.IsForBody : Rejection → Prop
  | .thunk _ | .host _ => False
  | _ => True

theorem isForBody_of_matchCall {table : BaseOffsetTable} {this : Variable}
    {resolve : Address → Address} {seen : List ClassId} {call : CallSite} {e : Rejection}
    (h : matchCall table this resolve seen call = .error e) : e.IsForBody := by
  unfold matchCall at h
  split at h
  · cases h
    trivial
  · cases h
    trivial
  · split at h
    · cases h
      trivial
    · simp only at h
      split at h
      · cases h
        trivial
      · split at h
        · cases h
          trivial
        · cases h

theorem isForBody_of_matchCalls {table : BaseOffsetTable} {this : Variable}
    {resolve : Address → Address} {calls : List CallSite} {seen : List ClassId} {e : Rejection}
    (h : matchCalls table this resolve seen calls = .error e) : e.IsForBody := by
  induction calls generalizing seen with
  | nil => cases h
  | cons call rest ih =>
    rcases bind_eq_error_iff.mp h with hfirst | ⟨first, -, hrest⟩
    · exact isForBody_of_matchCall hfirst
    · rcases bind_eq_error_iff.mp hrest with hmore | ⟨more, -, hdone⟩
      · exact ih hmore
      · cases hdone

theorem isForBody_of_checkOrder {calls : List AttributedCall} {order : List ClassId} {e : Rejection}
    (h : checkOrder calls order = .error e) : e.IsForBody := by
  induction calls generalizing order with
  | nil => cases h
  | cons call calls ih =>
    cases order with
    | nil => cases h
    | cons expected order =>
      unfold checkOrder at h
      split at h
      · exact ih h
      · cases h
        trivial

namespace Attributor

variable {a : Attributor} {candidate : Candidate}

theorem isForBody_of_matchBody {id : ClassId} {table : BaseOffsetTable} {body : FunctionBody}
    {e : Rejection} (h : a.matchBody id table candidate body = .error e) : e.IsForBody := by
  unfold matchBody at h
  split at h
  · cases h
    trivial
  · simp only at h
    split at h
    · cases h
      trivial
    · rcases bind_eq_error_iff.mp h with hcalls | ⟨calls, -, hrest⟩
      · exact isForBody_of_matchCalls hcalls
      · split at hrest
        · rcases bind_eq_error_iff.mp hrest with horder | ⟨_, -, hdone⟩
          · exact isForBody_of_checkOrder horder
          · cases hdone
        · cases hrest

/-- The end of a chain of thunks is rejected neither as a thunk nor because it is no function. -/
theorem matchCandidate_ne_error {g : FunctionInfo}
    (hg : a.program.functionAt? candidate.function = some g) (hlast : g.isThunk = false) (id : ClassId)
    (table : BaseOffsetTable) (address : Address) :
    a.matchCandidate id table candidate ≠ .error (.thunk address) ∧
      a.matchCandidate id table candidate ≠ .error (.host (.noFunction address)) := by
  simp only [matchCandidate, hg, hlast, Bool.false_eq_true, if_false]
  cases hbody : a.program.body candidate.function with
  | error reason =>
    refine ⟨fun heq => ?_, fun heq => ?_⟩
    · cases heq
    · cases heq
      -- what stands in the way of decompiling is never that there is no function
      unfold Program.body at hbody
      split at hbody
      · cases hbody
      · split at hbody <;> cases hbody
  | ok body =>
    exact ⟨fun heq => isForBody_of_matchBody heq, fun heq => isForBody_of_matchBody heq⟩

end Attributor

/-! ## Candidates -/

namespace Program

/-- **Which functions are candidates of a class.**  For a class with a table they are, by address and each of
    them once, the functions that refer to this table and have no signature from the user.  The order of
    the references does not matter, and no candidate is rejected as a thunk, or because it is no function. -/
theorem candidates_exact (s : ProgramSnapshot) {pointerSize : Word}
    (hsize : pointerSize = 4 ∨ pointerSize = 8) {c : ClassType} {v : Vtable}
    (hv : c.validVtable? = some v) :
    let p := ofSnapshot s
    let found := p.candidates pointerSize c
    found.Pairwise (fun candidate later => candidate.function < later.function) ∧
      (∀ address, address ∈ found.map (·.function) ↔
        ∃ g, p.functionAt? address = some g ∧ g.isUserDefined = false ∧
          p.RefersToTable v pointerSize g) ∧
      (∀ references, s.references.Perm references →
        (ofSnapshot { s with references }).candidates pointerSize c = found) ∧
      ∀ a : Attributor, a.program = p → ∀ id table, ∀ candidate ∈ found, ∀ address,
        a.matchCandidate id table candidate ≠ .error (.thunk address) ∧
          a.matchCandidate id table candidate ≠ .error (.host (.noFunction address)) := by
  intro p found
  have hpos : 0 < pointerSize.toNat := by rcases hsize with rfl | rfl <;> decide
  refine ⟨p.ascending_candidates pointerSize c, fun address => ?_, fun references hperm => ?_,
    fun a ha id table candidate hcandidate => ?_⟩
  · rw [mem_candidates_iff p hv]
    simp only [Vtable.mem_pointerAddresses_iff hpos, p, mem_functionsReferringTo_iff, RefersToTable,
      references_ofSnapshot]
    constructor
    · rintro ⟨g, rfl, huser, _, ⟨hstop, hk⟩, hg, r, hr, hdata, rfl, hfrom⟩
      exact ⟨g, hg, huser, r, hr, hdata, hstop, hk, hfrom⟩
    · rintro ⟨g, hg, huser, r, hr, hdata, hstop, hk, hfrom⟩
      obtain rfl := entry_of_functionAt? hg
      exact ⟨g, rfl, huser, r.target, ⟨hstop, hk⟩, hg, r, hr, hdata, rfl, hfrom⟩
  · rw [candidates_of_perm hperm]
  · obtain ⟨g, hg, hlast⟩ := exists_of_mem_candidates hcandidate
    exact a.matchCandidate_ne_error (ha ▸ hg) hlast id table

/-- A table at 0x2010 to which four functions refer: a thunk of a constructor, a thunk of itself, a function
    with a signature from the user, and one that refers to the second byte of a pointer. -/
def referredTable : ProgramSnapshot where
  functions := [{ entry := 0x1000, name := "A::A", size := 0x10 },
    { entry := 0x1100, name := "thunk", size := 0x10, thunkTarget := some 0x1000 },
    { entry := 0x1200, name := "circle", size := 0x10, thunkTarget := some 0x1200 },
    { entry := 0x1300, name := "known", size := 0x10, isUserDefined := true },
    { entry := 0x1400, name := "askew", size := 0x10 }]
  references := [⟨0x1104, 0x2010, .data⟩, ⟨0x1204, 0x2010, .data⟩, ⟨0x1304, 0x2008, .read⟩,
    ⟨0x1404, 0x2001, .write⟩]

/-- Only the constructor is a candidate. -/
theorem candidates_exact_thunk :
    let p := ofSnapshot referredTable
    let v := Vtable.ofTargets 0x2010 0x9000 8 [0x1500]
    let c : ClassType := { id := 1, name := "A", vtable := some v }
    (p.candidates 8 c).map (·.function) = [0x1000] ∧
      ∃ g, p.functionAt? 0x1000 = some g ∧ g.isUserDefined = false ∧ p.RefersToTable v 8 g := by
  intro p v c
  have hfound : (p.candidates 8 c).map (·.function) = [0x1000] := by decide +kernel
  refine ⟨hfound, ?_⟩
  exact ((candidates_exact referredTable (.inr rfl) (c := c) rfl).2.1 0x1000).mp (by simp [hfound, p])

end Program

end ClassRecovery
