/-
  Which candidates are matched.

  A candidate conforms to the table of its class if its first calls, or for a destructor its last but one,
  go to the direct bases with its own `this`, one call for each base, and in the order in which objects are built or
  destroyed if that is asked for (`Conforms`).  A candidate that is matched conforms, and where the direct bases are at
  different offsets every candidate that conforms is matched (`ClassModel.matchCandidate_conforms`).
-/
import ClassRecovery.Attribution.Matching
import ClassRecovery.Proofs.Attribution.Callees
import ClassRecovery.Proofs.Model.Operations
import ClassRecovery.Proofs.Offsets.DirectBases
import Mathlib.Data.List.Perm.Subperm

namespace ClassRecovery

/-! ## Signed words -/

theorem wordOfSigned?_eq_some_iff {i : Int64} {w : Word} :
    wordOfSigned? i = some w ↔ i.toInt = w.toNat := by
  unfold wordOfSigned?
  constructor
  · intro h
    split at h
    · next hle =>
      obtain rfl := Option.some.inj h
      have hnonneg : 0 ≤ i.toInt := by simpa using Int64.le_iff_toInt_le.mp hle
      rw [Int64.toNat_toUInt64_of_le hle, ← Int64.toNat_toInt, Int.toNat_of_nonneg hnonneg]
    · cases h
  · intro h
    have hle : 0 ≤ i := by
      rw [Int64.le_iff_toInt_le]
      simp [h]
    rw [if_pos hle, Option.some.injEq, ← UInt64.toNat_inj, Int64.toNat_toUInt64_of_le hle,
      ← Int64.toNat_toInt, h, Int.toNat_natCast]

theorem checkedAddSigned_eq_some_iff {a b c : Int64} :
    checkedAddSigned a b = some c ↔ c.toInt = a.toInt + b.toInt := by
  have hlow := c.le_toInt
  have hhigh := c.toInt_lt
  by_cases hrange : -0x8000000000000000 ≤ a.toInt + b.toInt ∧ a.toInt + b.toInt < 0x8000000000000000
  · have hsum : (a + b).toInt = a.toInt + b.toInt := by
      rw [Int64.toInt_add]
      exact Int.bmod_eq_of_le (by omega) (by omega)
    rw [checkedAddSigned, if_pos hrange, Option.some.injEq, ← Int64.toInt_inj, hsum, eq_comm]
  · rw [checkedAddSigned, if_neg hrange, iff_false_left nofun]
    omega

/-! ## Windows -/

/-- `window` stands where the calls for the bases have to be: first, or last but one. -/
def InWindow (role : FunctionRole) (calls window : List CallSite) : Prop :=
  match role with
  | .constructor => ∃ rest, calls = window ++ rest
  | .destructor => ∃ front last, calls = front ++ window ++ [last]

theorem window?_eq_some_iff {role : FunctionRole} {count : Nat} {calls window : List CallSite} :
    role.window? count calls = some window ↔ window.length = count ∧ InWindow role calls window := by
  cases role with
  | constructor =>
    simp only [FunctionRole.window?, InWindow]
    constructor
    · intro h
      split at h
      · next hle =>
        obtain rfl := Option.some.inj h
        exact ⟨List.length_take_of_le hle, calls.drop count, (List.take_append_drop _ _).symm⟩
      · cases h
    · rintro ⟨rfl, rest, rfl⟩
      simp
  | destructor =>
    simp only [FunctionRole.window?, InWindow]
    constructor
    · intro h
      split at h
      · next hle =>
        obtain rfl := Option.some.inj h
        have hfront := List.take_append_drop (calls.length - (count + 1)) calls
        have hrest := List.take_append_drop count (calls.drop (calls.length - (count + 1)))
        have hlast : ((calls.drop (calls.length - (count + 1))).drop count).length = 1 := by
          simp only [List.length_drop]
          omega
        obtain ⟨last, hlast⟩ := List.length_eq_one_iff.mp hlast
        refine ⟨by simp only [List.length_take, List.length_drop]; omega,
          calls.take (calls.length - (count + 1)), last, ?_⟩
        rw [← hlast, List.append_assoc, hrest, hfront]
      · cases h
    · rintro ⟨rfl, front, last, rfl⟩
      simp

/-! ## Matching calls -/

/-- The call passes the caller's `this` to the base `matched.1`, and `matched.2` tells so.  What is added to `this` is
    exactly the offset of the base, and a signed word; the function is where the callee's thunks lead. -/
structure CallMatches (p : Program) (this : Variable) (call : CallSite)
    (matched : BaseSubobject × AttributedCall) : Prop where
  direct : ∃ target, call.target = some target ∧ p.Settles [] target matched.2.function
  argument : ∃ argument, ∃ offset : Int64, call.thisArgument = some argument ∧ argument.origin = some this ∧
    offset.toInt = argument.offset.toInt + (argument.fieldOffset.getD 0).toInt ∧
    offset.toInt = matched.1.offset.toNat
  callSite : matched.2.callSite = call.address
  base : matched.2.base = matched.1.base
  offset : matched.2.offset = matched.1.offset

section
variable {p : Program} {table : BaseOffsetTable} {this : Variable}

theorem directAt?_mem {offset : Word} {s : BaseSubobject} (h : table.directAt? offset = some s) :
    s ∈ table.direct ∧ s.offset = offset :=
  ⟨List.mem_of_find?_eq_some h, by simpa using List.find?_some h⟩

/-- Where the direct bases are at different offsets, each is found at its own. -/
theorem directAt?_of_mem (hoffsets : (table.direct.map (·.offset)).Nodup) {s : BaseSubobject}
    (hs : s ∈ table.direct) : table.directAt? s.offset = some s := by
  cases h : table.directAt? s.offset with
  | none => simpa using List.find?_eq_none.mp h s hs
  | some s' =>
    obtain ⟨hs', hoffset⟩ := directAt?_mem h
    rw [List.inj_on_of_nodup_map hoffsets hs' hs hoffset]

theorem matchCall_ok_iff {seen : List ClassId} {call : CallSite} {r : AttributedCall} :
    matchCall table this p.resolveThunk seen call = .ok r ↔
      ∃ target argument offset s, call.target = some target ∧ call.thisArgument = some argument ∧
        argument.origin = some this ∧ argument.totalOffset? = some offset ∧
        (wordOfSigned? offset).bind table.directAt? = some s ∧ s.base ∉ seen ∧
        r = ⟨call.address, s.base, s.offset, p.resolveThunk target⟩ := by
  have hleast : wordOfSigned? leastSigned = none := by decide
  unfold matchCall
  cases call.target with
  | none => simp
  | some target =>
    cases call.thisArgument with
    | none => simp
    | some argument =>
      by_cases horigin : argument.origin = some this
      · cases htotal : argument.totalOffset? with
        | none => simp [horigin, htotal, hleast]
        | some offset =>
          cases hs : (wordOfSigned? offset).bind table.directAt? with
          | none => simp [horigin, htotal, hs]
          | some s =>
            by_cases hseen : s.base ∈ seen <;> simp [horigin, htotal, hs, hseen, eq_comm]
      · simp [horigin]

/-- Calls that are matched go to different direct bases. -/
theorem matchCalls_sound {seen : List ClassId} {window : List CallSite}
    {calls : List AttributedCall}
    (h : matchCalls table this p.resolveThunk seen window = .ok calls) :
    ∃ matched, List.Forall₂ (CallMatches p this) window matched ∧ calls = matched.map (·.2) ∧
      (∀ m ∈ matched, m.1 ∈ table.direct ∧ m.1.base ∉ seen) ∧
      (matched.map (·.1.base)).Nodup := by
  induction window generalizing seen calls with
  | nil =>
    cases h
    exact ⟨[], .nil, rfl, by simp, by simp⟩
  | cons call window ih =>
    simp only [matchCalls, bind_eq_ok_iff, matchCall_ok_iff] at h
    obtain ⟨_, ⟨target, argument, offset, s, htarget, hargument, horigin, htotal, hs, hseen, rfl⟩,
      more, hmore, h⟩ := h
    obtain ⟨w, hw, hs⟩ := Option.bind_eq_some_iff.mp hs
    obtain ⟨hmem, rfl⟩ := directAt?_mem hs
    obtain ⟨matched, hmatched, rfl, hdirect, hnodup⟩ := ih hmore
    cases h
    have hcall : CallMatches p this call (s, ⟨call.address, s.base, s.offset, p.resolveThunk target⟩) :=
      ⟨⟨target, htarget, p.settles_resolveThunk target⟩, ⟨argument, offset, hargument, horigin,
        checkedAddSigned_eq_some_iff.mp htotal, wordOfSigned?_eq_some_iff.mp hw⟩, rfl, rfl, rfl⟩
    refine ⟨(s, _) :: matched, .cons hcall hmatched, rfl, ?_, ?_⟩
    · simp only [List.mem_cons, forall_eq_or_imp]
      refine ⟨⟨hmem, hseen⟩, fun m hm => ⟨(hdirect m hm).1, fun hbase => ?_⟩⟩
      exact (hdirect m hm).2 (List.mem_cons_of_mem _ hbase)
    · refine List.nodup_cons.mpr ⟨fun hmem => ?_, hnodup⟩
      obtain ⟨m, hm, heq⟩ := List.mem_map.mp hmem
      exact (hdirect m hm).2 (heq ▸ List.mem_cons_self)

/-- Calls to different direct bases are matched, if the direct bases are at different offsets. -/
theorem matchCalls_complete (hoffsets : (table.direct.map (·.offset)).Nodup) {seen : List ClassId}
    {window : List CallSite} {matched : List (BaseSubobject × AttributedCall)}
    (hmatched : List.Forall₂ (CallMatches p this) window matched)
    (hdirect : ∀ m ∈ matched, m.1 ∈ table.direct ∧ m.1.base ∉ seen)
    (hnodup : (matched.map (·.1.base)).Nodup) :
    matchCalls table this p.resolveThunk seen window = .ok (matched.map (·.2)) := by
  induction hmatched generalizing seen with
  | nil => rfl
  | @cons call m window matched hcall _ ih =>
    obtain ⟨s, r⟩ := m
    simp only [List.mem_cons, forall_eq_or_imp] at hdirect
    obtain ⟨hnot, hnodup⟩ := List.nodup_cons.mp hnodup
    obtain ⟨⟨target, htarget, hsettles⟩, ⟨argument, offset, hargument, horigin, hsum, hoffset⟩,
      hsite, hbase, hoff⟩ := hcall
    have hfunction : p.resolveThunk target = r.function := Program.settles_iff.mp hsettles
    have htotal : argument.totalOffset? = some offset := checkedAddSigned_eq_some_iff.mpr hsum
    have hs : (wordOfSigned? offset).bind table.directAt? = some s := by
      rw [wordOfSigned?_eq_some_iff.mpr hoffset]
      exact directAt?_of_mem hoffsets hdirect.1.1
    have hfirst : matchCall table this p.resolveThunk seen call = .ok r :=
      matchCall_ok_iff.mpr ⟨target, argument, offset, s, htarget, hargument, horigin, htotal, hs,
        hdirect.1.2, by cases r; simp_all⟩
    have hunseen : ∀ m ∈ matched, m.1 ∈ table.direct ∧ m.1.base ∉ r.base :: seen := by
      intro m hm
      refine ⟨(hdirect.2 m hm).1, ?_⟩
      rw [List.mem_cons, not_or]
      exact ⟨fun heq => hnot (List.mem_map.mpr ⟨m, hm, heq.trans hbase⟩), (hdirect.2 m hm).2⟩
    have hrest := ih hunseen hnodup
    simp only [matchCalls, hfirst, bind, Except.bind, hrest]
    rfl

end

/-! ## The order of calls -/

/-- The direct bases in the order in which a function of the given role has to call for them: a constructor for those
    that are virtual, as the table lists them, and then for the others; a destructor the other way round. -/
def BaseOffsetTable.expectedBases (table : BaseOffsetTable) : FunctionRole → List BaseSubobject
  | .constructor => table.direct.filter (·.isVirtual) ++ table.direct.filter (!·.isVirtual)
  | .destructor =>
    (table.direct.filter (!·.isVirtual)).reverse ++ (table.direct.filter (·.isVirtual)).reverse

theorem callOrder_eq (table : BaseOffsetTable) (role : FunctionRole) :
    table.callOrder role = (table.expectedBases role).map (·.base) := by
  cases role with
  | constructor => rfl
  | destructor =>
    rw [BaseOffsetTable.callOrder, BaseOffsetTable.constructionOrder, ← List.map_reverse, List.reverse_append]
    rfl

theorem perm_expectedBases (table : BaseOffsetTable) (role : FunctionRole) :
    (table.expectedBases role).Perm table.direct := by
  have hparts := List.filter_append_perm (·.isVirtual) table.direct
  cases role with
  | constructor => exact hparts
  | destructor => exact (List.reverse_append ▸ List.reverse_perm _).trans hparts

theorem length_callOrder (table : BaseOffsetTable) (role : FunctionRole) :
    (table.callOrder role).length = table.direct.length := by
  rw [callOrder_eq, List.length_map, (perm_expectedBases table role).length_eq]

/-- Direct bases are told apart by their classes, if these are different. -/
theorem eq_of_map_base {direct front front' : List BaseSubobject} (hdistinct : (direct.map (·.base)).Nodup)
    (hfront : front ⊆ direct) (hfront' : front' ⊆ direct) (h : front.map (·.base) = front'.map (·.base)) :
    front = front' := by
  induction front generalizing front' with
  | nil => exact (List.map_eq_nil_iff.mp h.symm).symm
  | cons s front ih =>
    cases front' with
    | nil => cases h
    | cons s' front' =>
      obtain ⟨hs, hfront⟩ := List.cons_subset.mp hfront
      obtain ⟨hs', hfront'⟩ := List.cons_subset.mp hfront'
      obtain ⟨hbase, hrest⟩ := List.cons.inj h
      rw [List.inj_on_of_nodup_map hdistinct hs hs' hbase, ih hfront hfront' hrest]

theorem checkOrder_ok_iff {calls : List AttributedCall} {order : List ClassId}
    (hlength : calls.length = order.length) :
    checkOrder calls order = .ok () ↔ calls.map (·.base) = order := by
  induction calls generalizing order with
  | nil =>
    obtain rfl := List.length_eq_zero_iff.mp hlength.symm
    simp [checkOrder]
  | cons call calls ih =>
    cases order with
    | nil => simp at hlength
    | cons expected order =>
      simp only [List.length_cons, Nat.add_right_cancel_iff] at hlength
      simp only [checkOrder, List.map_cons, List.cons.injEq, ← ih hlength]
      split <;> simp [*]

/-! ## Candidates -/

theorem isThunk_eq_false_iff {f : FunctionInfo} : f.isThunk = false ↔ f.thunkTarget = none := by
  simp [FunctionInfo.isThunk]

namespace Attributor

variable {a : Attributor}

theorem matchBody_ok_iff {id : ClassId} {table : BaseOffsetTable} {candidate : Candidate}
    {body : FunctionBody} {found : Attribution} :
    a.matchBody id table candidate body = .ok found ↔
      ∃ this window calls, body.thisParameter = some this ∧
        candidate.role.window? table.direct.length body.calls = some window ∧
        matchCalls table this a.program.resolveThunk [] window = .ok calls ∧
        (a.config.enforceOrder = true →
          checkOrder calls (table.callOrder candidate.role) = .ok ()) ∧
        found = ⟨id, candidate.function, candidate.role, calls⟩ := by
  simp only [matchBody]
  cases body.thisParameter with
  | none => simp
  | some this =>
    cases candidate.role.window? table.direct.length body.calls with
    | none => simp
    | some window =>
      cases hcalls : matchCalls table this a.program.resolveThunk [] window with
      | error e => simp [hcalls, bind, Except.bind]
      | ok calls =>
        cases horder : checkOrder calls (table.callOrder candidate.role) <;>
          cases a.config.enforceOrder <;>
          simp [hcalls, horder, bind, Except.bind, pure, Except.pure, eq_comm]

theorem matchCandidate_ok_iff {id : ClassId} {table : BaseOffsetTable} {candidate : Candidate}
    {found : Attribution} :
    a.matchCandidate id table candidate = .ok found ↔
      ∃ f body, a.program.functionAt? candidate.function = some f ∧ f.isThunk = false ∧
        a.program.body candidate.function = .ok body ∧
        a.matchBody id table candidate body = .ok found := by
  unfold matchCandidate
  cases a.program.functionAt? candidate.function with
  | none => simp
  | some f =>
    by_cases hthunk : f.isThunk = true
    · simp [hthunk]
    · cases a.program.body candidate.function <;> simp [hthunk]

theorem owner_of_matchCandidate {id : ClassId} {table : BaseOffsetTable} {c : Candidate} {found : Attribution}
    (h : a.matchCandidate id table c = .ok found) : found.owner = id ∧ found.function = c.function := by
  obtain ⟨f, body, -, -, -, hmatch⟩ := matchCandidate_ok_iff.mp h
  obtain ⟨this, window, calls, -, -, -, -, rfl⟩ := matchBody_ok_iff.mp hmatch
  exact ⟨rfl, rfl⟩

/-- The candidate conforms to the table of its class `c`, as `found` tells: it is a function and no thunk, its body
    has a `this`, and where the calls for bases have to be it calls every direct base once, in order if the settings
    ask for it. -/
def Conforms (a : Attributor) (c : ClassType) (table : BaseOffsetTable) (candidate : Candidate)
    (found : Attribution) : Prop :=
  ∃ f body this window matched,
    a.program.functionAt? candidate.function = some f ∧ f.thunkTarget = none ∧
      a.program.body candidate.function = .ok body ∧ body.thisParameter = some this ∧
      window.length = c.bases.length ∧ InWindow candidate.role body.calls window ∧
      List.Forall₂ (CallMatches a.program this) window matched ∧
      (matched.map (·.1)).Perm table.direct ∧
      (a.config.enforceOrder = true → matched.map (·.1) = table.expectedBases candidate.role) ∧
      found = ⟨c.id, candidate.function, candidate.role, matched.map (·.2)⟩

end Attributor

theorem map_base_of_matches {p : Program} {this : Variable} {window : List CallSite}
    {matched : List (BaseSubobject × AttributedCall)}
    (h : List.Forall₂ (CallMatches p this) window matched) :
    (matched.map (·.2)).map (·.base) = matched.map (·.1.base) := by
  rw [List.map_map]
  refine List.map_congr_left fun m hm => ?_
  obtain ⟨call, -, hcall⟩ := forall₂_mem_right h hm
  exact hcall.base

namespace ClassModel

/-- The bases of a class that can be analysed are different. -/
theorem nodup_bases_of_checkAnalyzable {m : ClassModel} {id : ClassId} {c : ClassType}
    (hc : m.get? id = some c) (h : m.checkAnalyzable id = .ok ()) :
    (c.bases.map (·.base)).Nodup := by
  have hparents : c.bases.length ≤ m.knownParents id := by
    simp only [checkAnalyzable, hc] at h
    by_contra hlt
    rw [if_pos (Nat.lt_of_not_le hlt)] at h
    split at h
    · cases h
    · split at h <;> cases h
  simp only [knownParents, hc] at hparents
  have hnodup := nodup_eraseDups ((c.bases.map (·.base)).filter m.contains)
  have hsub : ((c.bases.map (·.base)).filter m.contains).eraseDups ⊆ c.bases.map (·.base) :=
    fun b hb => List.mem_of_mem_filter (List.mem_eraseDups.mp hb)
  have hperm := (List.subperm_of_subset hnodup hsub).perm_of_length_le (by simpa using hparents)
  exact hperm.nodup hnodup

/-- **A candidate is matched only if it conforms**, and if the direct bases are at different offsets, whenever
    it conforms. -/
theorem matchCandidate_conforms (abi : Abi) (pointerSize : Word) (ops : List Operation)
    (id : ClassId) (c : ClassType) (table : BaseOffsetTable) (a : Attributor)
    (candidate : Candidate) (hc : (reached abi pointerSize ops).get? id = some c)
    (hcheck : (reached abi pointerSize ops).checkAnalyzable id = .ok ())
    (htable : ((reached abi pointerSize ops).offsetTable id).1 = .ok table) :
    (∀ found, a.matchCandidate id table candidate = .ok found →
        a.Conforms c table candidate found) ∧
      ((table.direct.map (·.offset)).Nodup → ∀ found, a.Conforms c table candidate found →
        a.matchCandidate id table candidate = .ok found) := by
  have hm : (reached abi pointerSize ops).Coherent := coherent_reached abi pointerSize ops
  obtain rfl : c.id = id := hm.keyed id c hc
  have hdistinct := nodup_bases_of_checkAnalyzable hc hcheck
  have hperm : (table.direct.map (·.base)).Perm (c.bases.map (·.base)) :=
    (hm.resolves htable).direct_perm hc hdistinct
  have hcount : table.direct.length = c.bases.length := by simpa using hperm.length_eq
  refine ⟨fun found hfound => ?_, fun hoffsets found hfound => ?_⟩
  · obtain ⟨f, body, hf, hthunk, hbody, hfound⟩ := Attributor.matchCandidate_ok_iff.mp hfound
    obtain ⟨this, window, calls, hthis, hwindow, hcalls, horder, rfl⟩ :=
      Attributor.matchBody_ok_iff.mp hfound
    obtain ⟨hlength, hwindow⟩ := window?_eq_some_iff.mp hwindow
    obtain ⟨matched, hmatched, rfl, hdirect, hnodup⟩ := matchCalls_sound hcalls
    have hmlength : matched.length = table.direct.length := by rw [← hmatched.length_eq, hlength]
    -- different direct bases, as many as there are: all of them
    have hnodup' : (matched.map (·.1)).Nodup := by
      refine List.Nodup.of_map (·.base) ?_
      rwa [List.map_map]
    have hsub : matched.map (·.1) ⊆ table.direct := fun s hs => by
      obtain ⟨m, hmem, rfl⟩ := List.mem_map.mp hs
      exact (hdirect m hmem).1
    have hbases : (matched.map (·.1)).Perm table.direct :=
      (List.subperm_of_subset hnodup' hsub).perm_of_length_le (by simp [hmlength])
    refine ⟨f, body, this, window, matched, hf, isThunk_eq_false_iff.mp hthunk, hbody, hthis,
      hlength.trans hcount, hwindow, hmatched, hbases, fun henforce => ?_, rfl⟩
    refine eq_of_map_base (hperm.nodup_iff.mpr hdistinct) hsub (perm_expectedBases table _).subset ?_
    rw [List.map_map, ← callOrder_eq]
    refine (map_base_of_matches hmatched).symm.trans ((checkOrder_ok_iff ?_).mp (horder henforce))
    rw [List.length_map, hmlength, length_callOrder]
  · obtain ⟨f, body, this, window, matched, hf, hthunk, hbody, hthis, hlength, hwindow, hmatched,
      hbases, horder, rfl⟩ := hfound
    have hdirect : ∀ m ∈ matched, m.1 ∈ table.direct ∧ m.1.base ∉ [] := fun m hmem =>
      ⟨hbases.subset (List.mem_map_of_mem hmem), List.not_mem_nil⟩
    have hnodup : (matched.map (·.1.base)).Nodup := by
      have := (hbases.map (·.base)).nodup_iff.mpr (hperm.nodup_iff.mpr hdistinct)
      rwa [List.map_map] at this
    refine Attributor.matchCandidate_ok_iff.mpr ⟨f, body, hf, isThunk_eq_false_iff.mpr hthunk, hbody,
      Attributor.matchBody_ok_iff.mpr ⟨this, window, _, hthis,
        window?_eq_some_iff.mpr ⟨hlength.trans hcount.symm, hwindow⟩,
        matchCalls_complete hoffsets hmatched hdirect hnodup, fun henforce => ?_, rfl⟩⟩
    refine (checkOrder_ok_iff ?_).mpr ?_
    · rw [length_callOrder, ← hbases.length_eq, List.length_map, List.length_map]
    · rw [map_base_of_matches hmatched, callOrder_eq, ← horder henforce, List.map_map]
      rfl

/-- The functions of a class with two bases and a virtual base: a constructor and a destructor that call for these in
    order, a function that calls for them as they are listed, and a thunk of a base's constructor. -/
def threeBases : Program :=
  let base (address target : Address) (offset : Int64) : CallSite :=
    ⟨address, some target, some { origin := some 7, offset }⟩
  { functions := .ofList [(0x100, { entry := 0x100, name := "D::D" }), (0x200, { entry := 0x200, name := "D::~D" }),
      (0x210, { entry := 0x210, name := "thunk", thunkTarget := some 0x310 }),
      (0x310, { entry := 0x310, name := "A::A" }), (0x600, { entry := 0x600, name := "f" })]
    bodies := .ofList
      [(0x100, { entry := 0x100, thisParameter := some 7,
                 calls := [base 0x104 0x330 24, base 0x108 0x210 8, base 0x10c 0x320 16, base 0x110 0x700 0] }),
        (0x200, { entry := 0x200, thisParameter := some 7,
                  calls := [base 0x204 0x700 0, base 0x208 0x420 16, base 0x20c 0x410 8, base 0x210 0x430 24,
                    ⟨0x214, none, none⟩] }),
        (0x600, { entry := 0x600, thisParameter := some 7,
                  calls := [base 0x604 0x310 8, base 0x608 0x320 16, base 0x60c 0x330 24] })] }

/-- The constructor calls for the virtual base first, the destructor for it last, and the function that does not is
    no constructor. -/
theorem matchCandidate_conforms_threeBases :
    let m := reached .itanium 8
      [.insert { id := 1, name := "A", memberSize := 8 }, .insert { id := 2, name := "B", memberSize := 8 },
        .insert { id := 3, name := "V", memberSize := 8 },
        .insert { id := 4, name := "D",
                  bases := [⟨1, false, true, none⟩, ⟨2, false, true, none⟩, ⟨3, true, true, none⟩],
                  vtable := some (.ofTargets 0x50 0x40 8 [0x800]) }]
    let a : Attributor := ⟨threeBases, {}, 8⟩
    let shown (found : Attribution) := found.calls.map fun call => (call.base, call.function)
    ∃ c table, m.get? 4 = some c ∧ m.checkAnalyzable 4 = .ok () ∧ (m.offsetTable 4).1 = .ok table ∧
      (table.direct.map (·.offset)).Nodup ∧ table.direct.map (·.base) = [1, 2, 3] ∧
      (∃ found, a.Conforms c table ⟨0x100, .constructor⟩ found ∧ shown found = [(3, 0x330), (1, 0x310), (2, 0x320)]) ∧
      (∃ found, a.Conforms c table ⟨0x200, .destructor⟩ found ∧ shown found = [(2, 0x420), (1, 0x410), (3, 0x430)]) ∧
      ∀ found, ¬ a.Conforms c table ⟨0x600, .constructor⟩ found := by
  intro m a shown
  let constructed : Attribution :=
    ⟨4, 0x100, .constructor, [⟨0x104, 3, 24, 0x330⟩, ⟨0x108, 1, 8, 0x310⟩, ⟨0x10c, 2, 16, 0x320⟩]⟩
  let destroyed : Attribution :=
    ⟨4, 0x200, .destructor, [⟨0x208, 2, 16, 0x420⟩, ⟨0x20c, 1, 8, 0x410⟩, ⟨0x210, 3, 24, 0x430⟩]⟩
  have hmatched : (m.offsetTable 4).1.toOption.map (fun table =>
      (table.direct.map (·.base), table.direct.map (·.offset),
        (a.matchCandidate 4 table ⟨0x100, .constructor⟩).toOption,
        (a.matchCandidate 4 table ⟨0x200, .destructor⟩).toOption,
        (a.matchCandidate 4 table ⟨0x600, .constructor⟩).toOption)) =
      some ([1, 2, 3], [8, 16, 24], some constructed, some destroyed, none) := by decide +kernel
  obtain ⟨table, htable, heq⟩ := Option.map_eq_some_iff.mp hmatched
  replace htable := toOption_eq_some_iff.mp htable
  obtain ⟨hbases, hrest⟩ := Prod.mk.inj heq
  obtain ⟨hoffsets, hrest⟩ := Prod.mk.inj hrest
  obtain ⟨hconstructed, hrest⟩ := Prod.mk.inj hrest
  obtain ⟨hdestroyed, hlisted⟩ := Prod.mk.inj hrest
  obtain ⟨c, hc⟩ : ∃ c, m.get? 4 = some c := Option.isSome_iff_exists.mp (by decide +kernel)
  have hcheck : m.checkAnalyzable 4 = .ok () := by decide +kernel
  have hnodup : (table.direct.map (·.offset)).Nodup := hoffsets ▸ by decide
  have hconforms (candidate : Candidate) := matchCandidate_conforms .itanium 8 _ 4 c table a candidate hc hcheck htable
  refine ⟨c, table, hc, hcheck, htable, hnodup, hbases, ⟨constructed, ?_, rfl⟩, ⟨destroyed, ?_, rfl⟩, ?_⟩
  · exact (hconforms _).1 _ (toOption_eq_some_iff.mp hconstructed)
  · exact (hconforms _).1 _ (toOption_eq_some_iff.mp hdestroyed)
  · intro found hfound
    have hmatches := toOption_eq_some_iff.mpr ((hconforms _).2 hnodup found hfound)
    cases hlisted.symm.trans hmatches

end ClassModel

end ClassRecovery
