/-
  The two walks along thunks.

  A candidate is taken to the function behind its thunks, a callee to the address behind them.  The first walk
  keeps the thunks that it has left and gives up where it would leave one again (`Program.Follows`); the second
  one keeps all addresses that it comes to and stays where it has been before (`Program.Settles`).  As there
  are finitely many functions, both walks end, and fuel never runs out before (`settles_resolveThunkWithin`).

  * `Program.thunkWalks_agree`: what either walk ends with is said by the chain of thunks alone, and where the
    chain ends in a function, they end with the same one.
-/
import ClassRecovery.Proofs.Attribution.Callees
import ClassRecovery.Proofs.Attribution.Candidates

namespace ClassRecovery

namespace Program

/-! ## Chains -/

/-- No thunk is at the address: a function that is none, or no function at all. -/
def Stops (p : Program) (address : Address) : Prop :=
  p.functionAt? address = none ∨ ∃ g, p.functionAt? address = some g ∧ g.isThunk = false

/-- The chain of thunks from the address comes to an end. -/
def IsFinite (p : Program) (address : Address) : Prop := ∃ n last, p.LeadsTo n address last ∧ p.Stops last

/-- The address leads back to itself. -/
def OnLoop (p : Program) (address : Address) : Prop := ∃ n > 0, p.LeadsTo n address address

section Chains

variable {p : Program} {address middle last last' : Address}

theorem stops_iff : p.Stops address ↔ (p.functionAt? address).bind (·.thunkTarget) = none := by
  rw [Stops]
  cases p.functionAt? address with
  | none => simp
  | some f => simp [FunctionInfo.isThunk]

theorem LeadsTo.trans {n k : Nat} (h : p.LeadsTo n address middle) (h' : p.LeadsTo k middle last) :
    p.LeadsTo (n + k) address last := by
  induction h with
  | here => rwa [Nat.zero_add]
  | thunk hfound hthunk _ ih =>
    rw [Nat.add_right_comm]
    exact .thunk hfound hthunk (ih h')

/-- Chains from an address differ in their length only. -/
theorem LeadsTo.rest {n k : Nat} (h : p.LeadsTo n address middle) (h' : p.LeadsTo (n + k) address last) :
    p.LeadsTo k middle last := by
  induction h with
  | here => rwa [Nat.zero_add] at h'
  | thunk hfound hthunk _ ih =>
    rw [Nat.add_right_comm] at h'
    cases h' with
    | thunk hfound' hthunk' hrest =>
      obtain rfl := Option.some.inj (hfound.symm.trans hfound')
      obtain rfl := Option.some.inj (hthunk.symm.trans hthunk')
      exact ih hrest

/-- A chain begins with a shorter one. -/
theorem LeadsTo.exists_le {n k : Nat} (h : p.LeadsTo n address last) (hle : k ≤ n) :
    ∃ middle, p.LeadsTo k address middle := by
  induction h generalizing k with
  | here address => exact ⟨address, Nat.le_zero.mp hle ▸ .here address⟩
  | thunk hfound hthunk _ ih =>
    cases k with
    | zero => exact ⟨_, .here _⟩
    | succ k =>
      obtain ⟨middle, hmiddle⟩ := ih (Nat.le_of_succ_le_succ hle)
      exact ⟨middle, .thunk hfound hthunk hmiddle⟩

theorem Stops.eq_zero {n : Nat} (hstops : p.Stops address) (h : p.LeadsTo n address last) : n = 0 := by
  cases h with
  | here => rfl
  | thunk hfound hthunk =>
    rw [stops_iff, hfound, Option.bind_some] at hstops
    cases hstops.symm.trans hthunk

/-- A chain ends at one address at most. -/
theorem LeadsTo.end_unique {n n' : Nat} (h : p.LeadsTo n address last) (hstops : p.Stops last)
    (h' : p.LeadsTo n' address last') (hstops' : p.Stops last') : last = last' := by
  wlog hle : n ≤ n' generalizing n n' last last'
  · exact (this h' hstops' h hstops (Nat.le_of_not_le hle)).symm
  obtain ⟨k, rfl⟩ := Nat.exists_eq_add_of_le hle
  have hrest := h.rest h'
  rw [hstops.eq_zero hrest, leadsTo_zero_iff] at hrest
  exact hrest

/-- From a loop there are chains of any length. -/
theorem OnLoop.exists_leadsTo (h : p.OnLoop address) (n : Nat) : ∃ last, p.LeadsTo n address last := by
  obtain ⟨k, hpos, hloop⟩ := h
  have hround : p.LeadsTo (n * k) address address := by
    induction n with
    | zero =>
      rw [Nat.zero_mul]
      exact .here address
    | succ n ih =>
      rw [Nat.succ_mul]
      exact ih.trans hloop
  exact hround.exists_le (Nat.le_mul_of_pos_right n hpos)

/-- A chain that comes to a loop has no end. -/
theorem OnLoop.not_isFinite {n : Nat} (hloop : p.OnLoop middle) (h : p.LeadsTo n address middle) :
    ¬ p.IsFinite address := by
  rintro ⟨k, last, hlast, hstops⟩
  obtain ⟨beyond, hbeyond⟩ := hloop.exists_leadsTo (k + 1)
  obtain ⟨next, hnext⟩ := (h.trans hbeyond).exists_le (show k + 1 ≤ n + (k + 1) by omega)
  cases hstops.eq_zero (hlast.rest hnext)

end Chains

/-! ## The walks -/

/-- The walk from a function to the function behind its thunks, with the thunks that were left.  It finds
    nothing where it would leave one of them again, and where a thunk goes on to no function. -/
inductive Follows (p : Program) : List Address → FunctionInfo → Option FunctionInfo → Prop where
  | arrived {visited : List Address} {f : FunctionInfo} (h : f.thunkTarget = none) :
    Follows p visited f (some f)
  | again {visited : List Address} {f : FunctionInfo} {next : Address}
    (isThunk : f.thunkTarget = some next) (h : f.entry ∈ visited) : Follows p visited f none
  | lost {visited : List Address} {f : FunctionInfo} {next : Address}
    (isThunk : f.thunkTarget = some next) (fresh : f.entry ∉ visited) (h : p.functionAt? next = none) :
    Follows p visited f none
  | thunk {visited : List Address} {f g : FunctionInfo} {next : Address} {found : Option FunctionInfo}
    (isThunk : f.thunkTarget = some next) (fresh : f.entry ∉ visited) (known : p.functionAt? next = some g)
    (rest : Follows p (f.entry :: visited) g found) : Follows p visited f found

section Walks

variable {p : Program} {visited : List Address} {address last : Address} {f g : FunctionInfo}

theorem LeadsTo.head {n : Nat} {next : Address}
    (hthunk : (p.functionAt? address).bind (·.thunkTarget) = some next) (h : p.LeadsTo n next last) :
    p.LeadsTo (n + 1) address last := by
  obtain ⟨f, hf, hnext⟩ := Option.bind_eq_some_iff.mp hthunk
  exact .thunk hf hnext h

/-- The walk stays on the chain. -/
theorem Settles.exists_leadsTo (h : p.Settles visited address last) : ∃ n, p.LeadsTo n address last := by
  induction h with
  | again | arrived => exact ⟨0, .here _⟩
  | thunk _ hthunk _ ih =>
    obtain ⟨n, hleads⟩ := ih
    exact ⟨n + 1, hleads.head hthunk⟩

/-- All that was come to leads on to where the walk is. -/
def Behind (p : Program) (visited : List Address) (address : Address) : Prop :=
  ∀ v ∈ visited, ∃ n > 0, p.LeadsTo n v address

theorem Behind.cons {next : Address} (h : p.Behind visited address)
    (hthunk : (p.functionAt? address).bind (·.thunkTarget) = some next) :
    p.Behind (address :: visited) next := by
  have hstep : p.LeadsTo 1 address next := .head hthunk (.here next)
  refine List.forall_mem_cons.mpr ⟨⟨1, Nat.one_pos, hstep⟩, fun v hv => ?_⟩
  obtain ⟨n, -, hleads⟩ := h v hv
  exact ⟨n + 1, Nat.succ_pos n, hleads.trans hstep⟩

/-- The walk ends with the chain, or on a loop. -/
theorem Settles.stops_or_onLoop (h : p.Settles visited address last) (hbehind : p.Behind visited address) :
    p.Stops last ∨ p.OnLoop last := by
  induction h with
  | again hmem => exact .inr (hbehind _ hmem)
  | arrived _ hnone => exact .inl (stops_iff.mpr hnone)
  | thunk _ hthunk _ ih => exact ih (hbehind.cons hthunk)

theorem resolveThunk_stops_or_onLoop (p : Program) (address : Address) :
    p.Stops (p.resolveThunk address) ∨ p.OnLoop (p.resolveThunk address) :=
  (p.settles_resolveThunk address).stops_or_onLoop (by simp [Behind])

/-- The walk comes to the end of a chain exactly if there is one. -/
theorem stops_resolveThunk_iff : p.Stops (p.resolveThunk address) ↔ p.IsFinite address := by
  obtain ⟨n, hleads⟩ := (p.settles_resolveThunk address).exists_leadsTo
  constructor
  · exact fun hstops => ⟨n, _, hleads, hstops⟩
  · intro hfinite
    exact (p.resolveThunk_stops_or_onLoop address).resolve_right fun hloop => hloop.not_isFinite hleads hfinite

/-- **The walk to a function ends** where the walk to an address does. -/
theorem Settles.exists_follows (h : p.Settles visited address last) (hf : p.functionAt? address = some f)
    (hentry : f.entry = address) (hentries : ∀ a g, p.functionAt? a = some g → g.entry = a) :
    ∃ found, p.Follows visited f found := by
  induction h generalizing f with
  | @again visited address hmem =>
    cases hthunk : f.thunkTarget with
    | none => exact ⟨some f, .arrived hthunk⟩
    | some next => exact ⟨none, .again hthunk (hentry ▸ hmem)⟩
  | arrived _ hnone =>
    rw [hf, Option.bind_some] at hnone
    exact ⟨some f, .arrived hnone⟩
  | @thunk visited address next last hfresh hthunk _ ih =>
    rw [hf, Option.bind_some] at hthunk
    subst hentry
    cases hnext : p.functionAt? next with
    | none => exact ⟨none, .lost hthunk hfresh hnext⟩
    | some g =>
      obtain ⟨found, hfound⟩ := ih hnext (hentries _ _ hnext)
      exact ⟨found, .thunk hthunk hfresh hnext hfound⟩

end Walks

/-! ## What the walks end with -/

section Found

variable {s : ProgramSnapshot} {visited : List Address} {f g : FunctionInfo}

/-- A function that the walk comes to is where the chain ends. -/
theorem Follows.endsIn (h : (ofSnapshot s).Follows visited f (some g))
    (hf : (ofSnapshot s).functionAt? f.entry = some f) :
    (ofSnapshot s).functionAt? g.entry = some g ∧ (ofSnapshot s).EndsIn f g := by
  generalize hfound : some g = found at h
  induction h with
  | again | lost => cases hfound
  | arrived hlast =>
    obtain rfl := Option.some.inj hfound
    exact ⟨hf, by rw [FunctionInfo.isThunk, hlast]; rfl, 0, .here _⟩
  | thunk hthunk _ hknown _ ih =>
    obtain rfl := entry_of_functionAt? hknown
    obtain ⟨hg, hlast, n, hleads⟩ := ih hknown hfound
    exact ⟨hg, hlast, n + 1, .thunk hf hthunk hleads⟩

/-- Where the walk finds nothing, the chain leads to no function, or comes to a loop. -/
theorem Follows.lost_or_onLoop (h : (ofSnapshot s).Follows visited f none)
    (hf : (ofSnapshot s).functionAt? f.entry = some f) (hbehind : (ofSnapshot s).Behind visited f.entry) :
    ∃ n a, (ofSnapshot s).LeadsTo n f.entry a ∧
      ((ofSnapshot s).functionAt? a = none ∨ (ofSnapshot s).OnLoop a) := by
  generalize hfound : (none : Option FunctionInfo) = found at h
  induction h with
  | arrived => cases hfound
  | again _ hmem => exact ⟨0, _, .here _, .inr (hbehind _ hmem)⟩
  | lost hthunk _ hnone => exact ⟨1, _, .thunk hf hthunk (.here _), .inl hnone⟩
  | @thunk visited f g next found hthunk _ hknown _ ih =>
    obtain rfl := entry_of_functionAt? hknown
    have hstep : ((ofSnapshot s).functionAt? f.entry).bind (·.thunkTarget) = some g.entry := by
      rw [hf, Option.bind_some, hthunk]
    obtain ⟨n, a, hleads, hend⟩ := ih hknown (hbehind.cons hstep) hfound
    exact ⟨n + 1, a, hleads.head hstep, hend⟩

theorem EndsIn.stops (hg : (ofSnapshot s).functionAt? g.entry = some g) (h : (ofSnapshot s).EndsIn f g) :
    (ofSnapshot s).Stops g.entry := .inr ⟨g, hg, h.1⟩

/-- A chain that ends in a function leads neither to where no function is nor to a loop. -/
theorem EndsIn.not_lost {n : Nat} {a : Address} (hg : (ofSnapshot s).functionAt? g.entry = some g)
    (h : (ofSnapshot s).EndsIn f g) (ha : (ofSnapshot s).LeadsTo n f.entry a) :
    ¬ ((ofSnapshot s).functionAt? a = none ∨ (ofSnapshot s).OnLoop a) := by
  obtain ⟨k, hleads⟩ := h.2
  rintro (hnone | hloop)
  · rw [← hleads.end_unique (h.stops hg) ha (.inl hnone)] at hnone
    cases hg.symm.trans hnone
  · exact hloop.not_isFinite ha ⟨k, g.entry, hleads, h.stops hg⟩

/-- No function is found where the chain leads to no function, or to a loop. -/
theorem followThunks_eq_none {n : Nat} {a : Address} (hf : (ofSnapshot s).functionAt? f.entry = some f)
    (ha : (ofSnapshot s).LeadsTo n f.entry a)
    (hend : (ofSnapshot s).functionAt? a = none ∨ (ofSnapshot s).OnLoop a) :
    (ofSnapshot s).followThunks f = none := by
  refine Option.eq_none_iff_forall_ne_some.mpr fun g hfollow => ?_
  obtain ⟨hg, hends⟩ := (followThunks_eq_some_iff hf).mp hfollow
  exact hends.not_lost hg ha hend

/-- **What the walk to a function finds** is what following thunks finds. -/
theorem follows_iff (hf : (ofSnapshot s).functionAt? f.entry = some f) {found : Option FunctionInfo} :
    (ofSnapshot s).Follows [] f found ↔ (ofSnapshot s).followThunks f = found := by
  have followed {found : Option FunctionInfo} (h : (ofSnapshot s).Follows [] f found) :
      (ofSnapshot s).followThunks f = found := by
    cases found with
    | some g => exact (followThunks_eq_some_iff hf).mpr (h.endsIn hf)
    | none =>
      obtain ⟨n, a, ha, hend⟩ := h.lost_or_onLoop hf (by simp [Behind])
      exact followThunks_eq_none hf ha hend
  refine ⟨followed, ?_⟩
  rintro rfl
  obtain ⟨found, hfound⟩ := ((ofSnapshot s).settles_resolveThunk f.entry).exists_follows hf rfl
    fun a g => entry_of_functionAt?
  exact followed hfound ▸ hfound

/-- **The two walks along thunks.**  Both end, with what following and resolving say.  From a function, the
    first walk finds the function that is no thunk and to which the chain leads; then the second one comes to the
    entry of that function.  The first walk finds nothing exactly if the chain leads to where no function is, or to
    a loop.  From any address, the second walk stays on the chain; it comes to the end of a chain that has one,
    and to a loop else. -/
theorem thunkWalks_agree (s : ProgramSnapshot) :
    let p := ofSnapshot s
    (∀ f, p.functionAt? f.entry = some f →
      (∀ found, p.Follows [] f found ↔ p.followThunks f = found) ∧
      (∀ g, p.followThunks f = some g ↔
        p.functionAt? g.entry = some g ∧ g.isThunk = false ∧ ∃ n, p.LeadsTo n f.entry g.entry) ∧
      (∀ g, p.followThunks f = some g → p.resolveThunk f.entry = g.entry) ∧
      (p.followThunks f = none ↔
        ∃ n a, p.LeadsTo n f.entry a ∧ (p.functionAt? a = none ∨ p.OnLoop a))) ∧
    ∀ address,
      (∀ last, p.Settles [] address last ↔ p.resolveThunk address = last) ∧
      (∃ n, p.LeadsTo n address (p.resolveThunk address)) ∧
      (p.IsFinite address → p.Stops (p.resolveThunk address)) ∧
      (¬ p.IsFinite address → p.OnLoop (p.resolveThunk address)) := by
  intro p
  constructor
  · intro f hf
    refine ⟨fun found => follows_iff hf, fun g => followThunks_eq_some_iff hf, fun g hfollow => ?_, ?_⟩
    · obtain ⟨hg, hends⟩ := (followThunks_eq_some_iff hf).mp hfollow
      obtain ⟨n, hleads⟩ := hends.2
      obtain ⟨k, hwalk⟩ := (p.settles_resolveThunk f.entry).exists_leadsTo
      have hstops := stops_resolveThunk_iff.mpr ⟨n, g.entry, hleads, hends.stops hg⟩
      exact hwalk.end_unique hstops hleads (hends.stops hg)
    · constructor
      · exact fun hnone => ((follows_iff hf).mpr hnone).lost_or_onLoop hf (by simp [Behind])
      · rintro ⟨n, a, ha, hend⟩
        exact followThunks_eq_none hf ha hend
  · intro address
    refine ⟨fun last => settles_iff, (p.settles_resolveThunk address).exists_leadsTo,
      stops_resolveThunk_iff.mpr, fun hinfinite => ?_⟩
    exact (p.resolveThunk_stops_or_onLoop address).resolve_left (hinfinite ∘ stops_resolveThunk_iff.mp)

end Found

/-- A thunk of a function, and two thunks of each other. -/
def windingThunks : ProgramSnapshot where
  functions := [{ entry := 0x1000, name := "f" }, { entry := 0x1100, name := "thunk", thunkTarget := some 0x1000 },
    { entry := 0x1200, name := "there", thunkTarget := some 0x1300 },
    { entry := 0x1300, name := "back", thunkTarget := some 0x1200 }]

/-- The thunk leads to its function, and from one of the two others the walk comes to their loop. -/
theorem thunkWalks_agree_winding :
    let p := ofSnapshot windingThunks
    let thunk : FunctionInfo := { entry := 0x1100, name := "thunk", thunkTarget := some 0x1000 }
    p.functionAt? thunk.entry = some thunk ∧ p.resolveThunk thunk.entry = 0x1000 ∧
      ¬ p.IsFinite 0x1200 ∧ p.OnLoop (p.resolveThunk 0x1200) := by
  intro p thunk
  have hthunk : p.functionAt? thunk.entry = some thunk := by decide +kernel
  have hfollow : p.followThunks thunk = some { entry := 0x1000, name := "f" } := by decide +kernel
  obtain ⟨-, -, hstops, hloop⟩ := (thunkWalks_agree windingThunks).2 0x1200
  have hinfinite : ¬ p.IsFinite 0x1200 := fun hfinite => by
    have hnone := stops_iff.mp (hstops hfinite)
    revert hnone
    decide +kernel
  exact ⟨hthunk, ((thunkWalks_agree windingThunks).1 thunk hthunk).2.2.1 _ hfollow, hinfinite, hloop hinfinite⟩

end Program

end ClassRecovery
