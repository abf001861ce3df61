/-
  The function that an address lies in.

  Only the function with the last entry that is not behind the address is looked at.  So a function that is found
  has the address in its body, and every such function is found as long as no other one begins between its entry
  and the address (`Program.functionContaining?_exact`).  Behind a shorter function inside its body, a function
  is missed (`Program.functionContaining?_behindInner`).
-/
import ClassRecovery.Proofs.Program

namespace ClassRecovery

theorem FunctionInfo.contains_iff {f : FunctionInfo} {address : Address} :
    f.contains address = true ↔
      f.entry.toNat ≤ address.toNat ∧ address.toNat - f.entry.toNat < max f.size.toNat 1 := by
  rw [contains, Bool.and_eq_true, decide_eq_true_eq, decide_eq_true_eq, UInt64.le_iff_toNat_le]
  refine and_congr_right fun hle => ?_
  rw [UInt64.lt_iff_toNat_lt, UInt64.toNat_sub_of_le _ _ (UInt64.le_iff_toNat_le.mpr hle), toNat_max]
  rfl

namespace Program

section

variable {s : ProgramSnapshot} {address : Address} {f g : FunctionInfo}

/-- The function is the last one that begins at or before an address. -/
structure IsLast (p : Program) (address : Address) (f : FunctionInfo) : Prop where
  known : p.functionAt? f.entry = some f
  begins : f.entry ≤ address
  last : ∀ g, p.functionAt? g.entry = some g → g.entry ≤ address → g.entry ≤ f.entry

theorem IsLast.unique {p : Program} (hf : p.IsLast address f) (hg : p.IsLast address g) : f = g := by
  have hsame : f.entry = g.entry :=
    UInt64.le_antisymm (hg.last f hf.known hf.begins) (hf.last g hg.known hg.begins)
  exact Option.some.inj (hf.known.symm.trans (hsame ▸ hg.known))

/-- The entries of functions are in order as their addresses are. -/
theorem before_eq_false_iff {a b : Address} : OrderedKey.before a b = false ↔ b ≤ a := by
  simp [OrderedKey.before, UInt64.le_iff_toNat_le]

theorem mem_functions_iff {e : Address × FunctionInfo} :
    e ∈ (ofSnapshot s).functions.entries ↔
      e.1 = e.2.entry ∧ (ofSnapshot s).functionAt? e.2.entry = some e.2 := by
  obtain ⟨entry, f⟩ := e
  dsimp only
  rw [functionAt?, OrderedMap.get?_eq_some_iff]
  constructor
  · intro hmem
    obtain rfl := entry_of_mem_functions hmem
    exact ⟨rfl, hmem⟩
  · rintro ⟨rfl, hmem⟩
    exact hmem

theorem floor?_functions_iff {e : Address × FunctionInfo} :
    (ofSnapshot s).functions.floor? address = some e ↔ e.1 = e.2.entry ∧ (ofSnapshot s).IsLast address e.2 := by
  rw [OrderedMap.floor?_eq_some_iff, mem_functions_iff]
  simp only [before_eq_false_iff, mem_functions_iff]
  constructor
  · rintro ⟨⟨hentry, hknown⟩, hle, hlast⟩
    refine ⟨hentry, hknown, hentry ▸ hle, fun g hg hbegins => ?_⟩
    exact hentry ▸ hlast (g.entry, g) ⟨rfl, hg⟩ hbegins
  · rintro ⟨hentry, h⟩
    refine ⟨⟨hentry, h.known⟩, hentry ▸ h.begins, fun e' he' hbegins => ?_⟩
    rw [hentry, he'.1]
    exact h.last e'.2 he'.2 (he'.1 ▸ hbegins)

/-- If a function begins at or before an address, there is a last one. -/
theorem exists_isLast (hf : (ofSnapshot s).functionAt? f.entry = some f) (hbegins : f.entry ≤ address) :
    ∃ g, (ofSnapshot s).IsLast address g := by
  cases hfloor : (ofSnapshot s).functions.floor? address with
  | none =>
    have hbehind := OrderedMap.floor?_eq_none_iff.mp hfloor (f.entry, f) (mem_functions_iff.mpr ⟨rfl, hf⟩)
    rw [before_eq_false_iff.mpr hbegins] at hbehind
    cases hbehind
  | some e => exact ⟨e.2, (floor?_functions_iff.mp hfloor).2⟩

/-- The function that is found is the last one that begins at or before the address, if its body contains
    the address. -/
theorem functionContaining?_eq_some_iff :
    (ofSnapshot s).functionContaining? address = some f ↔
      (ofSnapshot s).IsLast address f ∧ f.contains address = true := by
  rw [functionContaining?, Option.filter_eq_some_iff, Option.map_eq_some_iff]
  refine and_congr_left fun _ => ?_
  constructor
  · rintro ⟨e, he, rfl⟩
    exact (floor?_functions_iff.mp he).2
  · exact fun h => ⟨(f.entry, f), floor?_functions_iff.mpr ⟨rfl, h⟩, rfl⟩

/-- A function is missed if the last one that begins at or before the address is another one, without the address
    in its body. -/
theorem functionContaining?_eq_none_iff (hf : (ofSnapshot s).functionAt? f.entry = some f)
    (hcontains : f.contains address = true) :
    (ofSnapshot s).functionContaining? address = none ↔
      ∃ g, (ofSnapshot s).IsLast address g ∧ f.entry < g.entry ∧ g.contains address = false := by
  have hbegins : f.entry ≤ address := UInt64.le_iff_toNat_le.mpr (FunctionInfo.contains_iff.mp hcontains).1
  constructor
  · intro hnone
    obtain ⟨g, hg⟩ := exists_isLast hf hbegins
    have hnot : g.contains address = false := Bool.eq_false_iff.mpr fun h => by
      cases hnone.symm.trans (functionContaining?_eq_some_iff.mpr ⟨hg, h⟩)
    refine ⟨g, hg, ?_, hnot⟩
    refine UInt64.lt_of_le_of_ne (hg.last f hf hbegins) fun hsame => ?_
    obtain rfl := Option.some.inj (hf.symm.trans (hsame ▸ hg.known))
    cases hnot.symm.trans hcontains
  · rintro ⟨g, hg, -, hnot⟩
    refine Option.eq_none_iff_forall_ne_some.mpr fun h hfound => ?_
    obtain ⟨hlast, hin⟩ := functionContaining?_eq_some_iff.mp hfound
    cases (hlast.unique hg ▸ hnot).symm.trans hin

end

/-- **Which function an address is found in.**  It is the last one that begins at or before the address, and the
    address is in its body.  A function with the address in its body is missed exactly if a later one begins at or
    before the address, and the last one of these ends before it.  So none is missed where no function begins in
    the body of another. -/
theorem functionContaining?_exact (s : ProgramSnapshot) (address : Address) :
    let p := ofSnapshot s
    (∀ f, p.functionContaining? address = some f ↔ p.IsLast address f ∧ f.contains address = true) ∧
      (∀ f, p.functionAt? f.entry = some f → f.contains address = true →
        (p.functionContaining? address = none ↔
          ∃ g, p.IsLast address g ∧ f.entry < g.entry ∧ g.contains address = false)) ∧
      ((∀ f g, p.functionAt? f.entry = some f → p.functionAt? g.entry = some g →
          f.contains g.entry = true → g = f) →
        ((p.functionContaining? address).isSome = true ↔
          ∃ f, p.functionAt? f.entry = some f ∧ f.contains address = true)) := by
  intro p
  refine ⟨fun f => functionContaining?_eq_some_iff, fun f => functionContaining?_eq_none_iff, fun hapart => ?_⟩
  rw [Option.isSome_iff_exists]
  constructor
  · rintro ⟨f, hfound⟩
    obtain ⟨hlast, hcontains⟩ := functionContaining?_eq_some_iff.mp hfound
    exact ⟨f, hlast.known, hcontains⟩
  · rintro ⟨f, hf, hcontains⟩
    rw [← Option.isSome_iff_exists, Option.isSome_iff_ne_none]
    intro hnone
    obtain ⟨g, hg, hlt, -⟩ := (functionContaining?_eq_none_iff hf hcontains).mp hnone
    -- the later function would begin in the body of the first one
    have hin : f.contains g.entry = true := by
      obtain ⟨-, hsize⟩ := FunctionInfo.contains_iff.mp hcontains
      have hbegins := UInt64.le_iff_toNat_le.mp hg.begins
      have hlt := UInt64.lt_iff_toNat_lt.mp hlt
      exact FunctionInfo.contains_iff.mpr ⟨by omega, by omega⟩
    obtain rfl := hapart f g hf hg.known hin
    exact UInt64.lt_irrefl _ hlt

/-! ## A function inside another -/

/-- A function, and a shorter one that begins in its body. -/
def nestedFunctions : ProgramSnapshot where
  functions := [{ entry := 0x1000, name := "outer", size := 0x100 },
    { entry := 0x1040, name := "inner", size := 0x10 }]

/-- Behind the inner function, the outer one is missed for it. -/
theorem functionContaining?_exact_nested :
    let p := ofSnapshot nestedFunctions
    let outer : FunctionInfo := { entry := 0x1000, name := "outer", size := 0x100 }
    p.functionAt? outer.entry = some outer ∧ outer.contains 0x1080 = true ∧
      ∃ g, p.IsLast 0x1080 g ∧ outer.entry < g.entry ∧ g.contains 0x1080 = false := by
  intro p outer
  have hknown : p.functionAt? outer.entry = some outer := by decide +kernel
  have hcontains : outer.contains 0x1080 = true := by decide
  have hnone : p.functionContaining? 0x1080 = none := by decide +kernel
  obtain ⟨-, hmissed, -⟩ := functionContaining?_exact nestedFunctions 0x1080
  exact ⟨hknown, hcontains, (hmissed outer hknown hcontains).mp hnone⟩

/-- **An address in the body of a function may be found in none.** -/
theorem functionContaining?_behindInner :
    let p := ofSnapshot nestedFunctions
    p.functionContaining? 0x1080 = none ∧
      ∃ f, p.functionAt? f.entry = some f ∧ f.contains 0x1080 = true := by
  refine ⟨by decide +kernel, { entry := 0x1000, name := "outer", size := 0x100 }, ?_, ?_⟩
  · decide +kernel
  · decide

end Program

end ClassRecovery
