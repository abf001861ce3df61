/-
  Machine words: addresses, identities, offsets and sizes are 64-bit words.

  Arithmetic on words comes in three kinds.  Checked addition (`checkedAdd`) fails
  where the exact sum is no word, saturating arithmetic stops at the ends of the
  range, and the operators of `UInt64` wrap around.  `alignUp` rounds up to a multiple
  of an alignment, and fails where the rounding would leave the range.

  * `checkedAdd_eq_some_iff`: checked addition is exact addition of the values.
  * `le_of_alignUp`, `alignUp_alignUp`: rounding up does not go below, and once is enough.
-/

namespace ClassRecovery

/-- A 64-bit machine word. -/
abbrev Word := UInt64

/-- An address in the analysed program. -/
abbrev Address := Word

/-! ## Unsigned words -/

/-- The largest word. -/
def maxWord : Word := 0xFFFFFFFFFFFFFFFF

/-- `a + b`, if the exact sum is a word. -/
def checkedAdd (a b : Word) : Option Word :=
  if a.toNat + b.toNat < UInt64.size then some (a + b) else none

/-- `a + b`, or the largest word where the exact sum is no word. -/
def saturatingAdd (a b : Word) : Word :=
  (checkedAdd a b).getD maxWord

/-- `a - b`, or zero where the exact difference is negative. -/
def saturatingSub (a b : Word) : Word :=
  if b ≤ a then a - b else 0

/-- The least multiple of `alignment` that is not below `value`, if it and the sum that
    the rounding passes through are words.  An alignment of zero counts as one. -/
def alignUp (value alignment : Word) : Option Word :=
  let step := max alignment 1
  (checkedAdd value (step - 1)).map fun v => v / step * step

/-- **Checked addition is exact.** -/
theorem checkedAdd_eq_some_iff {a b c : Word} :
    checkedAdd a b = some c ↔ c.toNat = a.toNat + b.toNat := by
  unfold checkedAdd
  constructor
  · intro h
    split at h
    · next hlt =>
      simp only [Option.some.injEq] at h
      subst h
      rw [UInt64.toNat_add, Nat.mod_eq_of_lt hlt]
    · simp at h
  · intro h
    have hlt : a.toNat + b.toNat < UInt64.size := h ▸ c.toNat_lt
    rw [if_pos hlt, Option.some.injEq]
    apply UInt64.toNat_inj.mp
    rw [UInt64.toNat_add, Nat.mod_eq_of_lt hlt, h]

theorem checkedAdd_eq_none_iff {a b : Word} :
    checkedAdd a b = none ↔ UInt64.size ≤ a.toNat + b.toNat := by
  unfold checkedAdd
  split <;> simp <;> omega

theorem toNat_saturatingAdd (a b : Word) :
    (saturatingAdd a b).toNat = min (a.toNat + b.toNat) maxWord.toNat := by
  unfold saturatingAdd
  have largest : maxWord.toNat + 1 = UInt64.size := rfl
  rcases h : checkedAdd a b with _ | c
  · have := checkedAdd_eq_none_iff.mp h
    simp only [Option.getD_none]
    omega
  · have := checkedAdd_eq_some_iff.mp h
    have hc : c.toNat < UInt64.size := c.toNat_lt
    simp only [Option.getD_some]
    omega

theorem toNat_max (a b : Word) : (max a b).toNat = max a.toNat b.toNat := by
  change (if a ≤ b then b else a).toNat = _
  split
  · next h => rw [Nat.max_eq_right (UInt64.le_iff_toNat_le.mp h)]
  · next h =>
    rw [UInt64.le_iff_toNat_le] at h
    rw [Nat.max_eq_left (by omega)]

theorem toNat_alignUp {value alignment r : Word} (h : alignUp value alignment = some r) :
    let step := max alignment.toNat 1
    r.toNat = (value.toNat + (step - 1)) / step * step := by
  intro step
  simp only [alignUp, Option.map_eq_some_iff] at h
  obtain ⟨v, hv, rfl⟩ := h
  have hstep : (max alignment 1).toNat = step := toNat_max alignment 1
  have hone : (1 : Word) ≤ max alignment 1 := by
    rw [UInt64.le_iff_toNat_le, hstep]
    exact Nat.le_max_right _ _
  have hsum : v.toNat = value.toNat + (step - 1) := by
    rw [checkedAdd_eq_some_iff.mp hv, UInt64.toNat_sub_of_le _ _ hone, hstep]
    rfl
  have hle : v.toNat / step * step ≤ v.toNat := Nat.div_mul_le_self _ _
  rw [UInt64.toNat_mul, UInt64.toNat_div, hstep, ← hsum, Nat.mod_eq_of_lt]
  exact Nat.lt_of_le_of_lt hle v.toNat_lt

theorem le_of_alignUp {value alignment r : Word} (h : alignUp value alignment = some r) :
    value.toNat ≤ r.toNat := by
  have hr := toNat_alignUp h
  have hpos : 0 < max alignment.toNat 1 := by omega
  generalize max alignment.toNat 1 = step at hr hpos
  have hdiv := Nat.div_add_mod' (value.toNat + (step - 1)) step
  have hmod := Nat.mod_lt (value.toNat + (step - 1)) hpos
  omega

/-- **Rounding up what is rounded up already changes nothing.** -/
theorem alignUp_alignUp {value alignment r r' : Word} (h : alignUp value alignment = some r)
    (h' : alignUp r alignment = some r') : r' = r := by
  have hr := toNat_alignUp h
  have hr' := toNat_alignUp h'
  have hpos : 0 < max alignment.toNat 1 := by omega
  apply UInt64.toNat_inj.mp
  generalize max alignment.toNat 1 = step at hr hr' hpos
  rw [hr', hr, Nat.add_comm, Nat.add_mul_div_right _ _ hpos, Nat.div_eq_of_lt (by omega),
    Nat.zero_add]

/-! ## Signed words -/

/-- `a + b`, if the exact sum is a signed word. -/
def checkedAddSigned (a b : Int64) : Option Int64 :=
  let sum := a.toInt + b.toInt
  if -0x8000000000000000 ≤ sum ∧ sum < 0x8000000000000000 then some (a + b) else none

/-- The word of the same value, if the signed word is not negative. -/
def wordOfSigned? (i : Int64) : Option Word :=
  if 0 ≤ i then some i.toUInt64 else none

end ClassRecovery
