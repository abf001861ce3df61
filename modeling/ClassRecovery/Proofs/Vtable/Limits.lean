/-
  How many entries a table has.

  A table is full with a function that makes it as long as the limit, but not with a null.  So nulls count towards the
  limit only once a function follows them: a table is at most longer than the limit by the gap before its last entry
  (`VtableDetector.scan_limits`).
-/
import ClassRecovery.Proofs.Vtable.Cover
import Mathlib.Data.List.Basic
import Mathlib.Data.List.TakeWhile

namespace ClassRecovery

/-- The nulls right before the last entry. -/
def Vtable.lastGap (v : Vtable) : List VtableEntry :=
  (v.entries.dropLast.reverse.takeWhile fun e => e.target = 0).reverse

namespace VtableDetector

variable {d : VtableDetector} {region : Region} {base : Address}

/-! ## Room -/

/-- Behind a function there are more slots only if the table is not full with it. -/
theorem Run.room {start position gaps count : Nat} {slots : List VtableEntry}
    (h : d.Run region start position gaps count slots) {front rest : List VtableEntry} {e : VtableEntry}
    (hslots : slots = front ++ e :: rest) (he : e.target ≠ 0) (hrest : rest ≠ []) :
    count + front.length + 1 < d.config.maxEntries.toNat := by
  induction h generalizing front with
  | outside | closed | stray => simp at hslots
  | gap _ _ _ _ ih =>
    cases front with
    | nil =>
      cases hslots
      exact absurd rfl he
    | cons null front =>
      have := ih (List.cons.inj hslots).2
      simp only [List.length_cons]
      omega
  | full _ _ _ _ =>
    cases front with
    | nil => exact absurd (List.cons.inj hslots).2.symm hrest
    | cons f front => simp at hslots
  | function _ _ _ hroom _ ih =>
    cases front with
    | nil => exact hroom
    | cons f front =>
      have := ih (List.cons.inj hslots).2
      simp only [List.length_cons]
      omega

/-! ## The gap before the last entry -/

theorem append_gap (slots : List VtableEntry) :
    withoutTrailingGaps slots ++ (slots.reverse.takeWhile fun e => e.target = 0).reverse = slots := by
  rw [withoutTrailingGaps, ← List.reverse_append, List.takeWhile_append_dropWhile, List.reverse_reverse]

/-- The entries of a table: those up to a function, the nulls behind it, and the last one. -/
theorem exists_entries_eq {v : Vtable} (hne : v.entries ≠ []) :
    ∃ last, v.entries = withoutTrailingGaps v.entries.dropLast ++ (v.lastGap ++ [last]) := by
  refine ⟨v.entries.getLast hne, ?_⟩
  rw [← List.append_assoc, Vtable.lastGap, append_gap, List.dropLast_concat_getLast]

theorem null_of_mem_lastGap {v : Vtable} {e : VtableEntry} (h : e ∈ v.lastGap) : e.target = 0 := by
  rw [Vtable.lastGap, List.mem_reverse] at h
  have hnull := List.mem_takeWhile_imp h
  exact of_decide_eq_true hnull

/-- **The limits of a table.**  A reported table has no fewer entries than required.  It has no more than allowed, but
    for the nulls before the last entry, and of these there are not more than a gap may have, and none if there may
    be no gaps. -/
theorem scan_limits {v : Vtable} (hv : v ∈ d.scan region base) (hleast : 1 ≤ d.config.minEntries)
    (hmost : d.config.minEntries ≤ d.config.maxEntries) :
    d.config.minEntries.toNat ≤ v.entries.length ∧
      v.entries.length ≤ d.config.maxEntries.toNat + v.lastGap.length ∧
      v.lastGap.length ≤ if d.config.allowGaps then d.config.maxGapSize.toNat else 0 := by
  obtain ⟨i, -, hreport⟩ := exists_report_of_mem_scan hv
  have hstands := stands_of_report hreport
  obtain ⟨last, hsplit⟩ := exists_entries_eq (v := v) hstands.nonempty
  refine ⟨Nat.le_trans (Nat.le_max_left _ _) (le_length_of_report hreport), ?_, ?_⟩
  · have hlength := congrArg List.length hsplit
    simp only [List.length_append, List.length_singleton] at hlength
    rcases List.eq_nil_or_concat' (withoutTrailingGaps v.entries.dropLast) with hnil | ⟨front, e, hfront⟩
    · have hone : 1 ≤ d.config.maxEntries.toNat := UInt64.le_iff_toNat_le.mp (UInt64.le_trans hleast hmost)
      rw [hnil, List.length_nil] at hlength
      omega
    · have he : e.target ≠ 0 := ne_zero_of_getLast? (by rw [hfront]; exact List.getLast?_concat)
      have hrun := run_slots d region i (show region.size < region.size + 1 + i by omega) 0 0
      obtain ⟨more, hmore⟩ : v.entries <+: _ := (of_report hreport).2 ▸ withoutTrailingGaps_prefix _
      have hslots : d.slots region i (region.size + 1) i 0 0 =
          front ++ e :: (v.lastGap ++ [last] ++ more) := by
        rw [← hmore, hsplit, hfront]
        simp only [List.append_assoc, List.cons_append, List.nil_append]
      have := hrun.room hslots he (by simp)
      rw [hfront] at hlength
      simp only [List.length_append, List.length_singleton] at hlength
      omega
  · split
    · exact hstands.gaps v.lastGap ⟨_, _, by rw [List.append_assoc, ← hsplit]⟩ fun e => null_of_mem_lastGap
    · next hforbidden =>
      rw [Nat.le_zero, List.length_eq_zero_iff, List.eq_nil_iff_forall_not_mem]
      intro e he
      have hmem : e ∈ v.entries := by
        rw [hsplit]
        exact List.mem_append_right _ (List.mem_append_left _ he)
      obtain ⟨k, hk⟩ := List.getElem?_of_mem hmem
      rcases (hstands.slot k e hk).2.2 with ⟨hfunction, -⟩ | ⟨hallowed, -⟩
      · exact hfunction (null_of_mem_lastGap he)
      · exact hforbidden hallowed

/-! ## A table that is too long -/

/-- A null, and a function behind it. -/
def nullFirst : Region := .ofBytes ([0, 0x2000].flatMap (littleBytes 8)).toArray

/-- A table has one entry, and gaps of one null may be in it. -/
def oneEntry : VtableDetector where
  pointers := ⟨.eight, .little⟩
  config := { minEntries := 1, maxEntries := 1, allowGaps := true, maxGapSize := 1, minConfidence := 0 }
  code := [(0x1000, 0x10000)]

theorem lengths_nullFirst : (oneEntry.scan nullFirst 0x100000).map (·.entries.length) = [2] := by
  decide +kernel

/-- The gap makes up for what the table has too many. -/
theorem scan_limits_nullFirst : ∃ v ∈ oneEntry.scan nullFirst 0x100000,
    1 ≤ v.entries.length ∧ v.entries.length ≤ 1 + v.lastGap.length ∧ v.lastGap.length ≤ 1 := by
  have hmem : 2 ∈ (oneEntry.scan nullFirst 0x100000).map (·.entries.length) := by simp [lengths_nullFirst]
  obtain ⟨v, hv, -⟩ := List.mem_map.mp hmem
  exact ⟨v, hv, scan_limits hv (by decide) (by decide)⟩

/-- **A table may have more entries than allowed**: the null counts, but the table is not full with it. -/
theorem scan_exceeds_limit :
    1 ≤ oneEntry.config.minEntries ∧ oneEntry.config.minEntries ≤ oneEntry.config.maxEntries ∧
      ∃ v ∈ oneEntry.scan nullFirst 0x100000, oneEntry.config.maxEntries.toNat < v.entries.length := by
  have hmem : 2 ∈ (oneEntry.scan nullFirst 0x100000).map (·.entries.length) := by simp [lengths_nullFirst]
  obtain ⟨v, hv, hlength⟩ := List.mem_map.mp hmem
  exact ⟨by decide, by decide, v, hv, hlength ▸ by decide⟩

end VtableDetector

end ClassRecovery
