/-
  Tables that a scan reports.

  Every table of a scan was reported at some position of a section (`VtableDetector.exists_report_of_mem_scan`).
  There it stands, and its slots are those found there (`VtableDetector.of_report`).  A slot knows what
  the detector knows about its target (`VtableDetector.Fills`).
-/
import ClassRecovery.Vtable.Scan

namespace ClassRecovery

namespace VtableDetector

variable {d : VtableDetector} {region : Region} {base : Address}

/-! ## Reports -/

theorem of_report {position : Nat} {v : Vtable} (h : d.report? region base position = some v) :
    v.address = base + UInt64.ofNat position ∧
      v.entries = withoutTrailingGaps (d.slots region position (region.size + 1) position 0 0) := by
  have hdetect := (Option.filter_eq_some_iff.mp h).1
  simp only [detect?] at hdetect
  split at hdetect
  · cases hdetect
  · cases hdetect
    exact ⟨rfl, rfl⟩

theorem le_length_of_report {position : Nat} {v : Vtable} (h : d.report? region base position = some v) :
    max d.config.minEntries.toNat 1 ≤ v.entries.length := by
  have hdetect := (Option.filter_eq_some_iff.mp h).1
  simp only [detect?] at hdetect
  split at hdetect
  · cases hdetect
  · next hlength =>
    cases hdetect
    exact Nat.le_of_not_lt hlength

theorem exists_report_of_mem_scanFrom {position : Nat} {v : Vtable}
    (h : v ∈ d.scanFrom region base position) :
    ∃ i < region.size, d.report? region base i = some v := by
  fun_induction scanFrom with
  | case1 position hfits v' hreport ih =>
    rcases List.mem_cons.mp h with rfl | hmem
    · have := d.pointers.width.bytes_pos
      exact ⟨position, by simp only [PointerFormat.size] at hfits; omega, hreport⟩
    · exact ih hmem
  | case2 position hfits hreport ih => exact ih h
  | case3 => cases h

/-- **The tables of a scan** were reported somewhere in the section. -/
theorem exists_report_of_mem_scan {v : Vtable} (h : v ∈ d.scan region base) :
    ∃ i < region.size, d.report? region base i = some v :=
  exists_report_of_mem_scanFrom h

/-! ## Slots -/

/-- The slot knows what the detector knows about its target, or is null. -/
def Fills (d : VtableDetector) (e : VtableEntry) : Prop :=
  e.target ≠ 0 ∧ e.thunk = d.thunks.get? e.target ∨ e.target = 0 ∧ e.thunk = none

theorem fills_of_mem_slots {start fuel position gaps count : Nat} {e : VtableEntry}
    (h : e ∈ d.slots region start fuel position gaps count) : d.Fills e := by
  induction fuel generalizing position gaps count with
  | zero => cases h
  | succ fuel ih =>
    simp only [slots] at h
    split at h
    · cases h
    · split at h
      · next hnull =>
        split at h
        · rcases List.mem_cons.mp h with rfl | hmem
          · exact .inr ⟨hnull, rfl⟩
          · exact ih hmem
        · cases h
      · next hnull =>
        split at h
        · rcases List.mem_cons.mp h with rfl | hmem
          · exact .inl ⟨hnull, rfl⟩
          · split at hmem
            · cases hmem
            · exact ih hmem
        · cases h

theorem mem_of_withoutTrailingGaps {l : List VtableEntry} {e : VtableEntry}
    (h : e ∈ withoutTrailingGaps l) : e ∈ l :=
  List.mem_reverse.mp ((List.dropWhile_sublist _).subset (List.mem_reverse.mp h))

/-- **The slots of scanned tables** know what the detector knows. -/
theorem fills_of_mem_scanSections {sections : List (String × Address × Region)} {v : Vtable}
    (h : v ∈ d.scanSections sections) : ∀ e ∈ v.entries, d.Fills e := by
  obtain ⟨s, -, hs⟩ := List.mem_flatMap.mp (List.mem_mergeSort.mp h)
  split at hs
  · obtain ⟨i, -, hreport⟩ := exists_report_of_mem_scan hs
    intro e he
    rw [(of_report hreport).2] at he
    exact fills_of_mem_slots (mem_of_withoutTrailingGaps he)
  · cases hs

end VtableDetector

end ClassRecovery
