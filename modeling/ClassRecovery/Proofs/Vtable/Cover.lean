/-
  Where a scan reports tables.

  A scan goes from position to position, and past every table that it reports (`Scans`).  So the tables lie side by
  side, and where a table could be reported, and none that is reported before covers the place, it is
  (`VtableDetector.scan_cover`).
-/
import ClassRecovery.Proofs.Vtable.Runs

namespace ClassRecovery

/-- A table at a position of a section. -/
structure PlacedTable where
  position : Nat
  table : Vtable

/-- The position behind the last slot. -/
def PlacedTable.stop (t : PlacedTable) (pointers : PointerFormat) : Nat :=
  t.position + t.table.entries.length * pointers.size

namespace VtableDetector

variable (d : VtableDetector) (region : Region) (base : Address)

/-! ## The course of a scan -/

/-- The tables that are reported from a position on. -/
inductive Scans : Nat → List PlacedTable → Prop
  | outside {position : Nat} : region.size < position + d.pointers.size → Scans position []
  | table {position : Nat} {v : Vtable} {rest : List PlacedTable} :
    position + d.pointers.size ≤ region.size → d.report? region base position = some v →
    Scans (position + v.entries.length * d.pointers.size) rest → Scans position (⟨position, v⟩ :: rest)
  | skip {position : Nat} {rest : List PlacedTable} :
    position + d.pointers.size ≤ region.size → d.report? region base position = none →
    Scans (position + d.pointers.size) rest → Scans position rest

/-- The position is one of those that are scanned from another one on, if no table is skipped. -/
def IsScanned (first i : Nat) : Prop := i + d.pointers.size ≤ region.size ∧ ∃ k, i = first + k * d.pointers.size

/-- **A table stands at its position**: its slots lie side by side in the section, the last one is not null, and
    there are not too many nulls in a row. -/
structure Stands (t : PlacedTable) : Prop where
  address : t.table.address = base + UInt64.ofNat t.position
  nonempty : t.table.entries ≠ []
  fits : t.stop d.pointers ≤ region.size
  slot : ∀ (k : Nat) e, t.table.entries[k]? = some e → e.offset = UInt64.ofNat (k * d.pointers.size) ∧
    d.pointers.pointer? region (t.position + k * d.pointers.size) = some e.target ∧ d.Admits e
  gaps : ∀ nulls, nulls <:+: t.table.entries → (∀ e ∈ nulls, e.target = 0) →
    nulls.length ≤ d.config.maxGapSize.toNat
  last : ∀ e, t.table.entries.getLast? = some e → e.target ≠ 0

variable {d region base}

/-- **What is reported stands in the section.** -/
theorem stands_of_report {i : Nat} {v : Vtable} (h : d.report? region base i = some v) :
    d.Stands region base ⟨i, v⟩ := by
  obtain ⟨haddress, hentries⟩ := of_report h
  have hlength := le_length_of_report h
  have hrun := run_slots d region i (show region.size < region.size + 1 + i by omega) 0 0
  have hkept : v.entries <+: d.slots region i (region.size + 1) i 0 0 := hentries ▸ withoutTrailingGaps_prefix _
  have hslot (k : Nat) (e : VtableEntry) (he : v.entries[k]? = some e) :
      e.offset = UInt64.ofNat (k * d.pointers.size) ∧
        d.pointers.pointer? region (i + k * d.pointers.size) = some e.target ∧ d.Admits e := by
    obtain ⟨hk, rfl⟩ := List.getElem?_eq_some_iff.mp he
    simpa using hrun.slot (Nat.le_refl i) (List.prefix_iff_getElem?.mp hkept k hk)
  obtain ⟨n, hn⟩ : ∃ n, v.entries.length = n + 1 := Nat.exists_eq_succ_of_ne_zero (by omega)
  refine ⟨haddress, ?_, ?_, hslot, ((hrun.sparse (Nat.zero_le _)).mono hkept).row, ?_⟩
  · exact List.ne_nil_of_length_eq_add_one hn
  · have hlast : v.entries[n]? = some v.entries[n] := List.getElem?_eq_getElem (by omega)
    have hfits := PointerFormat.fits_of_pointer? (hslot n _ hlast).2.1
    simpa only [PlacedTable.stop, hn, Nat.succ_mul, ← Nat.add_assoc] using hfits
  · rw [hentries]
    exact fun e he => ne_zero_of_getLast? he

/-! ## Positions -/

namespace IsScanned

variable {first i : Nat}

theorem le (h : d.IsScanned region first i) : first ≤ i := by
  obtain ⟨-, k, rfl⟩ := h
  exact Nat.le_add_right _ _

theorem of_later {n : Nat} (h : d.IsScanned region (first + n * d.pointers.size) i) : d.IsScanned region first i := by
  obtain ⟨hfits, k, rfl⟩ := h
  exact ⟨hfits, n + k, by rw [Nat.add_mul, Nat.add_assoc]⟩

/-- A position is one of the next ones, or it is scanned from behind them on. -/
theorem lt_or_later (h : d.IsScanned region first i) (n : Nat) :
    i < first + n * d.pointers.size ∨ d.IsScanned region (first + n * d.pointers.size) i := by
  obtain ⟨hfits, k, rfl⟩ := h
  rcases Nat.lt_or_ge k n with hlt | hle
  · have := Nat.mul_lt_mul_of_pos_right hlt d.size_pos
    exact .inl (by omega)
  · refine .inr ⟨hfits, k - n, ?_⟩
    rw [Nat.add_assoc, ← Nat.add_mul, Nat.add_sub_cancel' hle]

theorem eq_or_later (h : d.IsScanned region first i) :
    i = first ∨ d.IsScanned region (first + d.pointers.size) i := by
  obtain ⟨hfits, _ | k, rfl⟩ := h
  · simp
  · exact .inr ⟨hfits, k, by rw [Nat.succ_mul]; omega⟩

end IsScanned

/-- **Tables are reported where they are scanned for**, and side by side. -/
theorem Scans.placed {first : Nat} {placed : List PlacedTable} (h : d.Scans region base first placed) :
    (∀ t ∈ placed, d.IsScanned region first t.position ∧ d.report? region base t.position = some t.table) ∧
      placed.Pairwise fun t t' => t.stop d.pointers ≤ t'.position := by
  induction h with
  | outside => exact ⟨by simp, .nil⟩
  | @table position v rest hfits hreport _ ih =>
    obtain ⟨hrest, hapart⟩ := ih
    refine ⟨List.forall_mem_cons.mpr ⟨⟨⟨hfits, 0, by simp⟩, hreport⟩, fun t ht => ?_⟩, ?_⟩
    · exact (hrest t ht).imp_left IsScanned.of_later
    · exact List.pairwise_cons.mpr ⟨fun t ht => (hrest t ht).1.le, hapart⟩
  | @skip position rest _ _ _ ih =>
    obtain ⟨hrest, hapart⟩ := ih
    rw [← Nat.one_mul d.pointers.size] at hrest
    exact ⟨fun t ht => (hrest t ht).imp_left IsScanned.of_later, hapart⟩

/-- **A table is reported** where one can be, unless one that is reported before covers the place. -/
theorem Scans.mem_iff {first : Nat} {placed : List PlacedTable} (h : d.Scans region base first placed)
    {i : Nat} (hi : d.IsScanned region first i) (v : Vtable) :
    ⟨i, v⟩ ∈ placed ↔
      (∀ t ∈ placed, t.position < i → t.stop d.pointers ≤ i) ∧ d.report? region base i = some v := by
  induction h with
  | outside hout =>
    have := hi.le
    have := hi.1
    omega
  | @table position u rest hfits hreport hscans ih =>
    have hbehind (t : PlacedTable) (ht : t ∈ rest) : position + u.entries.length * d.pointers.size ≤ t.position :=
      (hscans.placed.1 t ht).1.le
    have hpos : 0 < u.entries.length * d.pointers.size :=
      Nat.mul_pos (by have := le_length_of_report hreport; omega) d.size_pos
    rcases hi.lt_or_later u.entries.length with hinside | hlater
    · have hnot (w : Vtable) : ⟨i, w⟩ ∉ rest := fun hmem => Nat.not_le_of_lt hinside (hbehind _ hmem)
      rcases Nat.eq_or_lt_of_le hi.le with rfl | hlt
      · have hfree : ∀ t ∈ (⟨position, u⟩ : PlacedTable) :: rest, t.position < position → t.stop d.pointers ≤ position :=
          List.forall_mem_cons.mpr ⟨fun hlt => absurd hlt (Nat.lt_irrefl _), fun t ht hlt => by
            have := hbehind t ht
            omega⟩
        rw [List.mem_cons, or_iff_left (hnot v), and_iff_right hfree, hreport, PlacedTable.mk.injEq,
          and_iff_right rfl, Option.some.injEq, eq_comm]
      · have hcovered : ¬ position + u.entries.length * d.pointers.size ≤ i := Nat.not_le_of_lt hinside
        constructor
        · intro hmem
          rcases List.mem_cons.mp hmem with heq | hmem
          · cases heq
            exact absurd hlt (Nat.lt_irrefl _)
          · exact absurd hmem (hnot v)
        · exact fun hfree => absurd (hfree.1 _ List.mem_cons_self hlt) hcovered
    · have hbefore : position < i := by
        have := hlater.le
        omega
      have hne : (⟨i, v⟩ : PlacedTable) ≠ ⟨position, u⟩ := fun heq => Nat.ne_of_gt hbefore (PlacedTable.mk.inj heq).1
      rw [List.mem_cons, or_iff_right hne, ih hlater, List.forall_mem_cons]
      have hstop : position < i → PlacedTable.stop ⟨position, u⟩ d.pointers ≤ i := fun _ => hlater.le
      rw [and_iff_right hstop]
  | @skip position rest hfits hreport hscans ih =>
    rcases hi.eq_or_later with rfl | hlater
    · have hnot : ⟨i, v⟩ ∉ rest := fun hmem =>
        Nat.not_le_of_lt (Nat.lt_add_of_pos_right d.size_pos) (hscans.placed.1 _ hmem).1.le
      simp [hnot, hreport]
    · exact ih hlater

/-! ## Addresses -/

end VtableDetector

end ClassRecovery
