/-
  The slots at a position.

  From a position on, slots follow each other as long as they hold functions, or null where gaps are allowed.  `Run` is
  the course of this, without a bound on its length; as each slot takes bytes of the section, it always comes to an
  end (`VtableDetector.run_slots`).  Slots lie side by side (`VtableDetector.Run.slot`), with few nulls in a row
  (`VtableDetector.Run.sparse`); a table has them up to the last one that is not null.
-/
import ClassRecovery.Proofs.Memory
import ClassRecovery.Proofs.Vtable.Scan

namespace ClassRecovery

namespace VtableDetector

variable (d : VtableDetector) (region : Region)

/-! ## The course of a run -/

/-- The slot can be one of a table: it holds a function, or it is null, and gaps are allowed. -/
def Admits (e : VtableEntry) : Prop :=
  e.target ≠ 0 ∧ d.isFunction e.target = true ∨ d.config.allowGaps = true ∧ e.target = 0

/-- The slots from a position on, when the table starts at `start`, has `count` slots before them, and `gaps` null
    slots stand right before them. -/
inductive Run (start : Nat) : Nat → Nat → Nat → List VtableEntry → Prop
  /-- No pointer can be read. -/
  | outside {position gaps count : Nat} :
    d.pointers.pointer? region position = none → Run start position gaps count []
  /-- A null slot where no gap is allowed, or too many nulls in a row. -/
  | closed {position gaps count : Nat} :
    d.pointers.pointer? region position = some 0 →
    ¬ (d.config.allowGaps = true ∧ gaps < d.config.maxGapSize.toNat) → Run start position gaps count []
  | gap {position gaps count : Nat} {rest : List VtableEntry} :
    d.pointers.pointer? region position = some 0 → d.config.allowGaps = true → gaps < d.config.maxGapSize.toNat →
    Run start (position + d.pointers.size) (gaps + 1) (count + 1) rest →
    Run start position gaps count ({ offset := UInt64.ofNat (position - start), target := 0 } :: rest)
  /-- Something else than a function. -/
  | stray {position gaps count : Nat} {target : Address} :
    d.pointers.pointer? region position = some target → target ≠ 0 → d.isFunction target = false →
    Run start position gaps count []
  /-- The slot with which the table is full. -/
  | full {position gaps count : Nat} {target : Address} :
    d.pointers.pointer? region position = some target → target ≠ 0 → d.isFunction target = true →
    d.config.maxEntries.toNat ≤ count + 1 →
    Run start position gaps count [d.entry (UInt64.ofNat (position - start)) target]
  | function {position gaps count : Nat} {target : Address} {rest : List VtableEntry} :
    d.pointers.pointer? region position = some target → target ≠ 0 → d.isFunction target = true →
    count + 1 < d.config.maxEntries.toNat → Run start (position + d.pointers.size) 0 (count + 1) rest →
    Run start position gaps count (d.entry (UInt64.ofNat (position - start)) target :: rest)

variable {d region}

theorem size_pos (d : VtableDetector) : 0 < d.pointers.size := d.pointers.width.bytes_pos

/-- **A run comes to an end** before the bytes do. -/
theorem run_slots (d : VtableDetector) (region : Region) (start : Nat) {fuel position : Nat}
    (hfuel : region.size < fuel + position) (gaps count : Nat) :
    d.Run region start position gaps count (d.slots region start fuel position gaps count) := by
  induction fuel generalizing position gaps count with
  | zero =>
    cases hpointer : d.pointers.pointer? region position with
    | none => exact .outside hpointer
    | some target =>
      have := PointerFormat.fits_of_pointer? hpointer
      omega
  | succ fuel ih =>
    have hnext : region.size < fuel + (position + d.pointers.size) := by
      have := d.size_pos
      omega
    rw [slots]
    cases hpointer : d.pointers.pointer? region position with
    | none => exact .outside hpointer
    | some target =>
      dsimp only
      split
      · next hnull =>
        subst hnull
        split
        · next hgap =>
          rw [Bool.and_eq_true, decide_eq_true_eq] at hgap
          exact .gap hpointer hgap.1 hgap.2 (ih hnext _ _)
        · next hgap =>
          rw [Bool.and_eq_true, decide_eq_true_eq] at hgap
          exact .closed hpointer hgap
      · next hnull =>
        split
        · next hfunction =>
          split
          · next hfull => exact .full hpointer hnull hfunction hfull
          · next hroom => exact .function hpointer hnull hfunction (Nat.lt_of_not_le hroom) (ih hnext _ _)
        · next hfunction => exact .stray hpointer hnull (Bool.not_eq_true _ ▸ hfunction)

/-! ## The slots of a run -/

/-- **The slots of a run** lie side by side, and hold what a table can hold. -/
theorem Run.slot {start position gaps count : Nat} {slots : List VtableEntry}
    (h : d.Run region start position gaps count slots) (hstart : start ≤ position) {k : Nat} {e : VtableEntry}
    (he : slots[k]? = some e) :
    e.offset = UInt64.ofNat (position - start + k * d.pointers.size) ∧
      d.pointers.pointer? region (position + k * d.pointers.size) = some e.target ∧ d.Admits e := by
  induction h generalizing k with
  | outside | closed | stray => simp at he
  | gap hpointer hallowed _ _ ih =>
    cases k with
    | zero =>
      cases he
      simp [hpointer, Admits, hallowed]
    | succ k =>
      have hslot := ih (by omega) he
      rw [Nat.succ_mul, Nat.add_comm (k * _)]
      simpa [← Nat.add_assoc, Nat.sub_add_comm hstart] using hslot
  | full hpointer hnull hfunction _ =>
    cases k with
    | zero =>
      cases he
      simp [hpointer, Admits, entry, hnull, hfunction]
    | succ k => simp at he
  | function hpointer hnull hfunction _ _ ih =>
    cases k with
    | zero =>
      cases he
      simp [hpointer, Admits, entry, hnull, hfunction]
    | succ k =>
      have hslot := ih (by omega) he
      rw [Nat.succ_mul, Nat.add_comm (k * _)]
      simpa [← Nat.add_assoc, Nat.sub_add_comm hstart] using hslot

/-! ## Gaps -/

/-- Behind `gaps` null slots, there are never more nulls in a row than a gap may have. -/
structure Sparse (d : VtableDetector) (gaps : Nat) (slots : List VtableEntry) : Prop where
  front : ∀ nulls, nulls <+: slots → (∀ e ∈ nulls, e.target = 0) → gaps + nulls.length ≤ d.config.maxGapSize.toNat
  row : ∀ nulls, nulls <:+: slots → (∀ e ∈ nulls, e.target = 0) → nulls.length ≤ d.config.maxGapSize.toNat

namespace Sparse

variable {gaps : Nat} {e : VtableEntry} {slots rest : List VtableEntry}

theorem nil (hgaps : gaps ≤ d.config.maxGapSize.toNat) : d.Sparse gaps [] := by
  refine ⟨fun nulls hnulls _ => ?_, fun nulls hnulls _ => ?_⟩
  · rw [List.prefix_nil.mp hnulls]
    exact hgaps
  · rw [List.infix_nil.mp hnulls]
    exact Nat.zero_le _

theorem of_front (hfront : ∀ nulls, nulls <+: e :: rest → (∀ e ∈ nulls, e.target = 0) →
    gaps + nulls.length ≤ d.config.maxGapSize.toNat) {gaps' : Nat} (h : d.Sparse gaps' rest) :
    d.Sparse gaps (e :: rest) := by
  refine ⟨hfront, fun nulls hnulls hnull => ?_⟩
  rcases List.infix_cons_iff.mp hnulls with hnulls | hnulls
  · exact Nat.le_trans (Nat.le_add_left _ _) (hfront nulls hnulls hnull)
  · exact h.row nulls hnulls hnull

/-- A null continues the gap. -/
theorem null (h : d.Sparse (gaps + 1) rest) : d.Sparse gaps (e :: rest) := by
  refine of_front (fun nulls hnulls hnull => ?_) h
  rcases List.prefix_cons_iff.mp hnulls with rfl | ⟨more, rfl, hmore⟩
  · have := h.front [] List.nil_prefix (by simp)
    simp only [List.length_nil] at this ⊢
    omega
  · have := h.front more hmore fun e he => hnull e (List.mem_cons_of_mem _ he)
    simp only [List.length_cons]
    omega

/-- A function ends the gap. -/
theorem function (h : d.Sparse 0 rest) (hgaps : gaps ≤ d.config.maxGapSize.toNat) (he : e.target ≠ 0) :
    d.Sparse gaps (e :: rest) := by
  refine of_front (fun nulls hnulls hnull => ?_) h
  rcases List.prefix_cons_iff.mp hnulls with rfl | ⟨more, rfl, -⟩
  · exact hgaps
  · exact absurd (hnull e List.mem_cons_self) he

theorem mono (h : d.Sparse gaps slots) (hrest : rest <+: slots) : d.Sparse gaps rest :=
  ⟨fun nulls hnulls => h.front nulls (hnulls.trans hrest),
    fun nulls hnulls => h.row nulls (hnulls.trans hrest.isInfix)⟩

end Sparse

/-- **The gaps of a run** are not too large. -/
theorem Run.sparse {start position gaps count : Nat} {slots : List VtableEntry}
    (h : d.Run region start position gaps count slots) (hgaps : gaps ≤ d.config.maxGapSize.toNat) :
    d.Sparse gaps slots := by
  induction h with
  | outside | closed | stray => exact .nil hgaps
  | gap _ _ hlt _ ih => exact (ih hlt).null
  | full _ hne _ _ => exact .function (.nil (Nat.zero_le _)) hgaps hne
  | function _ hne _ _ _ ih => exact .function (ih (Nat.zero_le _)) hgaps hne

/-! ## Without the gap at the end -/

theorem withoutTrailingGaps_prefix (slots : List VtableEntry) : withoutTrailingGaps slots <+: slots := by
  have hsuffix : slots.reverse.dropWhile (fun e => e.target = 0) <:+ slots.reverse := List.dropWhile_suffix _
  rw [← List.reverse_prefix, List.reverse_reverse] at hsuffix
  exact hsuffix

/-- The last slot is not null. -/
theorem ne_zero_of_getLast? {slots : List VtableEntry} {e : VtableEntry}
    (h : (withoutTrailingGaps slots).getLast? = some e) : e.target ≠ 0 := by
  rw [withoutTrailingGaps, List.getLast?_reverse] at h
  have hstop := List.head?_dropWhile_not (fun e : VtableEntry => decide (e.target = 0)) slots.reverse
  simp only [h] at hstop
  exact of_decide_eq_false hstop

end VtableDetector

end ClassRecovery
