/-
  Rounding up, and parts that are put one behind the other.

  A part without a recorded offset is put at the next multiple of its alignment behind what is placed
  (`Extent.toNat_of_place`).  The offsets of several such parts follow from their sizes and alignments alone
  (`packed`), and where every part has a byte, they increase (`pairwise_packed`).
-/
import ClassRecovery.Proofs.Offsets.Spans
import Mathlib.Order.Bounds.Defs

namespace ClassRecovery

/-! ## Rounding up -/

/-- The least multiple of `align` that is not below `n`.  An alignment of zero counts as one. -/
def roundUp (n align : ℕ) : ℕ :=
  let step := max align 1
  (n + (step - 1)) / step * step

theorem isLeast_roundUp (n align : ℕ) : IsLeast {k | n ≤ k ∧ max align 1 ∣ k} (roundUp n align) := by
  have hpos : 0 < max align 1 := by omega
  simp only [roundUp]
  generalize max align 1 = step at hpos
  have hdiv := Nat.div_add_mod' (n + (step - 1)) step
  have hmod := Nat.mod_lt (n + (step - 1)) hpos
  refine ⟨⟨by omega, Nat.dvd_mul_left _ _⟩, fun k hk => ?_⟩
  obtain ⟨hle, q, rfl⟩ := hk
  rw [Nat.mul_comm step q]
  refine Nat.mul_le_mul_right step (Nat.lt_succ_iff.mp ((Nat.div_lt_iff_lt_mul hpos).mpr ?_))
  rw [Nat.succ_mul, Nat.mul_comm q step]
  omega

theorem le_roundUp (n align : ℕ) : n ≤ roundUp n align := (isLeast_roundUp n align).1.1

theorem dvd_roundUp {n align : ℕ} (hpos : 0 < align) : align ∣ roundUp n align := by
  have hdvd := (isLeast_roundUp n align).1.2
  rwa [Nat.max_eq_left hpos] at hdvd

/-- What is put without a recorded offset begins at the next multiple of its alignment, and ends what is
    placed so far. -/
theorem Extent.toNat_of_place {e e' : Extent} {size align offset : Word}
    (h : e.place none size align = some (offset, e')) :
    offset.toNat = roundUp e.size.toNat align.toNat ∧ e'.size.toNat = offset.toNat + size.toNat := by
  obtain ⟨hoffset, stop, hstop, rfl⟩ := Extent.place_eq_some_iff.mp h
  have hle := le_of_alignUp hoffset
  rw [checkedAdd_eq_some_iff] at hstop
  refine ⟨toNat_alignUp hoffset, ?_⟩
  simp only [toNat_max]
  omega

/-! ## Parts behind each other -/

/-- The room that a part takes. -/
structure Room where
  size : ℕ
  align : ℕ

/-- The room that a base takes, without its virtual bases. -/
def BaseOffsetTable.room (t : BaseOffsetTable) : Room := ⟨t.nvSize.toNat, t.nvAlign.toNat⟩

/-- The offsets of parts that are put from `start` on, each at the next multiple of its alignment behind the
    one before. -/
def packed : ℕ → List Room → List ℕ
  | _, [] => []
  | start, r :: rest => roundUp start r.align :: packed (roundUp start r.align + r.size) rest

/-- Where the last of the parts ends. -/
def packedEnd : ℕ → List Room → ℕ
  | start, [] => start
  | start, r :: rest => packedEnd (roundUp start r.align + r.size) rest

theorem packed_append (start : ℕ) (l l' : List Room) :
    packed start (l ++ l') = packed start l ++ packed (packedEnd start l) l' := by
  induction l generalizing start with
  | nil => rfl
  | cons r rest ih => rw [List.cons_append, packed, packed, packedEnd, ih, List.cons_append]

theorem le_of_mem_packed {start o : ℕ} {l : List Room} (h : o ∈ packed start l) : start ≤ o := by
  induction l generalizing start with
  | nil => cases h
  | cons r rest ih =>
    have hle := le_roundUp start r.align
    rcases List.mem_cons.mp h with rfl | h
    · exact hle
    · have := ih h
      omega

/-- The offsets of parts with bytes increase. -/
theorem pairwise_packed {start : ℕ} {l : List Room} (hpos : ∀ r ∈ l, 0 < r.size) :
    (packed start l).Pairwise (· < ·) := by
  induction l generalizing start with
  | nil => exact .nil
  | cons r rest ih =>
    simp only [List.mem_cons, forall_eq_or_imp] at hpos
    refine List.pairwise_cons.mpr ⟨fun o ho => ?_, ih hpos.2⟩
    have := le_of_mem_packed ho
    omega

/-- The offset of a part is a multiple of its alignment. -/
theorem dvd_of_packed {α : Type} {offset : α → ℕ} {room : α → Room} {start : ℕ} {l : List α}
    (h : l.map offset = packed start (l.map room)) (hpos : ∀ a ∈ l, 0 < (room a).align) :
    ∀ a ∈ l, (room a).align ∣ offset a := by
  induction l generalizing start with
  | nil => exact fun a ha => absurd ha List.not_mem_nil
  | cons a rest ih =>
    obtain ⟨hfirst, hrest⟩ := List.cons_eq_cons.mp h
    simp only [List.mem_cons, forall_eq_or_imp] at hpos ⊢
    exact ⟨hfirst ▸ dvd_roundUp hpos.1, ih hrest hpos.2⟩

end ClassRecovery
