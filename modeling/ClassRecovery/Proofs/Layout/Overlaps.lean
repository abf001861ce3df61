/-
  Neighbours tell all overlaps.

  Whether fields overlap is asked of neighbours only.  A field does not end before it begins, so where every field
  ends before the next one begins, it also ends before all further ones: the answer is no exactly if the fields are
  apart, in whatever order they are listed (`Layout.hasOverlaps_eq_false_iff`).  Among fields that are in order and fit,
  to be apart is to share no byte (`Layout.apart_iff`), so the answer is exact (`Layout.hasOverlaps_exact`).  In what
  is written to a layout without fields, it is always no (`Layout.hasOverlaps_writeAll`).
-/
import ClassRecovery.Proofs.Layout.Bytes

namespace ClassRecovery

/-! ## Neighbours in a list -/

theorem any_neighbours_eq_false_iff {α : Type} {p : α → α → Bool} {l : List α} :
    ((l.zip l.tail).any fun ab => p ab.1 ab.2) = false ↔ l.IsChain fun a b => p a b = false := by
  induction l with
  | nil => simp
  | cons a rest ih =>
    cases rest with
    | nil => simp
    | cons b rest => simpa [List.isChain_cons_cons] using fun _ => ih

/-- Two places of a list hold what is in a symmetric relation. -/
theorem exists_ne_iff {α : Type} {R : α → α → Prop} (hsymm : ∀ a b, R a b → R b a) {l : List α} :
    (∃ i j : Fin l.length, i ≠ j ∧ R l[i] l[j]) ↔ ¬ l.Pairwise fun a b => ¬ R a b := by
  rw [List.pairwise_iff_getElem]
  constructor
  · rintro ⟨i, j, hne, hR⟩ hnone
    rcases Nat.lt_or_gt_of_ne (Fin.val_ne_of_ne hne) with hlt | hlt
    · exact hnone i j i.isLt j.isLt hlt hR
    · exact hnone j i j.isLt i.isLt hlt (hsymm _ _ hR)
  · intro hnot
    simp only [not_forall, Classical.not_not] at hnot
    obtain ⟨i, j, hi, hj, hlt, hR⟩ := hnot
    exact ⟨⟨i, hi⟩, ⟨j, hj⟩, Fin.ne_of_val_ne (Nat.ne_of_lt hlt), hR⟩

/-! ## Two fields -/

namespace Field

theorem offset_le_stop (f : Field) : f.offset.toNat ≤ f.stop.toNat := by
  have hlast : f.offset.toNat ≤ maxWord.toNat := Nat.le_of_lt_succ f.offset.toNat_lt
  rw [toNat_stop_eq]
  exact Nat.le_min.mpr ⟨Nat.le_add_right _ _, hlast⟩

/-- The field ends before the other begins. -/
def Before (f g : Field) : Prop := f.stop.toNat ≤ g.offset.toNat

instance : Trans Before Before Before :=
  ⟨fun {_ g _} h h' => Nat.le_trans h (Nat.le_trans g.offset_le_stop h')⟩

theorem Before.not_shares {f g : Field} (hf : f.Fits) (h : f.Before g) : ¬ f.Shares g := by
  rintro ⟨b, hb, hb'⟩
  have hlt : b < f.stop.toNat := hf.toNat_stop ▸ hb.2
  exact absurd (Nat.lt_of_lt_of_le hlt h) (Nat.not_lt.mpr hb'.1)

/-- Of two fields in order that share no byte, the first ends before the second begins. -/
theorem before_of_not_shares {f g : Field} (hg : g.size ≠ 0) (hle : f.offset ≤ g.offset) (h : ¬ f.Shares g) :
    f.Before g := by
  have hlow := UInt64.le_iff_toNat_le.mp hle
  have hpos := toNat_size_pos hg
  have hstop : f.stop.toNat ≤ f.span.stop := f.toNat_stop_le
  have hspan : g.span.stop = g.offset.toNat + g.size.toNat := rfl
  rw [shares_iff] at h
  rw [Before]
  omega

end Field

/-! ## All fields -/

namespace Layout

/-- **Where no neighbours overlap, the fields are apart**, whatever their order and their sizes. -/
theorem hasOverlaps_eq_false_iff {l : Layout} : l.hasOverlaps = false ↔ Apart l.fields := by
  have hbefore (f g : Field) : decide (g.offset < f.stop) = false ↔ f.Before g := by
    rw [decide_eq_false_iff_not, UInt64.lt_iff_toNat_lt, Nat.not_lt, Field.Before]
  have hneighbours : l.hasOverlaps = false ↔ l.fields.IsChain Field.Before := by
    refine (any_neighbours_eq_false_iff (p := fun f g : Field => g.offset < f.stop)).trans ?_
    simp only [hbefore]
  rw [hneighbours, List.isChain_iff_pairwise]
  rfl

theorem Orderly.apart {l : Layout} (hl : l.Orderly) : Apart l.fields :=
  (hl.disjoint.and hl.sorted).imp_of_mem fun _ hg h => Field.before_of_not_shares (hl.filled _ hg) h.2 h.1

/-- Fields in order are apart if no two of them share a byte. -/
theorem apart_iff {l : Layout} (hfits : ∀ f ∈ l.fields, f.Fits)
    (hsorted : l.fields.Pairwise fun f g => f.offset ≤ g.offset) :
    Apart l.fields ↔ l.fields.Pairwise fun f g => ¬ f.Shares g := by
  constructor
  · exact fun h => h.imp_of_mem fun hf _ hbefore => Field.Before.not_shares (hfits _ hf) hbefore
  · exact fun h => Orderly.apart ⟨fun f hf => (hfits f hf).1, hsorted, h⟩

/-- Whatever is written to a layout without fields, no fields overlap in it. -/
theorem hasOverlaps_writeAll (name : String) (size alignment : Word) (writes : List Write) :
    ((empty name size alignment).writeAll writes).hasOverlaps = false := by
  have hempty : (empty name size alignment).Contained := ⟨orderly_empty name size alignment, by simp [empty]⟩
  exact hasOverlaps_eq_false_iff.mpr (hempty.writeAll writes).apart

/-- **The answer is exact.**  Of a layout with its fields in order, each of which has bytes and none beyond the address
    space, neighbours overlap if and only if some two fields have a byte in common, that is if and only if one field
    overlaps with the range of another. -/
theorem hasOverlaps_exact (l : Layout) (hfits : ∀ f ∈ l.fields, f.Fits)
    (hsorted : l.fields.Pairwise fun f g => f.offset ≤ g.offset) :
    (l.hasOverlaps = true ↔ ∃ i j : Fin l.fields.length, i ≠ j ∧ l.fields[i].Shares l.fields[j]) ∧
    (l.hasOverlaps = true ↔ ∃ i j : Fin l.fields.length, i ≠ j ∧
      l.fields[i].overlaps l.fields[j].offset l.fields[j].stop = true) := by
  have hshares : l.hasOverlaps = true ↔
      ∃ i j : Fin l.fields.length, i ≠ j ∧ l.fields[i].Shares l.fields[j] := by
    rw [exists_ne_iff (R := Field.Shares) fun _ _ => Field.Shares.symm, ← apart_iff hfits hsorted,
      ← hasOverlaps_eq_false_iff, Bool.not_eq_false]
  have hoverlaps (i j : Fin l.fields.length) : l.fields[i].Shares l.fields[j] ↔
      l.fields[i].overlaps l.fields[j].offset l.fields[j].stop = true :=
    (Field.overlaps_iff_shares (hfits _ (List.getElem_mem _)) (hfits _ (List.getElem_mem _)).1).symm
  refine ⟨hshares, hshares.trans ?_⟩
  simp only [hoverlaps]

/-- A long field, with two short ones over its bytes, and one that begins where the last of these ends. -/
def covered : Layout :=
  ⟨"covered", [.undefined 0 12, .undefined 2 2, .undefined 8 2, .undefined 10 4], 14, 1⟩

/-- The last field shares bytes with the first, far in front of it, and with no other.  So there are overlaps, and none
    once the first is gone. -/
theorem hasOverlaps_exact_covered :
    (∀ f ∈ covered.fields, f.size ≠ 0 ∧ f.span.stop < UInt64.size) ∧
    (covered.fields.Pairwise fun f g => f.offset ≤ g.offset) ∧
    (Field.undefined 0 12).Shares (.undefined 10 4) ∧ covered.hasOverlaps = true ∧
    { covered with fields := covered.fields.tail }.hasOverlaps = false := by
  have hfits : ∀ f ∈ covered.fields, f.size ≠ 0 ∧ f.span.stop < UInt64.size := by decide
  have hsorted : covered.fields.Pairwise fun f g => f.offset ≤ g.offset := by decide
  have hshares : (Field.undefined 0 12).Shares (.undefined 10 4) := by decide
  have hexact := hasOverlaps_exact covered (fun f hf => Field.fits_iff.mpr (hfits f hf)) hsorted
  exact ⟨hfits, hsorted, hshares, hexact.1.mpr ⟨⟨0, by decide⟩, ⟨3, by decide⟩, by decide, hshares⟩, by decide⟩

end Layout

end ClassRecovery
