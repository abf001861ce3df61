/-
  Lists in another order.

  A stable sort depends on the order of a list only among the elements of each key (`mergeSort_congr`).
  What is found, the least and the greatest number and a map of entries do not depend on the order at
  all, if there is no choice (`find?_perm`, `min?_perm`, `max?_perm`, `OrderedMap.foldl_insert_perm`).
-/
import Mathlib.Data.List.Perm.Basic
import ClassRecovery.Proofs.OrderedMap
import ClassRecovery.Word

namespace ClassRecovery

variable {α β : Type}

/-! ## Sorting -/

section Sorting

variable (key : α → Word)

/-- Whether an element may stand before another one. -/
abbrev byKey (a b : α) : Bool := decide (key a ≤ key b)

theorem byKey_trans (a b c : α) (hab : byKey key a b = true) (hbc : byKey key b c = true) :
    byKey key a c = true :=
  decide_eq_true (UInt64.le_trans (of_decide_eq_true hab) (of_decide_eq_true hbc))

theorem byKey_total (a b : α) : (byKey key a b || byKey key b a) = true := by
  simp [UInt64.le_total]

theorem pairwise_mergeSort_byKey (l : List α) :
    (l.mergeSort (byKey key)).Pairwise fun a b => key a ≤ key b :=
  (List.pairwise_mergeSort (byKey_trans key) (byKey_total key) l).imp fun h => of_decide_eq_true h

/-- **Sorting is stable**: the elements of one key keep their order. -/
theorem filter_mergeSort (l : List α) (k : Word) :
    (l.mergeSort (byKey key)).filter (key · == k) = l.filter (key · == k) := by
  have hsorted : (l.filter (key · == k)).Pairwise fun a b => byKey key a b = true := by
    refine List.pairwise_iff_forall_sublist.mpr fun {a b} hsub => ?_
    have ha := (List.mem_filter.mp (hsub.subset (List.mem_cons_self))).2
    have hb := (List.mem_filter.mp (hsub.subset (List.mem_cons_of_mem _ List.mem_cons_self))).2
    rw [byKey, eq_of_beq ha, eq_of_beq hb]
    simp
  have hsub : (l.filter (key · == k)).Sublist (l.mergeSort (byKey key)) :=
    List.sublist_mergeSort (byKey_trans key) (byKey_total key) hsorted List.filter_sublist
  have hfiltered := hsub.filter (key · == k)
  rw [List.filter_filter] at hfiltered
  simp only [Bool.and_self] at hfiltered
  exact (hfiltered.eq_of_length ((List.mergeSort_perm l _).filter _).length_eq.symm).symm

/-- Sorted lists are determined by their elements of each key. -/
theorem eq_of_filter_eq {l l' : List α} (hl : l.Pairwise fun a b => key a ≤ key b)
    (hl' : l'.Pairwise fun a b => key a ≤ key b)
    (h : ∀ k, l.filter (key · == k) = l'.filter (key · == k)) : l = l' := by
  have hmem : ∀ a, a ∈ l ↔ a ∈ l' := fun a => by
    have := congrArg (a ∈ ·) (h (key a))
    simpa using this
  induction l generalizing l' with
  | nil => exact (List.eq_nil_iff_forall_not_mem.mpr fun a ha => by simpa using (hmem a).mpr ha).symm
  | cons a l ih =>
    cases l' with
    | nil => simpa using (hmem a).mp List.mem_cons_self
    | cons b l' =>
      obtain ⟨ha, hl⟩ := List.pairwise_cons.mp hl
      obtain ⟨hb, hl'⟩ := List.pairwise_cons.mp hl'
      have hle : key a ≤ key b := by
        rcases List.mem_cons.mp ((hmem b).mpr List.mem_cons_self) with heq | hmem
        · exact heq ▸ UInt64.le_refl _
        · exact ha b hmem
      have hge : key b ≤ key a := by
        rcases List.mem_cons.mp ((hmem a).mp List.mem_cons_self) with heq | hmem
        · exact heq ▸ UInt64.le_refl _
        · exact hb a hmem
      have hkey : key a = key b := UInt64.le_antisymm hle hge
      have hfirst := h (key a)
      rw [List.filter_cons_of_pos (by simp), List.filter_cons_of_pos (by simp [hkey])] at hfirst
      obtain ⟨hab, -⟩ := List.cons.inj hfirst
      have hrest : ∀ k, l.filter (key · == k) = l'.filter (key · == k) := fun k => by
        have hk := h k
        rw [List.filter_cons, List.filter_cons, ← hkey] at hk
        split at hk
        · exact (List.cons.inj hk).2
        · exact hk
      rw [hab, ih hl hl' hrest fun c => by simpa using congrArg (c ∈ ·) (hrest (key c))]

/-- **A stable sort** of lists with the same elements of each key, in the same order, gives the same. -/
theorem mergeSort_congr {l l' : List α}
    (h : ∀ k, l.filter (key · == k) = l'.filter (key · == k)) :
    l.mergeSort (byKey key) = l'.mergeSort (byKey key) :=
  eq_of_filter_eq key (pairwise_mergeSort_byKey key l) (pairwise_mergeSort_byKey key l') fun k => by
    rw [filter_mergeSort, filter_mergeSort, h]

end Sorting

/-! ## Lists without choice -/

variable {l l' : List α}

/-- At most one block of a list of blocks has elements that fit, so the order of the blocks makes no
    difference to these. -/
theorem filter_flatMap_perm (h : l.Perm l') {f : α → List β} {p : β → Bool}
    (hp : l.Pairwise fun a b => (f a).filter p = [] ∨ (f b).filter p = []) :
    (l.flatMap f).filter p = (l'.flatMap f).filter p := by
  induction h with
  | nil => rfl
  | cons a _ ih =>
    rw [List.flatMap_cons, List.flatMap_cons, List.filter_append, List.filter_append,
      ih (List.pairwise_cons.mp hp).2]
  | swap a b l =>
    have hab := (List.pairwise_cons.mp hp).1 a List.mem_cons_self
    simp only [List.flatMap_cons, List.filter_append]
    rcases hab with hb | ha
    · rw [hb, List.nil_append, List.nil_append]
    · rw [ha, List.nil_append, List.nil_append]
  | trans hfirst _ ih ih' =>
    exact (ih hp).trans (ih' (hfirst.pairwise hp fun hor => hor.symm))

/-- If at most one element fits, it is found in any order. -/
theorem find?_perm (h : l.Perm l') {p : α → Bool}
    (hp : l.Pairwise fun a b => p a = false ∨ p b = false) : l.find? p = l'.find? p := by
  have hsame := filter_flatMap_perm (f := fun a => [a]) (p := p) h
    (hp.imp fun hor => hor.imp (by simp [·]) (by simp [·]))
  rw [List.flatMap_singleton', List.flatMap_singleton'] at hsame
  rw [← List.head?_filter, ← List.head?_filter, hsame]

theorem min?_perm {l l' : List Word} (h : l.Perm l') : l.min? = l'.min? := by
  refine Option.ext fun a => ?_
  rw [List.min?_eq_some_iff, List.min?_eq_some_iff, h.mem_iff]
  simp only [h.mem_iff]

instance : Std.LawfulOrderMax Word := .of_max_le_iff
  (fun a b c => by
    rw [UInt64.max_def]
    split
    · next hab => exact ⟨fun hc => ⟨UInt64.le_trans hab hc, hc⟩, fun hand => hand.2⟩
    · next hab =>
      have hba := (UInt64.le_total a b).resolve_left hab
      exact ⟨fun hc => ⟨hc, UInt64.le_trans hba hc⟩, fun hand => hand.1⟩)
  (fun a b => by
    rw [UInt64.max_def]
    split
    · exact .inr rfl
    · exact .inl rfl)

theorem max?_perm {l l' : List Word} (h : l.Perm l') : l.max? = l'.max? := by
  refine Option.ext fun a => ?_
  rw [List.max?_eq_some_iff, List.max?_eq_some_iff, h.mem_iff]
  simp only [h.mem_iff]

/-! ## Maps of entries -/

/-- **Writing entries into a map**: their order makes no difference, if for each key there is one value. -/
theorem OrderedMap.foldl_insert_perm {K V : Type} [OrderedKey K] [DecidableEq K] (h : l.Perm l')
    {key : α → K} {value : α → V}
    (hvalue : ∀ a ∈ l, ∀ b ∈ l, key a = key b → value a = value b) (m : OrderedMap K V) :
    l.foldl (fun m a => m.insert (key a) (value a)) m =
      l'.foldl (fun m a => m.insert (key a) (value a)) m := by
  refine h.foldl_eq' (fun a ha b hb m => OrderedMap.ext fun k => ?_) m
  simp only [get?_insert]
  by_cases hka : k = key a
  · by_cases hkb : k = key b
    · rw [if_pos hka, if_pos hkb, if_pos hkb, if_pos hka, hvalue a ha b hb (hka.symm.trans hkb)]
    · rw [if_pos hka, if_neg hkb, if_pos hka]
  · rw [if_neg hka, if_neg hka]

end ClassRecovery
