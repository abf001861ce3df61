/-
  Where the parts of one class are.

  A class places its hidden pointers, its non-virtual bases and its data members from the beginning of the object
  upwards, and its virtual bases behind them.  Each part takes a span of bytes.  Whatever offsets are
  recorded, no span reaches beyond the size (`ClassType.nonVirtualPart?_bounded`); without recorded
  offsets the spans follow each other (`ClassType.nonVirtualPart?_stacked`, `placeVirtualBases_stacked`).
-/
import ClassRecovery.Proofs.Offsets.Placement
import Mathlib.Order.CompletePartialOrder
import Mathlib.Order.Interval.Set.Disjoint

namespace ClassRecovery

/-! ## Spans -/

/-- Bytes of an object, one behind the other. -/
structure Span where
  offset : Word
  size : Word
  deriving DecidableEq

namespace Span

/-- The position behind the last byte. -/
def stop (s : Span) : ℕ := s.offset.toNat + s.size.toNat

/-- The positions of the bytes. -/
def bytes (s : Span) : Set ℕ := Set.Ico s.offset.toNat s.stop

theorem disjoint_of_le {s s' : Span} (h : s.stop ≤ s'.offset.toNat) : Disjoint s.bytes s'.bytes :=
  Set.Ico_disjoint_Ico.mpr (Nat.le_trans (Nat.min_le_left _ _) (Nat.le_trans h (Nat.le_max_right _ _)))

/-- The span `s'` lies within `s`. -/
def Holds (s s' : Span) : Prop := s.offset.toNat ≤ s'.offset.toNat ∧ s'.stop ≤ s.stop

theorem Holds.refl (s : Span) : s.Holds s := ⟨Nat.le_refl _, Nat.le_refl _⟩

theorem Holds.subset {s s' : Span} (h : s.Holds s') : s'.bytes ⊆ s.bytes := Set.Ico_subset_Ico h.1 h.2

/-- What lies within spans that share no byte shares none. -/
theorem disjoint_of_holds {s s' r r' : Span} (hd : Disjoint s.bytes s'.bytes) (h : s.Holds r)
    (h' : s'.Holds r') : Disjoint r.bytes r'.bytes :=
  hd.mono h.subset h'.subset

end Span

/-- The spans follow each other between `lo` and `hi`. -/
structure Stacked (lo hi : ℕ) (spans : List Span) : Prop where
  le : lo ≤ hi
  within : ∀ s ∈ spans, lo ≤ s.offset.toNat ∧ s.stop ≤ hi
  ordered : spans.Pairwise fun s s' => s.stop ≤ s'.offset.toNat

namespace Stacked

variable {lo mid hi : ℕ} {l l' : List Span}

theorem nil (h : lo ≤ hi) : Stacked lo hi [] := ⟨h, by simp, .nil⟩

theorem singleton {s : Span} (hlo : lo ≤ s.offset.toNat) (hhi : s.stop ≤ hi) : Stacked lo hi [s] := by
  have hstop : s.offset.toNat ≤ s.stop := Nat.le_add_right _ _
  exact ⟨by omega, by simpa using ⟨hlo, hhi⟩, List.pairwise_singleton _ _⟩

theorem append (h : Stacked lo mid l) (h' : Stacked mid hi l') : Stacked lo hi (l ++ l') where
  le := Nat.le_trans h.le h'.le
  within s hs := by
    have := h.le
    have := h'.le
    rcases List.mem_append.mp hs with hs | hs
    · have := h.within s hs
      omega
    · have := h'.within s hs
      omega
  ordered := List.pairwise_append.mpr ⟨h.ordered, h'.ordered, fun s hs s' hs' =>
    Nat.le_trans (h.within s hs).2 (h'.within s' hs').1⟩

theorem mono {hi' : ℕ} (h : Stacked lo hi l) (hle : hi ≤ hi') : Stacked lo hi' l :=
  ⟨Nat.le_trans h.le hle, fun s hs => ⟨(h.within s hs).1, Nat.le_trans (h.within s hs).2 hle⟩, h.ordered⟩

/-- Spans that follow each other share no byte, in whatever order they are listed. -/
theorem disjoint_of_perm (h : Stacked lo hi l) (hperm : l'.Perm l) :
    l'.Pairwise fun s s' => Disjoint s.bytes s'.bytes :=
  (hperm.pairwise_iff fun hd => hd.symm).mpr (h.ordered.imp Span.disjoint_of_le)

end Stacked

/-! ## Room for one part -/

namespace Extent

variable {e e' : Extent} {recorded : Option Word} {size align offset : Word}

theorem place_eq_some_iff :
    e.place recorded size align = some (offset, e') ↔
      recorded.or (alignUp e.size align) = some offset ∧ ∃ stop, checkedAdd offset size = some stop ∧
        e' = ⟨max e.size stop, max e.align align⟩ := by
  simp only [place, bind, pure, Option.bind_eq_some_iff, Option.some.injEq, Prod.mk.injEq]
  constructor
  · rintro ⟨offset', hoffset, stop, hstop, rfl, rfl⟩
    exact ⟨hoffset, stop, hstop, rfl⟩
  · rintro ⟨hoffset, stop, hstop, rfl⟩
    exact ⟨offset, hoffset, stop, hstop, rfl, rfl⟩

/-- A part ends within the extent that holds it. -/
theorem le_of_place (h : e.place recorded size align = some (offset, e')) :
    e.size.toNat ≤ e'.size.toNat ∧ (Span.mk offset size).stop ≤ e'.size.toNat := by
  obtain ⟨-, stop, hstop, rfl⟩ := place_eq_some_iff.mp h
  simp only [Span.stop, toNat_max, ← checkedAdd_eq_some_iff.mp hstop]
  omega

/-- The alignment of an extent suits all parts of it. -/
theorem align_le_of_place (h : e.place recorded size align = some (offset, e')) :
    e.align.toNat ≤ e'.align.toNat := by
  obtain ⟨-, stop, -, rfl⟩ := place_eq_some_iff.mp h
  rw [toNat_max]
  exact Nat.le_max_left _ _

/-- Without a recorded offset a part is put behind those before it. -/
theorem stacked_of_place (h : e.place none size align = some (offset, e')) :
    Stacked e.size.toNat e'.size.toNat [⟨offset, size⟩] :=
  .singleton (le_of_alignUp (place_eq_some_iff.mp h).1) (le_of_place h).2

/-- A whole object has a byte, and has room for what is placed. -/
theorem le_of_closed {size : Word} (h : e.closed = some size) :
    e.size.toNat ≤ size.toNat ∧ 0 < size.toNat := by
  have hle := le_of_alignUp h
  have hone : (1 : Word).toNat = 1 := rfl
  rw [toNat_max, hone] at hle
  omega

end Extent

/-! ## Non-virtual bases -/

/-- The bytes of a placed base, without its virtual bases. -/
def PlacedBase.span (b : PlacedBase) : Span := ⟨b.offset, b.table.nvSize⟩

section
variable {parts : List BasePart} {e e' : Extent} {placed : List PlacedBase}

theorem placeBases_cons_eq_some_iff {p : BasePart} :
    placeBases false (p :: parts) e = some (placed, e') ↔
      ∃ offset e₁ more, e.place p.spec.offset p.table.nvSize p.table.nvAlign = some (offset, e₁) ∧
        placeBases false parts e₁ = some (more, e') ∧
        placed = ⟨p.spec.base, p.table, offset⟩ :: more := by
  simp only [placeBases, Bool.false_and, Bool.false_eq_true, if_false, bind, pure,
    Option.bind_eq_some_iff, Option.some.injEq, Prod.mk.injEq, Prod.exists]
  constructor
  · rintro ⟨offset, e₁, hplace, more, e₂, hrest, rfl, rfl⟩
    exact ⟨offset, e₁, more, hplace, hrest, rfl⟩
  · rintro ⟨offset, e₁, more, hplace, hrest, rfl⟩
    exact ⟨offset, e₁, hplace, more, e', hrest, rfl, rfl⟩

/-- Bases that are placed end within the extent. -/
theorem le_of_placeBases (h : placeBases false parts e = some (placed, e')) :
    e.size.toNat ≤ e'.size.toNat ∧ ∀ b ∈ placed, b.span.stop ≤ e'.size.toNat := by
  induction parts generalizing e placed with
  | nil =>
    simp only [placeBases, Option.some.injEq, Prod.mk.injEq] at h
    simp [← h.1, h.2]
  | cons p rest ih =>
    obtain ⟨offset, e₁, more, hplace, hrest, rfl⟩ := placeBases_cons_eq_some_iff.mp h
    obtain ⟨hgrows, hstop⟩ := Extent.le_of_place hplace
    obtain ⟨hgrows', hmore⟩ := ih hrest
    refine ⟨Nat.le_trans hgrows hgrows', ?_⟩
    simp only [List.mem_cons, forall_eq_or_imp]
    exact ⟨Nat.le_trans hstop hgrows', hmore⟩

/-- Bases without recorded offsets follow each other. -/
theorem stacked_of_placeBases (h : placeBases false parts e = some (placed, e'))
    (hnone : ∀ p ∈ parts, p.spec.offset = none) :
    Stacked e.size.toNat e'.size.toNat (placed.map (·.span)) := by
  induction parts generalizing e placed with
  | nil =>
    simp only [placeBases, Option.some.injEq, Prod.mk.injEq] at h
    simpa [← h.1, h.2] using Stacked.nil (Nat.le_refl _)
  | cons p rest ih =>
    simp only [List.mem_cons, forall_eq_or_imp] at hnone
    obtain ⟨offset, e₁, more, hplace, hrest, rfl⟩ := placeBases_cons_eq_some_iff.mp h
    rw [hnone.1] at hplace
    exact (Extent.stacked_of_place hplace).append (ih hrest hnone.2)

theorem placeBases_of_find?_eq_none (hfind : parts.find? BasePart.canBePrimary = none) (e : Extent) :
    placeBases true parts e = placeBases false parts e := by
  induction parts generalizing e with
  | nil => rfl
  | cons p rest ih =>
    obtain ⟨hp, hrest⟩ : p.canBePrimary = false ∧ rest.find? BasePart.canBePrimary = none := by
      simpa using hfind
    simp only [placeBases, hp, Bool.and_false, Bool.false_eq_true, if_false, ih hrest]

/-- The primary base is at offset zero, and the others are placed as if it were not there. -/
theorem placeBases_of_find?_eq_some {p : BasePart}
    (hfind : parts.find? BasePart.canBePrimary = some p)
    (h : placeBases true parts e = some (placed, e')) :
    ∃ before after front back e₁, parts = before ++ p :: after ∧
      (∀ q ∈ before, q.canBePrimary = false) ∧ placeBases false before e = some (front, e₁) ∧
      placeBases false after e₁ = some (back, e') ∧ placed = front ++ ⟨p.spec.base, p.table, 0⟩ :: back := by
  induction parts generalizing e placed with
  | nil => simp at hfind
  | cons q rest ih =>
    simp only [placeBases, Bool.true_and] at h
    cases hq : q.canBePrimary with
    | true =>
      obtain rfl : q = p := by simpa [hq] using hfind
      simp only [hq, if_true, bind, pure, Option.bind_eq_some_iff, Option.some.injEq,
        Prod.mk.injEq, Prod.exists] at h
      obtain ⟨back, _, hback, rfl, rfl⟩ := h
      exact ⟨[], rest, [], back, e, rfl, by simp, rfl, hback, rfl⟩
    | false =>
      have hrest : rest.find? BasePart.canBePrimary = some p := by simpa [hq] using hfind
      simp only [hq, Bool.false_eq_true, if_false, bind, pure, Option.bind_eq_some_iff,
        Option.some.injEq, Prod.mk.injEq, Prod.exists] at h
      obtain ⟨offset, e₁, hplace, more, _, hmore, rfl, rfl⟩ := h
      obtain ⟨before, after, front, back, e₂, rfl, hbefore, hfront, hback, rfl⟩ := ih hrest hmore
      exact ⟨q :: before, after, _ :: front, back, e₂, rfl, by simpa [hq] using hbefore,
        placeBases_cons_eq_some_iff.mpr ⟨offset, e₁, front, hplace, hfront, rfl⟩, hback, rfl⟩

end

/-! ## The non-virtual part -/

/-- Hidden pointers, where there are any, and data members. -/
def addedSpans (vptr vbptr : Option Word) (pointerSize : Word) (members : Span) : List Span :=
  (vptr.toList ++ vbptr.toList).map (Span.mk · pointerSize) ++ [members]

/-- What the class adds to its bases: the hidden pointers of its own, and its data members. -/
def NonVirtualPart.addedSpans (nv : NonVirtualPart) (pointerSize memberSize : Word) : List Span :=
  ClassRecovery.addedSpans (if nv.front.ownsVptr then nv.front.vptrOffset else none)
    (if nv.ownsVbptr then nv.vbptrOffset else none) pointerSize ⟨nv.membersOffset, memberSize⟩

theorem stacked_of_placeVbptr {owns : Bool} {pointerSize : Word} {e e' : Extent}
    {offset : Option Word} (h : placeVbptr owns pointerSize e = some (offset, e')) :
    Stacked e.size.toNat e'.size.toNat (offset.toList.map (Span.mk · pointerSize)) ∧
      (owns = false → offset = none) := by
  unfold placeVbptr at h
  split at h
  · next howns =>
    obtain ⟨⟨o, e₁⟩, hplace, heq⟩ := Option.map_eq_some_iff.mp h
    obtain ⟨rfl, rfl⟩ := Prod.mk.inj heq
    exact ⟨Extent.stacked_of_place hplace, by simp [howns]⟩
  · obtain ⟨rfl, rfl⟩ := Prod.mk.inj (Option.some.inj h)
    exact ⟨.nil (Nat.le_refl _), fun _ => rfl⟩

theorem ClassType.stacked_of_placeMembers {c : ClassType} {e e' : Extent} {offset : Word}
    (h : c.placeMembers e = some (offset, e')) :
    Stacked e.size.toNat e'.size.toNat [⟨offset, c.memberSize⟩] := by
  unfold placeMembers at h
  split at h
  · exact Extent.stacked_of_place h
  · next hsize =>
    obtain ⟨rfl, rfl⟩ := Prod.mk.inj (Option.some.inj h)
    have hzero : c.memberSize.toNat = 0 := by
      simpa [UInt64.lt_iff_toNat_lt] using hsize
    exact .singleton (Nat.le_refl _) (by simp [Span.stop, hzero])

section
variable {c : ClassType} {abi : Abi} {pointerSize : Word} {parts : List BasePart}
  {nv : NonVirtualPart}

/-- The steps of placing all but the virtual bases. -/
theorem ClassType.nonVirtualPart?_eq_some (h : c.nonVirtualPart? abi pointerSize parts = some nv) :
    let nonVirtual := parts.filter fun p => !p.spec.isVirtual
    nv.front = Front.of (c.needsVptr abi parts) pointerSize nonVirtual ∧
      ∃ ownVbptr e₁ e₂ e₃, placeVbptr nv.ownsVbptr pointerSize nv.front.extent = some (ownVbptr, e₁) ∧
        (if nv.ownsVbptr then nv.vbptrOffset else none) = ownVbptr ∧
        placeBases true nonVirtual e₁ = some (nv.bases, e₂) ∧
        c.placeMembers e₂ = some (nv.membersOffset, e₃) ∧ e₃.closed = some nv.extent.size ∧
        nv.extent.align = e₃.align := by
  simp only [nonVirtualPart?, bind, pure, Option.bind_eq_some_iff, Prod.exists] at h
  obtain ⟨ownVbptr, e₁, hvbptr, bases, e₂, hbases, h⟩ := h
  have hown := (stacked_of_placeVbptr hvbptr).2
  split at h <;> simp only [Option.bind_eq_some_iff, Option.some.injEq, Prod.exists] at h
  · next hinherits =>
    obtain ⟨_, -, _, e₃, hmembers, size, hsize, rfl⟩ := h
    have howns := hinherits
    simp only [Bool.and_eq_true, Bool.not_eq_true'] at howns
    refine ⟨rfl, ownVbptr, e₁, e₂, e₃, hvbptr, ?_, hbases, hmembers, hsize, rfl⟩
    simp only [howns.2, Bool.false_eq_true, if_false, hown howns.2]
  · obtain ⟨_, rfl, _, e₃, hmembers, size, hsize, rfl⟩ := h
    refine ⟨rfl, ownVbptr, e₁, e₂, e₃, hvbptr, ?_, hbases, hmembers, hsize, rfl⟩
    split
    · rfl
    · next howns => exact (hown ((Bool.not_eq_true _).mp howns)).symm

/-- An object begins with its own virtual pointer, or with the primary base. -/
theorem Front.stacked (needsVptr : Bool) (pointerSize : Word) (nonVirtual : List BasePart) :
    let front := Front.of needsVptr pointerSize nonVirtual
    Stacked 0 front.extent.size.toNat
      ((if front.ownsVptr then front.vptrOffset else none).toList.map (Span.mk · pointerSize) ++
        (nonVirtual.find? BasePart.canBePrimary).toList.map fun p => ⟨0, p.table.nvSize⟩) := by
  have whole (size : Word) : Stacked 0 size.toNat [⟨0, size⟩] :=
    .singleton (Nat.zero_le _) (by simp [Span.stop])
  unfold Front.of
  cases nonVirtual.find? BasePart.canBePrimary with
  | some p => exact whole p.table.nvSize
  | none =>
    cases needsVptr with
    | true => exact whole pointerSize
    | false => exact .nil (Nat.zero_le _)

theorem mem_addedSpans {vptr vbptr : Option Word} {members s : Span} :
    s ∈ ClassRecovery.addedSpans vptr vbptr pointerSize members ↔
      s ∈ vptr.toList.map (Span.mk · pointerSize) ∨ s ∈ vbptr.toList.map (Span.mk · pointerSize) ∨
        s = members := by
  simp only [ClassRecovery.addedSpans, List.map_append, List.mem_append, List.mem_singleton, or_assoc]

/-- **Nothing reaches beyond the size of the non-virtual part**, whatever offsets are recorded. -/
theorem ClassType.nonVirtualPart?_bounded (h : c.nonVirtualPart? abi pointerSize parts = some nv) :
    0 < nv.extent.size.toNat ∧
      (∀ s ∈ nv.addedSpans pointerSize c.memberSize, s.stop ≤ nv.extent.size.toNat) ∧
      ∀ b ∈ nv.bases, b.span.stop ≤ nv.extent.size.toNat := by
  obtain ⟨hfront, ownVbptr, e₁, e₂, e₃, hvbptr, hown, hbases, hmembers, hsize, -⟩ :=
    nonVirtualPart?_eq_some h
  have hbegin := Front.stacked (c.needsVptr abi parts) pointerSize
    (parts.filter fun p => !p.spec.isVirtual)
  rw [← hfront] at hbegin
  have hptr := (stacked_of_placeVbptr hvbptr).1
  have hlast := stacked_of_placeMembers hmembers
  obtain ⟨hclosed, hpos⟩ := Extent.le_of_closed hsize
  obtain ⟨hgrows, hplaced⟩ : e₁.size.toNat ≤ e₂.size.toNat ∧
      ∀ b ∈ nv.bases, b.span.stop ≤ e₂.size.toNat := by
    cases hfind : (parts.filter fun p => !p.spec.isVirtual).find? BasePart.canBePrimary with
    | none =>
      rw [placeBases_of_find?_eq_none hfind] at hbases
      exact le_of_placeBases hbases
    | some p =>
      obtain ⟨_, _, front, back, e, -, -, hf, hb, heq⟩ := placeBases_of_find?_eq_some hfind hbases
      obtain ⟨hgf, hfront'⟩ := le_of_placeBases hf
      obtain ⟨hgb, hback⟩ := le_of_placeBases hb
      have hprimary := (hbegin.within ⟨0, p.table.nvSize⟩ (by simp [hfind])).2
      have hvb := hptr.le
      refine ⟨Nat.le_trans hgf hgb, fun b hmem => ?_⟩
      rw [heq] at hmem
      rcases List.mem_append.mp hmem with hmem | hmem
      · exact Nat.le_trans (hfront' b hmem) hgb
      · rcases List.mem_cons.mp hmem with rfl | hmem
        · change (Span.mk 0 p.table.nvSize).stop ≤ _
          omega
        · exact hback b hmem
  have hle₁ := hptr.le
  have hle₃ := hlast.le
  refine ⟨hpos, fun s hs => ?_, fun b hb => ?_⟩
  · rw [NonVirtualPart.addedSpans, hown] at hs
    rcases mem_addedSpans.mp hs with hs | hs | rfl
    · have := (hbegin.within s (List.mem_append_left _ hs)).2
      omega
    · have := (hptr.within s hs).2
      omega
    · have := (hlast.within _ (List.mem_singleton_self _)).2
      omega
  · have := hplaced b hb
    omega

/-- **The parts of an object follow each other** where no base has a recorded offset. -/
theorem ClassType.nonVirtualPart?_stacked (h : c.nonVirtualPart? abi pointerSize parts = some nv)
    (hnone : ∀ p ∈ parts, p.spec.isVirtual = false → p.spec.offset = none) :
    ∃ l, Stacked 0 nv.extent.size.toNat l ∧
      (nv.addedSpans pointerSize c.memberSize ++ nv.bases.map (·.span)).Perm l := by
  obtain ⟨hfront, ownVbptr, e₁, e₂, e₃, hvbptr, hown, hbases, hmembers, hsize, -⟩ :=
    nonVirtualPart?_eq_some h
  have hbegin := Front.stacked (c.needsVptr abi parts) pointerSize
    (parts.filter fun p => !p.spec.isVirtual)
  rw [← hfront] at hbegin
  have hptr := (stacked_of_placeVbptr hvbptr).1
  have hlast := (stacked_of_placeMembers hmembers).mono (Extent.le_of_closed hsize).1
  have hnone' : ∀ p ∈ parts.filter fun p => !p.spec.isVirtual, p.spec.offset = none := by
    intro p hp
    obtain ⟨hp, hv⟩ := List.mem_filter.mp hp
    exact hnone p hp (by simpa using hv)
  rw [NonVirtualPart.addedSpans, hown]
  cases hfind : (parts.filter fun p => !p.spec.isVirtual).find? BasePart.canBePrimary with
  | none =>
    rw [placeBases_of_find?_eq_none hfind] at hbases
    have hplaced := stacked_of_placeBases hbases hnone'
    refine ⟨_, ((hbegin.append hptr).append hplaced).append hlast, ?_⟩
    refine List.perm_iff_count.mpr fun s => ?_
    simp only [ClassRecovery.addedSpans, hfind, Option.toList_none, List.map_append, List.map_nil,
      List.count_append, List.count_nil]
    omega
  | some p =>
    obtain ⟨before, after, front, back, e, hsplit, -, hf, hb, heq⟩ :=
      placeBases_of_find?_eq_some hfind hbases
    rw [hsplit] at hnone'
    have hplaced := (stacked_of_placeBases hf fun q hq => hnone' q (by simp [hq])).append
      (stacked_of_placeBases hb fun q hq => hnone' q (by simp [hq]))
    refine ⟨_, ((hbegin.append hptr).append hplaced).append hlast, ?_⟩
    refine List.perm_iff_count.mpr fun s => ?_
    simp only [ClassRecovery.addedSpans, hfind, heq, PlacedBase.span, Option.toList_some,
      List.map_append, List.map_cons, List.map_nil, List.count_append, List.count_cons,
      List.count_nil]
    omega

end

/-! ## Blocks in their places -/

/-- A base in its place, with the paths that lead to it. -/
structure Block where
  placed : PlacedBase
  isVirtual : Bool
  paths : List BasePath

namespace Block

/-- The entry for the base itself. -/
def head (b : Block) : BaseSubobject :=
  ⟨b.placed.base, b.placed.offset, b.isVirtual, b.isVirtual, b.paths⟩

/-- `s` is one of the entries of the block: the base, or what lies in it outside of virtual bases. -/
def Has (b : Block) (s : BaseSubobject) : Prop :=
  s = b.head ∨ ∃ s' ∈ b.placed.table.outsideVirtual,
    s'.within b.paths b.placed.offset b.isVirtual = some s

theorem Has.inVirtualBase_eq {b : Block} {s : BaseSubobject} (hs : b.Has s) :
    s.inVirtualBase = b.isVirtual := by
  rcases hs with rfl | ⟨s', -, hwithin⟩
  · rfl
  · obtain ⟨_, -, rfl⟩ := BaseSubobject.within_eq_some_iff.mp hwithin
    rfl

/-- The blocks have the entries, one block after the other. -/
def Tile (blocks : List Block) (entries : List BaseSubobject) : Prop :=
  ∃ lists, List.Forall₂ (fun b l => b.placed.subobjects b.isVirtual b.paths = some l) blocks lists ∧
    entries = lists.flatten

theorem Tile.append {blocks blocks' : List Block} {entries entries' : List BaseSubobject}
    (h : Tile blocks entries) (h' : Tile blocks' entries') :
    Tile (blocks ++ blocks') (entries ++ entries') := by
  obtain ⟨lists, hlists, rfl⟩ := h
  obtain ⟨lists', hlists', rfl⟩ := h'
  exact ⟨lists ++ lists', List.rel_append hlists hlists', by simp⟩

theorem has_of_mem {b : Block} {l : List BaseSubobject} {s : BaseSubobject}
    (hl : b.placed.subobjects b.isVirtual b.paths = some l) (hs : s ∈ l) : b.Has s := by
  obtain ⟨inner, hinner, rfl⟩ := PlacedBase.subobjects_eq_some_iff.mp hl
  rcases List.mem_cons.mp hs with rfl | hs
  · exact .inl rfl
  · exact .inr (forall₂_mem_right hinner hs)

theorem Tile.exists_block {blocks : List Block} {entries : List BaseSubobject}
    (h : Tile blocks entries) {s : BaseSubobject} (hs : s ∈ entries) : ∃ b ∈ blocks, b.Has s := by
  obtain ⟨lists, hlists, rfl⟩ := h
  obtain ⟨l, hl, hs⟩ := List.mem_flatten.mp hs
  obtain ⟨b, hb, hbl⟩ := forall₂_mem_right hlists hl
  exact ⟨b, hb, has_of_mem hbl hs⟩

end Block

/-- **Virtual bases follow each other** behind what is placed before. -/
theorem placeVirtualBases_stacked {tableOf : ClassId → Option BaseOffsetTable} {owner : ClassId}
    {known : VirtualPaths} {e e' : Extent} {shared : List BaseSubobject}
    (h : placeVirtualBases tableOf owner known e = .ok (shared, e')) :
    ∃ blocks : List Block, Block.Tile blocks shared ∧
      List.Forall₂ (fun v b => b.isVirtual = true ∧ b.placed.base = v.1 ∧ b.paths = v.2 ∧
        tableOf v.1 = some b.placed.table) known blocks ∧
      Stacked e.size.toNat e'.size.toNat (blocks.map (·.placed.span)) ∧ (known = [] → e' = e) := by
  induction known generalizing e e' shared with
  | nil =>
    obtain ⟨rfl, rfl⟩ := Prod.mk.inj (Except.ok.inj h)
    exact ⟨[], ⟨[], .nil, rfl⟩, .nil, .nil (Nat.le_refl _), fun _ => rfl⟩
  | cons v rest ih =>
    obtain ⟨base, paths⟩ := v
    obtain ⟨table, offset, e₁, block, more, htable, hplace, hblock, hmore, rfl⟩ := placeVirtualBases_cons_eq_ok h
    obtain ⟨blocks, htile, hblocks, hstacked, -⟩ := ih hmore
    refine ⟨⟨⟨base, table, offset⟩, true, paths⟩ :: blocks, ?_, .cons ⟨rfl, rfl, rfl, htable⟩ hblocks,
      (Extent.stacked_of_place hplace).append hstacked, by simp⟩
    have hone : Block.Tile [⟨⟨base, table, offset⟩, true, paths⟩] block :=
      ⟨[block], .cons hblock .nil, by simp⟩
    exact hone.append htile

theorem align_le_of_placeVirtualBases {tableOf : ClassId → Option BaseOffsetTable} {owner : ClassId}
    {known : VirtualPaths} {e e' : Extent} {shared : List BaseSubobject}
    (h : placeVirtualBases tableOf owner known e = .ok (shared, e')) :
    e.align.toNat ≤ e'.align.toNat := by
  induction known generalizing e shared with
  | nil =>
    obtain ⟨-, rfl⟩ := Prod.mk.inj (Except.ok.inj h)
    exact Nat.le_refl _
  | cons v rest ih =>
    obtain ⟨table, offset, e₁, block, more, -, hplace, -, hmore, -⟩ := placeVirtualBases_cons_eq_ok h
    exact Nat.le_trans (Extent.align_le_of_place hplace) (ih hmore)

/-! ## The table of one class -/

/-- What the class adds to its bases: the hidden pointers of its own, and its data members. -/
def BaseOffsetTable.addedSpans (t : BaseOffsetTable) (pointerSize memberSize : Word) : List Span :=
  ClassRecovery.addedSpans (if t.ownsVptr then t.vptrOffset else none)
    (if t.ownsVbptr then t.vbptrOffset else none) pointerSize ⟨t.membersOffset, memberSize⟩

/-- The table `t` comes from the non-virtual part `nv` and the virtual bases behind it, in blocks. -/
structure ClassType.Assembles (c : ClassType) (abi : Abi) (pointerSize : Word) (parts : List BasePart)
    (tableOf : ClassId → Option BaseOffsetTable) (t : BaseOffsetTable) (nv : NonVirtualPart)
    (own shared : List Block) : Prop where
  nonVirtual : c.nonVirtualPart? abi pointerSize parts = some nv
  tile : Block.Tile (own ++ shared) t.entries
  own_placed : own.map (·.placed) = nv.bases
  own_spec : List.Forall₂ (fun p b => b.isVirtual = false ∧ b.placed.base = p.spec.base ∧
    b.paths = [[p.spec.base]] ∧ b.placed.table = p.table) (parts.filter fun p => !p.spec.isVirtual) own
  shared_spec : List.Forall₂ (fun v b => b.isVirtual = true ∧ b.placed.base = v.1 ∧ b.paths = v.2 ∧
    tableOf v.1 = some b.placed.table) (VirtualPaths.ofParts parts) shared
  shared_stacked : Stacked t.nvSize.toNat t.size.toNat (shared.map (·.placed.span))
  added : t.addedSpans pointerSize c.memberSize = nv.addedSpans pointerSize c.memberSize
  vptr : t.vptrOffset = nv.front.vptrOffset ∧ t.ownsVptr = nv.front.ownsVptr
  vbptr : t.vbptrOffset = nv.vbptrOffset ∧ t.ownsVbptr = nv.ownsVbptr
  nvSize : t.nvSize = nv.extent.size
  nvAlign : t.nvAlign = nv.extent.align
  nvAlign_le : t.nvAlign.toNat ≤ t.align.toNat
  size_of_nil : shared = [] → t.size = t.nvSize

/-- How a table is computed: first the non-virtual part, and then the virtual bases behind it. -/
theorem ClassType.offsetTable_eq_ok {c : ClassType} {abi : Abi} {pointerSize : Word}
    {parts : List BasePart} {tableOf : ClassId → Option BaseOffsetTable} {t : BaseOffsetTable}
    (h : c.offsetTable abi pointerSize parts tableOf = .ok t) :
    ∃ nv lists shared e, c.nonVirtualPart? abi pointerSize parts = some nv ∧
      List.Forall₂ (fun (b : PlacedBase) l => b.subobjects false [[b.base]] = some l) nv.bases lists ∧
      placeVirtualBases tableOf c.id (VirtualPaths.ofParts parts) nv.extent = .ok (shared, e) ∧
      e.closed = some t.size ∧
      t = {
        owner := c.id
        entries := lists.flatten ++ shared
        primaryBase := nv.front.primaryBase
        vptrOffset := nv.front.vptrOffset
        ownsVptr := nv.front.ownsVptr
        vbptrOffset := nv.vbptrOffset
        ownsVbptr := nv.ownsVbptr
        membersOffset := nv.membersOffset
        nvSize := nv.extent.size
        nvAlign := nv.extent.align
        size := t.size
        align := e.align } := by
  simp only [offsetTable, bind_eq_ok_iff, elim_eq_ok_iff] at h
  obtain ⟨nv, hnv, lists, hlists, ⟨shared, e⟩, hshared, size, hsize, h⟩ := h
  obtain rfl := Except.ok.inj h
  exact ⟨nv, lists, shared, e, hnv, mapM_eq_some_iff.mp hlists, hshared, hsize, rfl⟩

/-- **What a table is made of.** -/
theorem ClassType.offsetTable_assembles {c : ClassType} {abi : Abi} {pointerSize : Word}
    {parts : List BasePart} {tableOf : ClassId → Option BaseOffsetTable} {t : BaseOffsetTable}
    (h : c.offsetTable abi pointerSize parts tableOf = .ok t) :
    ∃ nv own shared, c.Assembles abi pointerSize parts tableOf t nv own shared := by
  obtain ⟨nv, lists, entries, extent, hnv, hlists, hvirtual, hsize, ht⟩ := offsetTable_eq_ok h
  rw [ht]
  obtain ⟨shared, htile, hshared, hstacked, hsame⟩ := placeVirtualBases_stacked hvirtual
  let block (b : PlacedBase) : Block := ⟨b, false, [[b.base]]⟩
  refine ⟨nv, nv.bases.map block, shared, hnv, ?_, ?_, ?_, hshared, ?_, rfl, ⟨rfl, rfl⟩, ⟨rfl, rfl⟩, rfl, rfl,
    align_le_of_placeVirtualBases hvirtual, fun hnil => ?_⟩
  · refine Block.Tile.append ⟨lists, ?_, rfl⟩ htile
    exact List.forall₂_map_left_iff.mpr hlists
  · simp [block, Function.comp_def]
  · refine List.forall₂_map_right_iff.mpr ((nonVirtualPart?_bases hnv).imp fun p b hb => ?_)
    exact ⟨rfl, hb.1, by rw [← hb.1], hb.2⟩
  · exact hstacked.mono (Extent.le_of_closed hsize).1
  · subst hnil
    rw [hsame (by simpa using hshared)] at hsize
    obtain ⟨-, _, _, _, e₃, -, -, -, -, hclosed, halign⟩ := nonVirtualPart?_eq_some hnv
    obtain ⟨-, hpos⟩ := Extent.le_of_closed hclosed
    have hone : max nv.extent.size 1 = nv.extent.size := by
      apply UInt64.toNat_inj.mp
      rw [toNat_max, show (1 : Word).toNat = 1 from rfl]
      omega
    rw [Extent.closed, hone, halign] at hsize
    exact alignUp_alignUp hclosed hsize

end ClassRecovery
