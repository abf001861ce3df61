/-
  Hidden pointers and alignment.

  A class has a place for every hidden pointer of its own (`Resolves.isSome_of_owns`).  A virtual pointer that
  is not its own is that of the primary base, a direct base at offset zero (`Resolves.beginsWith`), and a virtual
  base pointer of its own comes behind that (`Resolves.le_vbptrOffset`).  No alignment in a table is zero, unless
  pointers have no size (`Resolves.align_pos`).
-/
import ClassRecovery.Proofs.Offsets.Outermost

namespace ClassRecovery

open Hierarchy

/-! ## Alignment -/

theorem align_le_of_placeVbptr {owns : Bool} {pointerSize : Word} {e e' : Extent}
    {offset : Option Word} (h : placeVbptr owns pointerSize e = some (offset, e')) :
    e.align.toNat ≤ e'.align.toNat := by
  unfold placeVbptr at h
  split at h
  · obtain ⟨⟨o, e₁⟩, hplace, heq⟩ := Option.map_eq_some_iff.mp h
    obtain ⟨-, rfl⟩ := Prod.mk.inj heq
    exact Extent.align_le_of_place hplace
  · obtain ⟨-, rfl⟩ := Prod.mk.inj (Option.some.inj h)
    exact Nat.le_refl _

theorem align_le_of_placeBases {ahead : Bool} {parts : List BasePart} {e e' : Extent}
    {placed : List PlacedBase} (h : placeBases ahead parts e = some (placed, e')) :
    e.align.toNat ≤ e'.align.toNat := by
  induction parts generalizing ahead e placed with
  | nil =>
    obtain ⟨-, rfl⟩ := Prod.mk.inj (Option.some.inj h)
    exact Nat.le_refl _
  | cons p rest ih =>
    obtain ⟨_, offset, e₁, more, hrest, -, rfl | hplace⟩ := placeBases_cons_eq_some h
    · exact ih hrest
    · exact Nat.le_trans (Extent.align_le_of_place hplace) (ih hrest)

theorem ClassType.align_le_of_placeMembers {c : ClassType} {e e' : Extent} {offset : Word}
    (h : c.placeMembers e = some (offset, e')) : e.align.toNat ≤ e'.align.toNat := by
  unfold placeMembers at h
  split at h
  · exact Extent.align_le_of_place h
  · obtain ⟨-, rfl⟩ := Prod.mk.inj (Option.some.inj h)
    exact Nat.le_refl _

/-- The non-virtual part is aligned as what it begins with, at least. -/
theorem ClassType.align_le_of_nonVirtualPart? {c : ClassType} {abi : Abi} {pointerSize : Word}
    {parts : List BasePart} {nv : NonVirtualPart}
    (h : c.nonVirtualPart? abi pointerSize parts = some nv) :
    nv.front.extent.align.toNat ≤ nv.extent.align.toNat := by
  obtain ⟨-, _, e₁, e₂, e₃, hvbptr, -, hbases, hmembers, -, halign⟩ := nonVirtualPart?_eq_some h
  calc nv.front.extent.align.toNat
      ≤ e₁.align.toNat := align_le_of_placeVbptr hvbptr
    _ ≤ e₂.align.toNat := align_le_of_placeBases hbases
    _ ≤ e₃.align.toNat := align_le_of_placeMembers hmembers
    _ = nv.extent.align.toNat := by rw [halign]

/-- An object begins with a virtual pointer, with the primary base, or with nothing that asks for an
    alignment. -/
theorem Front.align_cases (needsVptr : Bool) (pointerSize : Word) (nonVirtual : List BasePart) :
    let align := (Front.of needsVptr pointerSize nonVirtual).extent.align
    align = pointerSize ∨ (∃ p ∈ nonVirtual, align = p.table.nvAlign) ∨ align = 1 := by
  unfold Front.of
  cases hfind : nonVirtual.find? BasePart.canBePrimary with
  | some p => exact .inr (.inl ⟨p, List.mem_of_find?_eq_some hfind, rfl⟩)
  | none =>
    cases needsVptr with
    | true => exact .inl rfl
    | false => exact .inr (.inr rfl)

section
variable {h : Hierarchy} {id : ClassId} {t : BaseOffsetTable}

/-- **No alignment is zero.** -/
theorem Resolves.align_pos (hr : Resolves h id t) (hptr : 0 < h.pointerSize) :
    0 < t.nvAlign.toNat ∧ 0 < t.align.toNat := by
  refine hr.inherits_induction (P := fun _ t => 0 < t.nvAlign.toNat ∧ 0 < t.align.toNat) ?_
  intro id t hr ih
  obtain ⟨c, parts, nv, own, shared, ha⟩ := hr.assembled
  obtain ⟨_, hassembles⟩ := ha.assembles
  have hle := ClassType.align_le_of_nonVirtualPart? hassembles.nonVirtual
  rw [← hassembles.nvAlign] at hle
  have hfront : 0 < nv.front.extent.align.toNat := by
    rw [(ClassType.nonVirtualPart?_eq_some hassembles.nonVirtual).1]
    rcases Front.align_cases (c.needsVptr h.abi parts) h.pointerSize
        (parts.filter fun p => !p.spec.isVirtual) with halign | ⟨p, hp, halign⟩ | halign <;> rw [halign]
    · exact UInt64.lt_iff_toNat_lt.mp hptr
    · have hp : p ∈ parts := List.mem_of_mem_filter hp
      have hstep := directBase_of_part ha.defined ha.specs hp
      exact (ih _ _ (.single hstep) (ha.parts_resolved p hp)).1
    · exact Nat.one_pos
  have hle' := hassembles.nvAlign_le
  omega

/-! ## Whose a virtual pointer is -/

/-- An object has no virtual pointer, or begins with one of its own, or begins with the primary base and
    shares its virtual pointer. -/
inductive Hierarchy.BeginsWith (h : Hierarchy) (t : BaseOffsetTable) : Prop
  | nothing : t.vptrOffset = none → t.ownsVptr = false → t.primaryBase = none → BeginsWith h t
  | ownVptr : t.vptrOffset = some 0 → t.ownsVptr = true → t.primaryBase = none → BeginsWith h t
  | primary {s : BaseSubobject} {ts : BaseOffsetTable} :
      t.vptrOffset = some 0 → t.ownsVptr = false → t.primaryBase = some s.base →
      s ∈ t.ownBases → s.offset = 0 → Resolves h s.base ts → ts.isDynamic = true → BeginsWith h t

theorem Resolves.beginsWith (hr : Resolves h id t) : h.BeginsWith t := by
  obtain ⟨c, parts, nv, own, shared, ha⟩ := hr.assembled
  obtain ⟨_, hassembles⟩ := ha.assembles
  obtain ⟨hfront, -, _, _, -, -, -, hbases, -⟩ := ClassType.nonVirtualPart?_eq_some hassembles.nonVirtual
  have hvptr := hassembles.vptr.1
  have howns := hassembles.vptr.2
  have hprimary := (ha.front_eq hr).1
  rw [hfront, Front.of] at hvptr howns hprimary
  cases hfind : (parts.filter fun p => !p.spec.isVirtual).find? BasePart.canBePrimary with
  | some p =>
    rw [hfind] at hvptr howns hprimary
    obtain ⟨_, _, front, back, _, -, -, -, -, hplaced⟩ := placeBases_of_find?_eq_some hfind hbases
    have hmem : (⟨p.spec.base, p.table, 0⟩ : PlacedBase) ∈ nv.bases := by
      rw [hplaced]
      exact List.mem_append_right _ List.mem_cons_self
    have hdynamic := List.find?_some hfind
    rw [BasePart.canBePrimary, Bool.and_eq_true] at hdynamic
    exact .primary hvptr howns hprimary (ha.map_ownHead ▸ List.mem_map_of_mem hmem) rfl
      (ha.bases_resolved _ hmem).2 hdynamic.1
  | none =>
    rw [hfind] at hvptr howns hprimary
    cases hneeds : c.needsVptr h.abi parts with
    | true =>
      rw [hneeds] at hvptr howns hprimary
      exact .ownVptr hvptr howns hprimary
    | false =>
      rw [hneeds] at hvptr howns hprimary
      exact .nothing hvptr howns hprimary

/-- A class has a place for every hidden pointer of its own. -/
theorem Resolves.isSome_of_owns (hr : Resolves h id t) :
    (t.ownsVptr = true → t.vptrOffset.isSome = true) ∧
      (t.ownsVbptr = true → t.vbptrOffset.isSome = true) := by
  obtain ⟨c, parts, nv, own, shared, ha⟩ := hr.assembled
  obtain ⟨_, hassembles⟩ := ha.assembles
  obtain ⟨-, ownVbptr, e₁, -, -, hvbptr, hown, -⟩ :=
    ClassType.nonVirtualPart?_eq_some hassembles.nonVirtual
  rw [hassembles.vbptr.1, hassembles.vbptr.2]
  constructor
  · intro howns
    cases hr.beginsWith with
    | ownVptr hvptr => rw [hvptr, Option.isSome_some]
    | nothing _ hnot | primary _ hnot =>
      rw [hnot] at howns
      cases howns
  · intro howns
    rw [howns, if_pos rfl] at hown
    rw [howns, placeVbptr, if_pos rfl] at hvbptr
    obtain ⟨⟨o, e⟩, -, heq⟩ := Option.map_eq_some_iff.mp hvbptr
    rw [hown, ← (Prod.mk.inj heq).1, Option.isSome_some]

/-- **A virtual pointer that is not the class's own** is that of a direct base at offset zero. -/
theorem Resolves.exists_primary (hr : Resolves h id t) {o : Word} (ho : t.vptrOffset = some o)
    (howns : t.ownsVptr = false) : ∃ s ∈ t.direct.filter (!·.isVirtual), s.offset = 0 := by
  cases hr.beginsWith with
  | nothing hnone =>
    rw [hnone] at ho
    cases ho
  | ownVptr _ hyes =>
    rw [hyes] at howns
    cases howns
  | primary _ _ _ hs hoffset => exact ⟨_, hs, hoffset⟩

/-- **A virtual base pointer of the class's own** comes behind the virtual pointer, whosever that is and whatever
    offsets are recorded. -/
theorem Resolves.le_vbptrOffset (hr : Resolves h id t) {o o' : Word} (hvptr : t.vptrOffset = some o)
    (howns : t.ownsVbptr = true) (hvbptr : t.vbptrOffset = some o') :
    o.toNat + h.pointerSize.toNat ≤ o'.toNat := by
  obtain ⟨rfl, -⟩ := hr.vptr_le hvptr
  obtain ⟨c, parts, nv, own, shared, ha⟩ := hr.assembled
  obtain ⟨_, hassembles⟩ := ha.assembles
  obtain ⟨hfront, ownVbptr, e₁, -, -, hplace, hown, -⟩ :=
    ClassType.nonVirtualPart?_eq_some hassembles.nonVirtual
  rw [hassembles.vptr.1] at hvptr
  rw [hassembles.vbptr.1] at hvbptr
  rw [hassembles.vbptr.2] at howns
  rw [howns, if_pos rfl, hvbptr] at hown
  subst hown
  have hbehind : nv.front.extent.size.toNat ≤ o'.toNat :=
    ((stacked_of_placeVbptr hplace).1.within ⟨o', h.pointerSize⟩ (by simp)).1
  have hroom : h.pointerSize.toNat ≤ nv.front.extent.size.toNat := by
    rw [hfront, Front.of] at hvptr ⊢
    cases hfind : (parts.filter fun p => !p.spec.isVirtual).find? BasePart.canBePrimary with
    | some p =>
      -- the primary base has room for its virtual pointer
      have hp : p ∈ parts := List.mem_of_mem_filter (List.mem_of_find?_eq_some hfind)
      have hdynamic := List.find?_some hfind
      rw [BasePart.canBePrimary, Bool.and_eq_true] at hdynamic
      obtain ⟨_, ho⟩ := Option.isSome_iff_exists.mp hdynamic.1
      exact ((ha.parts_resolved p hp).vptr_le ho).2
    | none =>
      rw [hfind] at hvptr
      cases hneeds : c.needsVptr h.abi parts with
      | true => exact Nat.le_refl _
      | false =>
        rw [hneeds] at hvptr
        cases hvptr
  calc (0 : Word).toNat + h.pointerSize.toNat
      = h.pointerSize.toNat := Nat.zero_add _
    _ ≤ nv.front.extent.size.toNat := hroom
    _ ≤ o'.toNat := hbehind

end

end ClassRecovery
