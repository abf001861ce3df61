/-
  The offsets of bases, from their order of declaration.

  Virtual bases follow the non-virtual part in the order in which they are met
  (`Resolves.virtualBases_packed`).  Within the non-virtual part, and where the class records no offsets,
  the primary base comes first and the other bases follow in order of declaration, behind the hidden
  pointers of the class itself (`Resolves.placedAsDeclared`).  So the offsets in a table can be computed by
  hand, from the tables of the classes it lists (`ClassModel.offsetTable_order`).
-/
import ClassRecovery.Proofs.Offsets.HiddenPointers
import ClassRecovery.Proofs.Offsets.Rounding
import ClassRecovery.Proofs.Offsets.VirtualOrder

namespace ClassRecovery

open Hierarchy

/-! ## Virtual bases -/

theorem placeVirtualBases_packed {tableOf : ClassId → Option BaseOffsetTable} {owner : ClassId}
    {known : VirtualPaths} {e e' : Extent} {shared : List BaseSubobject} {roomOf : ClassId → Room}
    (h : placeVirtualBases tableOf owner known e = .ok (shared, e'))
    (hroom : ∀ v ∈ known.map (·.1), ∀ tv, tableOf v = some tv → roomOf v = tv.room) :
    (shared.filter (·.isVirtual)).map (·.offset.toNat) =
      packed e.size.toNat ((known.map (·.1)).map roomOf) := by
  induction known generalizing e e' shared with
  | nil =>
    obtain ⟨rfl, -⟩ := Prod.mk.inj (Except.ok.inj h)
    rfl
  | cons v rest ih =>
    simp only [List.map_cons, List.mem_cons, forall_eq_or_imp] at hroom
    obtain ⟨table, offset, e₁, block, more, htable, hplace, hblock, hmore, rfl⟩ := placeVirtualBases_cons_eq_ok h
    obtain ⟨hoffset, hend⟩ := Extent.toNat_of_place hplace
    rw [List.filter_append, PlacedBase.filter_isVirtual hblock, if_pos rfl, List.singleton_append,
      List.map_cons, List.map_cons, List.map_cons, packed, ih hmore hroom.2, hroom.1 table htable, hend, hoffset]
    rfl

/-! ## Non-virtual bases -/

/-- Bases without recorded offsets are put one behind the other. -/
theorem placeBases_packed {parts : List BasePart} {e e' : Extent} {placed : List PlacedBase}
    (h : placeBases false parts e = some (placed, e')) (hnone : ∀ p ∈ parts, p.spec.offset = none) :
    let rooms := placed.map (·.table.room)
    placed.map (·.offset.toNat) = packed e.size.toNat rooms ∧
      e'.size.toNat = packedEnd e.size.toNat rooms := by
  induction parts generalizing e placed with
  | nil =>
    obtain ⟨rfl, rfl⟩ := Prod.mk.inj (Option.some.inj h)
    exact ⟨rfl, rfl⟩
  | cons p rest ih =>
    simp only [List.mem_cons, forall_eq_or_imp] at hnone
    obtain ⟨offset, e₁, more, hplace, hrest, rfl⟩ := placeBases_cons_eq_some_iff.mp h
    rw [hnone.1] at hplace
    obtain ⟨hoffset, hend⟩ := Extent.toNat_of_place hplace
    obtain ⟨hoffsets, hlast⟩ := ih hrest hnone.2
    rw [hend, hoffset] at hoffsets hlast
    refine ⟨?_, hlast⟩
    rw [List.map_cons, hoffsets, hoffset]
    rfl

/-- Where the class's own virtual base pointer ends, or what is before it if there is none. -/
def vbptrEnd (owns : Bool) (pointerSize before : ℕ) : ℕ :=
  if owns then roundUp before pointerSize + pointerSize else before

theorem le_vbptrEnd (owns : Bool) (pointerSize before : ℕ) : before ≤ vbptrEnd owns pointerSize before := by
  have hle := le_roundUp before pointerSize
  unfold vbptrEnd
  split <;> omega

theorem size_of_placeVbptr {owns : Bool} {pointerSize : Word} {e e' : Extent} {offset : Option Word}
    (h : placeVbptr owns pointerSize e = some (offset, e')) :
    e'.size.toNat = vbptrEnd owns pointerSize.toNat e.size.toNat ∧
      ∀ o ∈ offset, o.toNat = roundUp e.size.toNat pointerSize.toNat := by
  unfold placeVbptr at h
  split at h
  · next howns =>
    obtain ⟨⟨o, e₁⟩, hplace, heq⟩ := Option.map_eq_some_iff.mp h
    obtain ⟨rfl, rfl⟩ := Prod.mk.inj heq
    obtain ⟨hoffset, hend⟩ := Extent.toNat_of_place hplace
    rw [hend, hoffset, howns]
    exact ⟨rfl, by rintro _ ⟨⟩; exact hoffset⟩
  · next howns =>
    obtain ⟨rfl, rfl⟩ := Prod.mk.inj (Option.some.inj h)
    rw [(Bool.not_eq_true _).mp howns]
    exact ⟨rfl, by rintro _ ⟨⟩⟩

/-- The primary base is the first with a virtual pointer.  It takes the first `front` bytes, and the
    others are put from `start` on, in order. -/
inductive PlacedInOrder (front start : ℕ) : Option ClassId → List PlacedBase → Prop
  | plain {bases : List PlacedBase} :
      (∀ b ∈ bases, b.table.isDynamic = false) →
      bases.map (·.offset.toNat) = packed start (bases.map (·.table.room)) →
      PlacedInOrder front start none bases
  | primary {before after : List PlacedBase} {p : PlacedBase} :
      (∀ b ∈ before, b.table.isDynamic = false) → p.table.isDynamic = true →
      p.offset = 0 → p.table.nvSize.toNat = front →
      (before ++ after).map (·.offset.toNat) = packed start ((before ++ after).map (·.table.room)) →
      PlacedInOrder front start (some p.base) (before ++ p :: after)

theorem PlacedInOrder.exists_primary {front start : ℕ} {primary : Option ClassId} {bases : List PlacedBase}
    {b : ClassId} (h : PlacedInOrder front start primary bases) (hb : primary = some b) :
    ∃ p ∈ bases, p.base = b ∧ p.table.nvSize.toNat = front := by
  cases h with
  | plain => cases hb
  | @primary before after p _ _ _ hsize _ => exact ⟨p, by simp, Option.some.inj hb, hsize⟩

/-- Bases that cannot be primary have no virtual pointer, where no offset is recorded. -/
theorem not_isDynamic_of_placeBases {ahead : Bool} {parts : List BasePart} {e e' : Extent}
    {placed : List PlacedBase} (h : placeBases ahead parts e = some (placed, e'))
    (hnone : ∀ p ∈ parts, p.spec.offset = none) (hnot : ∀ p ∈ parts, p.canBePrimary = false) :
    ∀ b ∈ placed, b.table.isDynamic = false := by
  intro b hb
  obtain ⟨p, hp, -, htable⟩ := forall₂_mem_right (placeBases_forall₂ h) hb
  have hp' := hnot p hp
  rwa [BasePart.canBePrimary, hnone p hp, Option.all_none, Bool.and_true, ← htable] at hp'

/-- **The non-virtual bases are placed in order** behind the hidden pointers, the primary base first. -/
theorem ClassType.nonVirtualPart?_inOrder {c : ClassType} {abi : Abi} {pointerSize : Word}
    {parts : List BasePart} {nv : NonVirtualPart}
    (h : c.nonVirtualPart? abi pointerSize parts = some nv)
    (hnone : ∀ p ∈ parts, p.spec.isVirtual = false → p.spec.offset = none) :
    let front := nv.front.extent.size.toNat
    PlacedInOrder front (vbptrEnd nv.ownsVbptr pointerSize.toNat front) nv.front.primaryBase nv.bases ∧
      (nv.front.primaryBase = none → front = if nv.front.ownsVptr then pointerSize.toNat else 0) ∧
      (nv.ownsVbptr = true → ∀ o ∈ nv.vbptrOffset, o.toNat = roundUp front pointerSize.toNat) := by
  obtain ⟨hfront, ownVbptr, e₁, e₂, _, hvbptr, hown, hbases, -⟩ := nonVirtualPart?_eq_some h
  obtain ⟨hstart, hvbptrOffset⟩ := size_of_placeVbptr hvbptr
  simp only [← hstart]
  refine ⟨?_, ?_, fun howns => ?_⟩
  · have hnone' : ∀ p ∈ parts.filter fun p => !p.spec.isVirtual, p.spec.offset = none := by
      intro p hp
      obtain ⟨hp, hv⟩ := List.mem_filter.mp hp
      exact hnone p hp (by simpa using hv)
    rw [hfront, Front.of]
    cases hfind : (parts.filter fun p => !p.spec.isVirtual).find? BasePart.canBePrimary with
    | none =>
      rw [placeBases_of_find?_eq_none hfind] at hbases
      have hnot := not_isDynamic_of_placeBases hbases hnone' fun p hp =>
        (Bool.not_eq_true _).mp (List.find?_eq_none.mp hfind p hp)
      cases c.needsVptr abi parts <;> exact .plain hnot (placeBases_packed hbases hnone').1
    | some p =>
      obtain ⟨before, after, front, back, e, hsplit, hbefore, hf, hb, heq⟩ :=
        placeBases_of_find?_eq_some hfind hbases
      rw [hsplit] at hnone'
      simp only [List.mem_append, List.mem_cons, or_imp, forall_and, forall_eq] at hnone'
      obtain ⟨hpacked, hmid⟩ := placeBases_packed hf hnone'.1
      obtain ⟨hpacked', -⟩ := placeBases_packed hb hnone'.2.2
      have hdynamic := List.find?_some hfind
      rw [BasePart.canBePrimary, hnone'.2.1, Option.all_none, Bool.and_true] at hdynamic
      rw [heq]
      refine .primary (p := ⟨p.spec.base, p.table, 0⟩) (not_isDynamic_of_placeBases hf hnone'.1 hbefore)
        hdynamic rfl rfl ?_
      rw [List.map_append, List.map_append, packed_append, hpacked, hpacked', hmid]
  · rw [hfront, Front.of]
    cases (parts.filter fun p => !p.spec.isVirtual).find? BasePart.canBePrimary with
    | some p =>
      intro hprimary
      cases hprimary
    | none => cases c.needsVptr abi parts <;> exact fun _ => rfl
  · rw [howns, if_pos rfl] at hown
    exact hown ▸ hvbptrOffset

/-! ## Bases in a table -/

namespace BaseOffsetTable

variable (t : BaseOffsetTable) (roomOf : ClassId → Room) (dynamic : ClassId → Bool) (pointerSize : ℕ)

/-- Whether the sub-object is of the class of the primary base. -/
def isPrimary (s : BaseSubobject) : Bool := t.primaryBase == some s.base

/-- The primary base: of several direct bases of its class, the first. -/
def primary? : Option BaseSubobject := t.ownBases.find? t.isPrimary

/-- The direct bases besides the primary base. -/
def besidePrimary : List BaseSubobject := t.ownBases.eraseP t.isPrimary

/-- The direct bases with the primary base moved to the front. -/
def primaryFirst : List BaseSubobject := t.primary?.toList ++ t.besidePrimary

/-- Where the primary base ends, or else the class's own virtual pointer. -/
def frontEnd : ℕ :=
  match t.primaryBase with
  | some p => (roomOf p).size
  | none => if t.ownsVptr then pointerSize else 0

/-- The direct bases are placed as declared, but for the primary base, if classes take the given rooms and
    have virtual pointers as given. -/
structure PlacedAsDeclared : Prop where
  /-- The primary base is the first with a virtual pointer. -/
  primary : t.primary? = t.ownBases.find? fun s => dynamic s.base
  primaryBase : t.primaryBase = t.primary?.map (·.base)
  begins : ∀ s ∈ t.primary?, s.offset = 0
  vbptr : t.ownsVbptr = true →
    t.vbptrOffset.map (·.toNat) = some (roundUp (t.frontEnd roomOf pointerSize) pointerSize)
  /-- The others follow behind the hidden pointers. -/
  beside : t.besidePrimary.map (·.offset.toNat) =
    packed (vbptrEnd t.ownsVbptr pointerSize (t.frontEnd roomOf pointerSize))
      (t.besidePrimary.map fun s => roomOf s.base)
  increasing : (t.primaryFirst.map (·.offset.toNat)).Pairwise (· < ·)

variable {t}

theorem besidePrimary_of_none (h : t.primaryBase = none) :
    t.primary? = none ∧ t.besidePrimary = t.ownBases := by
  have hnone : ∀ s ∈ t.ownBases, ¬ t.isPrimary s = true := fun s _ => by simp [isPrimary, h]
  exact ⟨List.find?_eq_none.mpr hnone, List.eraseP_of_forall_not hnone⟩

theorem besidePrimary_of_some {s : BaseSubobject} {before after : List BaseSubobject}
    (h : t.primaryBase = some s.base) (hown : t.ownBases = before ++ s :: after)
    (hbefore : ∀ r ∈ before, r.base ≠ s.base) :
    t.primary? = some s ∧ t.besidePrimary = before ++ after := by
  have hmine : t.isPrimary s = true := by simp [isPrimary, h]
  have hnone : ∀ r ∈ before, ¬ t.isPrimary r = true := fun r hr => by
    simpa [isPrimary, h] using (hbefore r hr).symm
  rw [primary?, besidePrimary, hown]
  exact ⟨List.find?_eq_some_iff_append.mpr ⟨hmine, before, after, rfl, by simpa using hnone⟩,
    by rw [List.eraseP_append_right _ hnone, List.eraseP_cons_of_pos hmine]⟩

end BaseOffsetTable

section
variable {h : Hierarchy} {id : ClassId} {t : BaseOffsetTable} {roomOf : ClassId → Room}
  {dynamic : ClassId → Bool}

/-- **Virtual bases are put one behind the other**, behind the non-virtual part. -/
theorem Resolves.virtualBases_packed (hr : Resolves h id t)
    (hroom : ∀ b tb, Resolves h b tb → roomOf b = tb.room) :
    t.virtualBases.map (·.offset.toNat) =
      packed t.nvSize.toNat (t.virtualBases.map fun s => roomOf s.base) := by
  obtain ⟨c, parts, nv, own, shared, ha⟩ := hr.assembled
  obtain ⟨tableOf, ht, -, hvirtual⟩ := ha.computed hr
  obtain ⟨nv', lists, entries, e, -, hlists, hplace, -, heq⟩ := ClassType.offsetTable_eq_ok ht
  have hown : lists.flatten.filter (·.isVirtual) = [] := by
    refine List.filter_eq_nil_iff.mpr fun s hs => ?_
    obtain ⟨l, hl, hs⟩ := List.mem_flatten.mp hs
    obtain ⟨b, -, hb⟩ := forall₂_mem_right hlists hl
    exact List.filter_eq_nil_iff.mp (PlacedBase.filter_isVirtual hb) s hs
  have hrooms : t.virtualBases.map (fun s => roomOf s.base) =
      ((VirtualPaths.ofParts parts).map (·.1)).map roomOf := by
    rw [← ha.map_virtualBases, List.map_map]
    rfl
  have hnvSize : t.nvSize = nv'.extent.size := by rw [heq]
  rw [hrooms, hnvSize, ← placeVirtualBases_packed hplace fun v hv tv htv => hroom v tv (hvirtual v hv tv htv),
    BaseOffsetTable.virtualBases, heq, List.filter_append, hown, List.nil_append]

/-- The bases of a table are placed as declared if those of its non-virtual part are placed in order. -/
theorem PlacedInOrder.placedAsDeclared {pointerSize : ℕ} {bases : List PlacedBase}
    (h : PlacedInOrder (t.frontEnd roomOf pointerSize)
      (vbptrEnd t.ownsVbptr pointerSize (t.frontEnd roomOf pointerSize)) t.primaryBase bases)
    (hown : t.ownBases = bases.map PlacedBase.ownHead)
    (hroom : ∀ b ∈ bases, roomOf b.base = b.table.room ∧ 0 < b.table.nvSize.toNat)
    (hdynamic : ∀ b ∈ bases, dynamic b.base = b.table.isDynamic)
    (hvbptr : t.ownsVbptr = true →
      t.vbptrOffset.map (·.toNat) = some (roundUp (t.frontEnd roomOf pointerSize) pointerSize)) :
    t.PlacedAsDeclared roomOf dynamic pointerSize := by
  -- what is said of placed bases, said of their entries
  have entries {l : List PlacedBase} {start : ℕ} (hl : l ⊆ bases)
      (hpacked : l.map (·.offset.toNat) = packed start (l.map (·.table.room))) :
      let heads := l.map PlacedBase.ownHead
      heads.map (·.offset.toNat) = packed start (heads.map fun s => roomOf s.base) ∧
        (heads.map (·.offset.toNat)).Pairwise (· < ·) := by
    have hrooms : l.map (fun b => roomOf b.base) = l.map (·.table.room) :=
      List.map_congr_left fun b hb => (hroom b (hl hb)).1
    simp only [List.map_map, Function.comp_def, PlacedBase.ownHead]
    rw [hrooms, hpacked]
    exact ⟨rfl, pairwise_packed (List.forall_mem_map.mpr fun b hb => (hroom b (hl hb)).2)⟩
  generalize hprimary : t.primaryBase = primary at h
  cases h with
  | plain hnot hpacked =>
    obtain ⟨hfind, hbeside⟩ := BaseOffsetTable.besidePrimary_of_none hprimary
    obtain ⟨hfollow, hincreasing⟩ := entries (List.Subset.refl _) hpacked
    rw [← hown, ← hbeside] at hfollow hincreasing
    refine ⟨?_, by rw [hfind, hprimary]; rfl, by simp [hfind], hvbptr, hfollow, ?_⟩
    · rw [hfind, hown, eq_comm, List.find?_eq_none, List.forall_mem_map]
      exact fun b hb => by simp [PlacedBase.ownHead, hdynamic b hb, hnot b hb]
    · rwa [BaseOffsetTable.primaryFirst, hfind]
  | @primary before after p hnot hp hzero hsize hpacked =>
    simp only [List.mem_append, List.mem_cons, or_imp, forall_and, forall_eq] at hdynamic
    have hdp : dynamic p.base = true := hdynamic.2.1.trans hp
    have hdbefore : ∀ s ∈ before.map PlacedBase.ownHead, dynamic s.base = false :=
      List.forall_mem_map.mpr fun b hb => (hdynamic.1 b hb).trans (hnot b hb)
    rw [List.map_append, List.map_cons] at hown
    obtain ⟨hfind, hbeside⟩ := BaseOffsetTable.besidePrimary_of_some (s := p.ownHead) hprimary hown
      fun s hs heq => Bool.false_ne_true ((hdbefore s hs).symm.trans ((congrArg dynamic heq).trans hdp))
    have hsub : before ++ after ⊆ before ++ p :: after := by simp
    obtain ⟨hfollow, hincreasing⟩ := entries hsub hpacked
    rw [List.map_append, ← hbeside] at hfollow hincreasing
    refine ⟨?_, by rw [hfind, hprimary]; rfl, by simp [hfind, PlacedBase.ownHead, hzero], hvbptr, hfollow, ?_⟩
    · rw [hfind, hown, eq_comm]
      exact List.find?_eq_some_iff_append.mpr ⟨hdp, _, _, rfl, by simpa using hdbefore⟩
    · rw [BaseOffsetTable.primaryFirst, hfind, Option.toList_some, List.singleton_append, List.map_cons,
        List.pairwise_cons]
      refine ⟨fun o ho => ?_, hincreasing⟩
      have hstart := le_of_mem_packed (hfollow ▸ ho)
      have hend := le_vbptrEnd t.ownsVbptr pointerSize (t.frontEnd roomOf pointerSize)
      have hbytes := (hroom p (by simp)).2
      rw [PlacedBase.ownHead, hzero]
      change 0 < o
      omega

/-- **The direct bases are placed as declared**, but for the primary base, where the class records no
    offsets. -/
theorem Resolves.placedAsDeclared {c : ClassType} (hr : Resolves h id t)
    (hc : h.classes.get? id = some c)
    (hnone : ∀ spec ∈ c.bases, spec.isVirtual = false → spec.offset = none)
    (hroom : ∀ b tb, Resolves h b tb → roomOf b = tb.room)
    (hdynamic : ∀ b tb, Resolves h b tb → dynamic b = tb.isDynamic) :
    t.PlacedAsDeclared roomOf dynamic h.pointerSize.toNat := by
  obtain ⟨c', parts, nv, own, shared, ha⟩ := hr.assembled
  obtain rfl := Option.some.inj (hc.symm.trans ha.defined)
  obtain ⟨_, hassembles⟩ := ha.assembles
  obtain ⟨hinOrder, hplain, hvbptr⟩ := ClassType.nonVirtualPart?_inOrder hassembles.nonVirtual
    fun p hp => hnone p.spec (ha.specs ▸ List.mem_map_of_mem hp)
  have hfront : t.frontEnd roomOf h.pointerSize.toNat = nv.front.extent.size.toNat := by
    rw [BaseOffsetTable.frontEnd, (ha.front_eq hr).1, hassembles.vptr.2]
    cases hprimary : nv.front.primaryBase with
    | none => exact (hplain hprimary).symm
    | some b =>
      obtain ⟨p, hp, rfl, hsize⟩ := hinOrder.exists_primary hprimary
      exact (congrArg Room.size (hroom _ _ (ha.bases_resolved p hp).2)).trans hsize
  rw [← hfront, ← (ha.front_eq hr).1, ← hassembles.vbptr.2] at hinOrder
  refine hinOrder.placedAsDeclared ha.map_ownHead
    (fun b hb => ⟨hroom _ _ (ha.bases_resolved b hb).2, (ha.bases_resolved b hb).2.nvSize_pos⟩)
    (fun b hb => hdynamic _ _ (ha.bases_resolved b hb).2) fun howns => ?_
  obtain ⟨o, ho⟩ := Option.isSome_iff_exists.mp (hr.isSome_of_owns.2 howns)
  rw [hassembles.vbptr.2] at howns
  rw [ho, Option.map_some, hfront, hvbptr howns o (hassembles.vbptr.1 ▸ ho)]

end

namespace ClassModel

/-- The room that a class takes as a base, or none where it has no offset table. -/
def room (m : ClassModel) (id : ClassId) : Room :=
  match (m.offsetTable id).1 with
  | .ok t => t.room
  | .error _ => ⟨0, 1⟩

/-- Whether objects of the class have a virtual pointer. -/
def isDynamic (m : ClassModel) (id : ClassId) : Bool :=
  match (m.offsetTable id).1 with
  | .ok t => t.isDynamic
  | .error _ => false

namespace Coherent

variable {m : ClassModel} (hm : m.Coherent) {id : ClassId} {t : BaseOffsetTable}
include hm

theorem room_eq (hr : Resolves m.hierarchy id t) : m.room id = t.room := by
  rw [room, hm.offsetTable_eq hr]

theorem isDynamic_eq (hr : Resolves m.hierarchy id t) : m.isDynamic id = t.isDynamic := by
  rw [isDynamic, hm.offsetTable_eq hr]

end Coherent

/-- **Bases are placed in the order of a plain walk.**  The virtual bases of a class, at any depth, are
    listed once each, in the order in which a depth-first walk first takes a virtual step to them, and are
    put one behind the other after the non-virtual part.  The direct bases that are not virtual are in order
    of declaration; where the class records no offsets, the primary base comes first and the others follow
    one behind the other. -/
theorem offsetTable_order (abi : Abi) (pointerSize : Word) (ops : List Operation) (id : ClassId)
    (t : BaseOffsetTable) (ht : ((reached abi pointerSize ops).offsetTable id).1 = .ok t) :
    let m := reached abi pointerSize ops
    let h := m.hierarchy
    (∀ s ∈ t.entries, ∃ ts, (m.offsetTable s.base).1 = .ok ts ∧
        m.room s.base = ⟨ts.nvSize.toNat, ts.nvAlign.toNat⟩ ∧
        m.isDynamic s.base = ts.vptrOffset.isSome) ∧
      (∀ d c, h.Reaches id d → h.classes.get? d = some c →
        h.virtualSteps [] d =
          c.bases.flatMap fun spec => spec.virtualStep ++ h.virtualSteps [] spec.base) ∧
      t.virtualBases.map (·.base) = (h.virtualSteps [] id).eraseDups ∧
      (t.virtualBases.map (·.base)).Nodup ∧
      (∀ v, v ∈ t.virtualBases.map (·.base) ↔ h.VirtualBase id v) ∧
      t.virtualBases.map (·.offset.toNat) =
        packed t.nvSize.toNat (t.virtualBases.map fun s => m.room s.base) ∧
      ∃ c, m.get? id = some c ∧
        t.ownBases.map (·.base) = (c.bases.filter (!·.isVirtual)).map (·.base) ∧
        ((∀ spec ∈ c.bases, spec.isVirtual = false → spec.offset = none) →
          t.PlacedAsDeclared m.room m.isDynamic pointerSize.toNat) := by
  intro m h
  have hm : m.Coherent := coherent_reached abi pointerSize ops
  have hr : Resolves h id t := hm.resolves ht
  have hroom : ∀ b tb, Resolves h b tb → m.room b = tb.room := fun b tb => hm.room_eq
  obtain ⟨hnodup, hmem⟩ := hr.mem_virtualBases_iff
  refine ⟨fun s hs => ?_, fun d c hd hc => ?_, hr.map_virtualBases (.nil id), hnodup, hmem,
    hr.virtualBases_packed hroom, ?_⟩
  · obtain ⟨ts, hts⟩ := hr.of_reaches (hr.inherits_of_mem s hs).to_reflTransGen
    exact ⟨ts, hm.offsetTable_eq hts, hm.room_eq hts, hm.isDynamic_eq hts⟩
  · obtain ⟨td, htd⟩ := hr.of_reaches hd
    exact htd.virtualSteps_eq hc
  · obtain ⟨c, hc⟩ := hr.exists_class
    have hptr : h.pointerSize = pointerSize := (parameters_reached abi pointerSize ops).2
    refine ⟨c, hc, hr.map_ownBases hc, fun hnone => ?_⟩
    exact hptr ▸ hr.placedAsDeclared hc hnone hroom fun b tb => hm.isDynamic_eq

/-- The primary base of `5` is declared second, and its virtual base `2` is that of its virtual base `4`. -/
theorem offsetTable_order_mixed :
    let vtable : Vtable := .ofTargets 4096 1 8 [8192]
    let m := reached .itanium 8
      [.insert { id := 1, name := "Shape", vtable, memberSize := 4, memberAlign := 4 },
        .insert { id := 2, name := "Store", memberSize := 24, memberAlign := 8 },
        .insert { id := 3, name := "Plain", memberSize := 12, memberAlign := 4 },
        .insert { id := 4, name := "Cached", bases := [⟨2, true, true, none⟩] },
        .insert { id := 5, name := "Widget",
                  bases := [⟨3, false, true, none⟩, ⟨1, false, true, none⟩, ⟨4, true, true, none⟩] }]
    ∃ t, (m.offsetTable 5).1 = .ok t ∧ t.virtualBases.map (·.base) = [4, 2] ∧
      t.virtualBases.map (·.offset.toNat) = packed t.nvSize.toNat [m.room 4, m.room 2] ∧
      t.primaryFirst.map (·.base) = [1, 3] ∧ (t.primaryFirst.map (·.offset.toNat)).Pairwise (· < ·) := by
  intro vtable m
  cases ht : (m.offsetTable 5).1 with
  | error e =>
    have hok : (m.offsetTable 5).1.isOk = true := by decide +kernel
    rw [ht] at hok
    cases hok
  | ok t =>
    have horder : (m.offsetTable 5).1.toOption.map (fun t => (t.virtualBases.map (·.base),
        t.primaryFirst.map (·.base))) = some ([4, 2], [1, 3]) := by decide +kernel
    rw [ht] at horder
    obtain ⟨hvirtual, hown⟩ := Prod.mk.inj (Option.some.inj horder)
    obtain ⟨-, -, -, -, -, hpacked, c, hc, -, hdeclared⟩ := offsetTable_order .itanium 8 _ 5 t ht
    have hunrecorded : ∀ spec ∈ c.bases, spec.isVirtual = false → spec.offset = none := by
      have hall : ((m.get? 5).all fun c => c.bases.all (·.offset.isNone)) = true := by decide +kernel
      rw [hc] at hall
      exact fun spec hspec _ => by simpa using List.all_eq_true.mp hall spec hspec
    have hrooms : t.virtualBases.map (fun s => m.room s.base) =
        (t.virtualBases.map (·.base)).map m.room := by rw [List.map_map]; rfl
    rw [hrooms, hvirtual] at hpacked
    exact ⟨t, rfl, hvirtual, hpacked, hown, (hdeclared hunrecorded).increasing⟩

end ClassModel

end ClassRecovery
