/-
  Sub-objects are aligned.

  A size is a multiple of the alignment that goes with it (`Resolves.size_aligned`).  If all alignments that
  classes start from are powers of two, so is every alignment in a table, and the smaller of two divides the
  larger.  Then a sub-object at any depth is at a multiple of the alignment of its class, although its
  offset is a sum of offsets that are rounded to different alignments (`Resolves.wellAligned`).
-/
import ClassRecovery.Proofs.Offsets.PointerOwners
import Mathlib.Algebra.Order.Group.Nat

namespace ClassRecovery

open Hierarchy

/-! ## Powers of two -/

/-- Of two powers of two, the smaller divides the larger. -/
theorem dvd_of_isPowerOfTwo {a b : ℕ} (ha : a.isPowerOfTwo) (hb : b.isPowerOfTwo) (hle : a ≤ b) : a ∣ b := by
  obtain ⟨i, rfl⟩ := ha
  obtain ⟨j, rfl⟩ := hb
  exact Nat.pow_dvd_pow 2 ((Nat.pow_le_pow_iff_right Nat.one_lt_two).mp hle)

theorem isPowerOfTwo_max {a b : Word} (ha : a.toNat.isPowerOfTwo) (hb : b.toNat.isPowerOfTwo) :
    (max a b).toNat.isPowerOfTwo := by
  rw [toNat_max]
  rcases max_choice a.toNat b.toNat with hmax | hmax <;> rwa [hmax]

/-! ## Placing one part -/

section
variable {e e' : Extent} {recorded : Option Word} {size align offset : Word}

theorem Extent.aligned_of_place (h : e.place recorded size align = some (offset, e')) :
    align.toNat ≤ e'.align.toNat ∧
      (e.align.toNat.isPowerOfTwo → align.toNat.isPowerOfTwo → e'.align.toNat.isPowerOfTwo) := by
  obtain ⟨-, stop, -, rfl⟩ := Extent.place_eq_some_iff.mp h
  refine ⟨?_, isPowerOfTwo_max⟩
  rw [toNat_max]
  exact Nat.le_max_right _ _

theorem Extent.dvd_of_closed (h : e.closed = some size) (hpos : 0 < e.align.toNat) :
    e.align.toNat ∣ size.toNat := by
  rw [toNat_alignUp h]
  exact dvd_roundUp hpos

theorem aligned_of_placeVbptr {owns : Bool} {pointerSize : Word} {vbptr : Option Word}
    (h : placeVbptr owns pointerSize e = some (vbptr, e')) (hptr : pointerSize.toNat.isPowerOfTwo)
    (he : e.align.toNat.isPowerOfTwo) :
    e'.align.toNat.isPowerOfTwo ∧ (owns = true → pointerSize.toNat ≤ e'.align.toNat) := by
  unfold placeVbptr at h
  split at h
  · obtain ⟨⟨o, e₁⟩, hplace, heq⟩ := Option.map_eq_some_iff.mp h
    obtain ⟨-, rfl⟩ := Prod.mk.inj heq
    obtain ⟨hle, hpower⟩ := Extent.aligned_of_place hplace
    exact ⟨hpower he hptr, fun _ => hle⟩
  · next howns =>
    obtain ⟨-, rfl⟩ := Prod.mk.inj (Option.some.inj h)
    exact ⟨he, fun hyes => absurd hyes howns⟩

theorem ClassType.aligned_of_placeMembers {c : ClassType} (h : c.placeMembers e = some (offset, e'))
    (hmember : c.memberAlign.toNat.isPowerOfTwo) (he : e.align.toNat.isPowerOfTwo) :
    e'.align.toNat.isPowerOfTwo ∧ (0 < c.memberSize → c.memberAlign.toNat ∣ offset.toNat) := by
  unfold placeMembers at h
  split at h
  · refine ⟨(Extent.aligned_of_place h).2 he hmember, fun _ => ?_⟩
    rw [(Extent.toNat_of_place h).1]
    exact dvd_roundUp (Nat.pos_of_isPowerOfTwo hmember)
  · next hnone =>
    obtain ⟨-, rfl⟩ := Prod.mk.inj (Option.some.inj h)
    exact ⟨he, fun hsome => absurd hsome hnone⟩

end

/-! ## Placing the bases -/

section
variable {parts : List BasePart} {e e' : Extent} {placed : List PlacedBase}

theorem isPowerOfTwo_of_placeBases {ahead : Bool} (h : placeBases ahead parts e = some (placed, e'))
    (hparts : ∀ p ∈ parts, p.table.nvAlign.toNat.isPowerOfTwo) (he : e.align.toNat.isPowerOfTwo) :
    e'.align.toNat.isPowerOfTwo := by
  induction parts generalizing ahead e placed with
  | nil =>
    obtain ⟨-, rfl⟩ := Prod.mk.inj (Option.some.inj h)
    exact he
  | cons p rest ih =>
    simp only [List.mem_cons, forall_eq_or_imp] at hparts
    obtain ⟨_, offset, e₁, more, hrest, -, rfl | hplace⟩ := placeBases_cons_eq_some h
    · exact ih hrest hparts.2 he
    · exact ih hrest hparts.2 ((Extent.aligned_of_place hplace).2 he hparts.1)

theorem nvAlign_le_of_placeBases (h : placeBases false parts e = some (placed, e')) :
    ∀ b ∈ placed, b.table.nvAlign.toNat ≤ e'.align.toNat := by
  induction parts generalizing e placed with
  | nil =>
    obtain ⟨rfl, -⟩ := Prod.mk.inj (Option.some.inj h)
    exact fun b hb => absurd hb List.not_mem_nil
  | cons p rest ih =>
    obtain ⟨offset, e₁, more, hplace, hrest, rfl⟩ := placeBases_cons_eq_some_iff.mp h
    simp only [List.mem_cons, forall_eq_or_imp]
    exact ⟨Nat.le_trans (Extent.aligned_of_place hplace).1 (align_le_of_placeBases hrest), ih hrest⟩

end

theorem aligned_of_placeVirtualBases {tableOf : ClassId → Option BaseOffsetTable} {owner : ClassId}
    {known : VirtualPaths} {e e' : Extent} {shared : List BaseSubobject}
    (h : placeVirtualBases tableOf owner known e = .ok (shared, e'))
    (htables : ∀ v ∈ known.map (·.1), ∀ tv, tableOf v = some tv → tv.nvAlign.toNat.isPowerOfTwo)
    (he : e.align.toNat.isPowerOfTwo) :
    e'.align.toNat.isPowerOfTwo ∧
      ∀ v ∈ known.map (·.1), ∃ tv, tableOf v = some tv ∧ tv.nvAlign.toNat ≤ e'.align.toNat := by
  induction known generalizing e e' shared with
  | nil =>
    obtain ⟨-, rfl⟩ := Prod.mk.inj (Except.ok.inj h)
    exact ⟨he, fun v hv => absurd hv List.not_mem_nil⟩
  | cons v rest ih =>
    simp only [List.map_cons, List.mem_cons, forall_eq_or_imp] at htables ⊢
    obtain ⟨table, offset, e₁, block, more, htable, hplace, -, hmore, -⟩ := placeVirtualBases_cons_eq_ok h
    obtain ⟨hle, hpower⟩ := Extent.aligned_of_place hplace
    obtain ⟨hall, hrest⟩ := ih hmore htables.2 (hpower he (htables.1 table htable))
    exact ⟨hall, ⟨table, htable, Nat.le_trans hle (align_le_of_placeVirtualBases hmore)⟩, hrest⟩

/-! ## The non-virtual part -/

section
variable {c : ClassType} {abi : Abi} {pointerSize : Word} {parts : List BasePart} {nv : NonVirtualPart}
  (h : c.nonVirtualPart? abi pointerSize parts = some nv)
include h

/-- The non-virtual part is aligned no less than each of its bases. -/
theorem ClassType.nvAlign_le_of_nonVirtualPart? :
    ∀ b ∈ nv.bases, b.table.nvAlign.toNat ≤ nv.extent.align.toNat := by
  have hle := align_le_of_nonVirtualPart? h
  obtain ⟨hfront, _, e₁, e₂, e₃, -, -, hbases, hmembers, -, halign⟩ := nonVirtualPart?_eq_some h
  have hle₃ := align_le_of_placeMembers hmembers
  rw [← halign] at hle₃
  intro b hb
  cases hfind : (parts.filter fun p => !p.spec.isVirtual).find? BasePart.canBePrimary with
  | none =>
    rw [placeBases_of_find?_eq_none hfind] at hbases
    exact Nat.le_trans (nvAlign_le_of_placeBases hbases b hb) hle₃
  | some p =>
    obtain ⟨_, _, before, after, e, -, -, hbefore, hafter, heq⟩ := placeBases_of_find?_eq_some hfind hbases
    have hmid := align_le_of_placeBases hafter
    rw [heq, List.mem_append, List.mem_cons] at hb
    rcases hb with hb | rfl | hb
    · have := nvAlign_le_of_placeBases hbefore b hb
      omega
    · rw [hfront, Front.of, hfind] at hle
      exact hle
    · have := nvAlign_le_of_placeBases hafter b hb
      omega

/-- All alignments in the non-virtual part are powers of two if it is made of such, and what has a place in
    it is aligned. -/
theorem ClassType.nonVirtualPart?_aligned (hptr : pointerSize.toNat.isPowerOfTwo)
    (hmember : c.memberAlign.toNat.isPowerOfTwo)
    (hparts : ∀ p ∈ parts, p.table.nvAlign.toNat.isPowerOfTwo) :
    nv.extent.align.toNat.isPowerOfTwo ∧
      (∀ b ∈ nv.bases, b.table.nvAlign.toNat ∣ nv.extent.align.toNat) ∧
      (nv.ownsVbptr = true → pointerSize.toNat ∣ nv.extent.align.toNat) ∧
      (0 < c.memberSize → c.memberAlign.toNat ∣ nv.membersOffset.toNat) := by
  obtain ⟨hfront, _, e₁, e₂, e₃, hvbptr, -, hbases, hmembers, -, halign⟩ := nonVirtualPart?_eq_some h
  have hparts' : ∀ p ∈ parts.filter fun p => !p.spec.isVirtual, p.table.nvAlign.toNat.isPowerOfTwo :=
    fun p hp => hparts p (List.mem_of_mem_filter hp)
  have hbegin : nv.front.extent.align.toNat.isPowerOfTwo := by
    rw [hfront]
    rcases Front.align_cases (c.needsVptr abi parts) pointerSize (parts.filter fun p => !p.spec.isVirtual) with
      heq | ⟨p, hp, heq⟩ | heq <;> rw [heq]
    · exact hptr
    · exact hparts' p hp
    · exact Nat.isPowerOfTwo_one
  obtain ⟨hpower₁, hptrLe⟩ := aligned_of_placeVbptr hvbptr hptr hbegin
  have hpower₂ := isPowerOfTwo_of_placeBases hbases hparts' hpower₁
  obtain ⟨hpower, hmembersOffset⟩ := aligned_of_placeMembers hmembers hmember hpower₂
  have hle₂ := align_le_of_placeBases hbases
  have hle₃ := align_le_of_placeMembers hmembers
  rw [← halign] at hpower hle₃
  refine ⟨hpower, fun b hb => ?_, fun howns => ?_, hmembersOffset⟩
  · obtain ⟨p, hp, -, htable⟩ := forall₂_mem_right (nonVirtualPart?_bases h) hb
    exact dvd_of_isPowerOfTwo (htable ▸ hparts' p hp) hpower (nvAlign_le_of_nonVirtualPart? h b hb)
  · have := hptrLe howns
    exact dvd_of_isPowerOfTwo hptr hpower (by omega)

end

/-- Bases that are placed in order are aligned. -/
theorem PlacedInOrder.dvd_offset {front start : ℕ} {primary : Option ClassId} {bases : List PlacedBase}
    (h : PlacedInOrder front start primary bases) (hpos : ∀ b ∈ bases, 0 < b.table.nvAlign.toNat) :
    ∀ b ∈ bases, b.table.nvAlign.toNat ∣ b.offset.toNat := by
  cases h with
  | plain _ hpacked => exact dvd_of_packed hpacked hpos
  | @primary before after p _ _ hzero _ hpacked =>
    have hothers := dvd_of_packed hpacked fun b hb => hpos b (by
      rcases List.mem_append.mp hb with hb | hb
      · exact List.mem_append_left _ hb
      · exact List.mem_append_right _ (List.mem_cons_of_mem _ hb))
    intro b hb
    rcases List.mem_append.mp hb with hb | hb
    · exact hothers b (List.mem_append_left _ hb)
    · rcases List.mem_cons.mp hb with rfl | hb
      · rw [hzero]
        exact Nat.dvd_zero _
      · exact hothers b (List.mem_append_right _ hb)

/-! ## Whole objects -/

section
variable {h : Hierarchy} {id : ClassId} {t : BaseOffsetTable} {roomOf : ClassId → Room}

/-- **Sizes are positive, and multiples of the alignment.** -/
theorem Resolves.size_aligned (hr : Resolves h id t) (hptr : 0 < h.pointerSize) :
    (0 < t.size.toNat ∧ t.align.toNat ∣ t.size.toNat) ∧
      0 < t.nvSize.toNat ∧ t.nvAlign.toNat ∣ t.nvSize.toNat := by
  obtain ⟨hnvPos, hpos⟩ := hr.align_pos hptr
  obtain ⟨c, parts, nv, own, shared, ha⟩ := hr.assembled
  obtain ⟨_, ht, -⟩ := ha.computed hr
  obtain ⟨nv', _, _, e, hnv', -, -, hclosed, heq⟩ := ClassType.offsetTable_eq_ok ht
  obtain ⟨-, _, _, _, e₃, -, -, -, -, hclosed', halign⟩ := ClassType.nonVirtualPart?_eq_some hnv'
  have hnvAlign : t.nvAlign = e₃.align := by rw [heq, ← halign]
  have hnvSize : t.nvSize = nv'.extent.size := by rw [heq]
  have hall : t.align = e.align := by rw [heq]
  rw [hnvAlign] at hnvPos ⊢
  rw [hall] at hpos ⊢
  exact ⟨⟨(Extent.le_of_closed hclosed).2, Extent.dvd_of_closed hclosed hpos⟩, hr.nvSize_pos,
    hnvSize ▸ Extent.dvd_of_closed hclosed' hnvPos⟩

/-- The members of every class that can be reached are aligned to powers of two. -/
def Hierarchy.MembersAligned (h : Hierarchy) : ClassId → Prop :=
  h.Throughout fun c => c.memberAlign.toNat.isPowerOfTwo

/-- All that has a place in an object is aligned, if classes take the given rooms. -/
structure Hierarchy.WellAligned (h : Hierarchy) (roomOf : ClassId → Room) (t : BaseOffsetTable) : Prop where
  powers : t.nvAlign.toNat.isPowerOfTwo ∧ t.align.toNat.isPowerOfTwo
  entries : ∀ s ∈ t.entries, (roomOf s.base).align ∣ s.offset.toNat ∧ (roomOf s.base).align ∣ t.align.toNat
  outside : ∀ s ∈ t.entries, s.inVirtualBase = false → (roomOf s.base).align ∣ t.nvAlign.toNat
  vbptr : ∀ o, t.vbptrOffset = some o →
    h.pointerSize.toNat ∣ o.toNat ∧ h.pointerSize.toNat ∣ t.nvAlign.toNat

theorem Hierarchy.WellAligned.of_has {b : Block} (hb : h.WellAligned roomOf b.placed.table)
    (hroom : roomOf b.placed.base = b.placed.table.room)
    (hoffset : b.placed.table.nvAlign.toNat ∣ b.placed.offset.toNat) {s : BaseSubobject} (hs : b.Has s) :
    (roomOf s.base).align ∣ s.offset.toNat ∧ (roomOf s.base).align ∣ b.placed.table.nvAlign.toNat := by
  rcases hs with rfl | ⟨s', hs', hwithin⟩
  · rw [Block.head, hroom]
    exact ⟨hoffset, Nat.dvd_refl _⟩
  · obtain ⟨hs', hv⟩ := List.mem_filter.mp hs'
    obtain ⟨o, ho, rfl⟩ := BaseSubobject.within_eq_some_iff.mp hwithin
    have halign := hb.outside s' hs' (by simpa using hv)
    rw [checkedAdd_eq_some_iff.mp ho]
    exact ⟨Nat.dvd_add (Nat.dvd_trans halign hoffset) (hb.entries s' hs').1, halign⟩

namespace Hierarchy.Assembled

variable {c : ClassType} {parts : List BasePart} {nv : NonVirtualPart} {own shared : List Block}
  (ha : h.Assembled id c parts t nv own shared) (hr : Resolves h id t)
  (hpowers : ∀ b tb, h.Inherits id b → Resolves h b tb → tb.nvAlign.toNat.isPowerOfTwo)
include ha hr hpowers

/-- The non-virtual part is aligned if the bases are. -/
theorem own_aligned (hptr : h.pointerSize.toNat.isPowerOfTwo) (hmember : c.memberAlign.toNat.isPowerOfTwo)
    (hnone : ∀ spec ∈ c.bases, spec.isVirtual = false → spec.offset = none) :
    t.nvAlign.toNat.isPowerOfTwo ∧
      (∀ b ∈ own, b.placed.table.nvAlign.toNat ∣ b.placed.offset.toNat ∧
        b.placed.table.nvAlign.toNat ∣ t.nvAlign.toNat) ∧
      (∀ o, t.vbptrOffset = some o → t.ownsVbptr = true →
        h.pointerSize.toNat ∣ o.toNat ∧ h.pointerSize.toNat ∣ t.nvAlign.toNat) ∧
      (0 < c.memberSize → c.memberAlign.toNat ∣ t.membersOffset.toNat) := by
  obtain ⟨_, hassembles⟩ := ha.assembles
  obtain ⟨hpower, hown, hptrDvd, hmembers⟩ :=
    ClassType.nonVirtualPart?_aligned hassembles.nonVirtual hptr hmember fun p hp =>
      hpowers _ _ (.single (directBase_of_part ha.defined ha.specs hp)) (ha.parts_resolved p hp)
  obtain ⟨hinOrder, -, hvbptr⟩ := ClassType.nonVirtualPart?_inOrder hassembles.nonVirtual fun p hp =>
    hnone p.spec (ha.specs ▸ List.mem_map_of_mem hp)
  have hoffset := hinOrder.dvd_offset fun b hb =>
    Nat.pos_of_isPowerOfTwo (hpowers _ _ (ha.bases_resolved b hb).1 (ha.bases_resolved b hb).2)
  rw [hassembles.nvAlign, hassembles.vbptr.1, hassembles.vbptr.2, (ha.front_eq hr).2]
  refine ⟨hpower, fun b hb => ?_, fun o ho howns => ⟨?_, hptrDvd howns⟩, hmembers⟩
  · have hmem : b.placed ∈ nv.bases := hassembles.own_placed ▸ List.mem_map_of_mem hb
    exact ⟨hoffset _ hmem, hown _ hmem⟩
  · rw [hvbptr howns o ho]
    exact dvd_roundUp (Nat.pos_of_isPowerOfTwo hptr)

/-- The virtual bases are aligned, and the object as each of them. -/
theorem shared_aligned (hpower : t.nvAlign.toNat.isPowerOfTwo)
    (hroom : ∀ b tb, Resolves h b tb → roomOf b = tb.room) :
    t.align.toNat.isPowerOfTwo ∧
      ∀ b ∈ shared, b.placed.table.nvAlign.toNat ∣ b.placed.offset.toNat ∧
        b.placed.table.nvAlign.toNat ∣ t.align.toNat := by
  obtain ⟨tableOf, ht, -, hvirtual⟩ := ha.computed hr
  obtain ⟨nv', _, _, e, -, -, hplace, -, heq⟩ := ClassType.offsetTable_eq_ok ht
  have hnvAlign : t.nvAlign = nv'.extent.align := by rw [heq]
  have halign : t.align = e.align := by rw [heq]
  have hinherits {v : ClassId} (hv : v ∈ (VirtualPaths.ofParts parts).map (·.1)) : h.Inherits id v :=
    inherits_of_key ha.defined ha.specs ha.parts_resolved hv
  obtain ⟨hall, hle⟩ := aligned_of_placeVirtualBases hplace
    (fun v hv tv htv => hpowers v tv (hinherits hv) (hvirtual v hv tv htv)) (hnvAlign ▸ hpower)
  rw [← halign] at hall hle
  refine ⟨hall, fun b hb => ?_⟩
  obtain ⟨hinherits, hres⟩ := ha.resolved b (List.mem_append_right _ hb)
  have hhead : b.head ∈ t.virtualBases := ha.virtualBases_eq ▸ List.mem_map_of_mem hb
  constructor
  · have hdvd := dvd_of_packed (hr.virtualBases_packed hroom) (fun s hs => ?_) b.head hhead
    · rwa [Block.head, hroom _ _ hres] at hdvd
    · have hin := hr.inherits_of_mem s (List.mem_of_mem_filter hs)
      obtain ⟨ts, hts⟩ := hr.of_reaches hin.to_reflTransGen
      rw [hroom _ _ hts]
      exact Nat.pos_of_isPowerOfTwo (hpowers _ _ hin hts)
  · have hkey : b.placed.base ∈ (VirtualPaths.ofParts parts).map (·.1) :=
      ha.map_virtualBases ▸ List.mem_map_of_mem hhead
    obtain ⟨tv, htv, hle⟩ := hle _ hkey
    obtain rfl := (hvirtual _ hkey tv htv).unique hres
    exact dvd_of_isPowerOfTwo (hpowers _ _ hinherits hres) hall hle

end Hierarchy.Assembled

/-- **Every sub-object is aligned**, at any depth, where all alignments that classes start from are powers
    of two and no offsets are recorded. -/
theorem Resolves.wellAligned (hr : Resolves h id t) (hptr : h.pointerSize.toNat.isPowerOfTwo)
    (hroom : ∀ b tb, Resolves h b tb → roomOf b = tb.room) (hmembers : h.MembersAligned id)
    (hu : h.Unrecorded id) : h.WellAligned roomOf t := by
  revert hmembers hu
  refine hr.inherits_induction
    (P := fun id t => h.MembersAligned id → h.Unrecorded id → h.WellAligned roomOf t) ?_
  intro id t hr ih hmembers hu
  obtain ⟨c, parts, nv, own, shared, ha⟩ := hr.assembled
  have hbase {b : ClassId} {tb : BaseOffsetTable} (hb : h.Inherits id b) (hres : Resolves h b tb) :
      h.WellAligned roomOf tb :=
    ih b tb hb hres (hmembers.base hb.to_reflTransGen) (hu.base hb.to_reflTransGen)
  have hpowers : ∀ b tb, h.Inherits id b → Resolves h b tb → tb.nvAlign.toNat.isPowerOfTwo :=
    fun b tb hb hres => (hbase hb hres).powers.1
  obtain ⟨hpower, hown, hvbptr, -⟩ := ha.own_aligned hr hpowers hptr (hmembers id c .refl ha.defined)
    (hu id c .refl ha.defined)
  obtain ⟨hall, hshared⟩ := ha.shared_aligned hr hpowers hpower hroom
  have hnvDvd : t.nvAlign.toNat ∣ t.align.toNat := by
    obtain ⟨_, hassembles⟩ := ha.assembles
    exact dvd_of_isPowerOfTwo hpower hall hassembles.nvAlign_le
  -- a sub-object is aligned as the block that has it, and so is the object
  have hentries : ∀ s ∈ t.entries, (roomOf s.base).align ∣ s.offset.toNat ∧
      ((roomOf s.base).align ∣ t.nvAlign.toNat ∨
        s.inVirtualBase = true ∧ (roomOf s.base).align ∣ t.align.toNat) := by
    intro s hs
    obtain ⟨b, hb, hs⟩ := ha.tile.exists_block hs
    obtain ⟨hinherits, hres⟩ := ha.resolved b hb
    have hhas := fun hoffset => (hbase hinherits hres).of_has (hroom _ _ hres) hoffset hs
    rcases List.mem_append.mp hb with hb | hb
    · obtain ⟨hoffset, halign⟩ := hown b hb
      exact ⟨(hhas hoffset).1, .inl (Nat.dvd_trans (hhas hoffset).2 halign)⟩
    · obtain ⟨hoffset, halign⟩ := hshared b hb
      exact ⟨(hhas hoffset).1,
        .inr ⟨hs.inVirtualBase_eq.trans (ha.shared_head b hb), Nat.dvd_trans (hhas hoffset).2 halign⟩⟩
  have houtside : ∀ s ∈ t.entries, s.inVirtualBase = false → (roomOf s.base).align ∣ t.nvAlign.toNat :=
    fun s hs hv => (hentries s hs).2.resolve_right fun hin => by simp [hv] at hin
  refine ⟨⟨hpower, hall⟩, fun s hs => ⟨(hentries s hs).1, ?_⟩, houtside, fun o ho => ?_⟩
  · rcases (hentries s hs).2 with hdvd | ⟨-, hdvd⟩
    · exact Nat.dvd_trans hdvd hnvDvd
    · exact hdvd
  · cases howns : t.ownsVbptr with
    | true => exact hvbptr o ho howns
    | false =>
      -- the pointer of a base, which is aligned as the pointer
      obtain ⟨s, hs, ts, inner, hts, hinner, hsum⟩ := hr.exists_vbptr ho howns
      have hmem : s ∈ t.entries := List.mem_of_mem_filter (List.mem_of_mem_filter hs)
      have hout : s.inVirtualBase = false := by
        rw [ha.map_ownHead] at hs
        obtain ⟨b, -, rfl⟩ := List.mem_map.mp hs
        rfl
      obtain ⟨hdvd, hptrDvd⟩ := (hbase (hr.inherits_of_mem s hmem) hts).vbptr inner hinner
      have halign : (roomOf s.base).align = ts.nvAlign.toNat := congrArg Room.align (hroom _ _ hts)
      rw [← halign] at hptrDvd
      rw [hsum]
      exact ⟨Nat.dvd_add (Nat.dvd_trans hptrDvd (hentries s hmem).1) hdvd,
        Nat.dvd_trans hptrDvd (houtside s hmem hout)⟩

/-- The data members of the class itself are aligned. -/
theorem Resolves.members_aligned {c : ClassType} (hr : Resolves h id t) (hc : h.classes.get? id = some c)
    (hptr : h.pointerSize.toNat.isPowerOfTwo) (hroom : ∀ b tb, Resolves h b tb → roomOf b = tb.room)
    (hmembers : h.MembersAligned id) (hu : h.Unrecorded id) (hsize : 0 < c.memberSize) :
    c.memberAlign.toNat ∣ t.membersOffset.toNat := by
  obtain ⟨c', parts, nv, own, shared, ha⟩ := hr.assembled
  obtain rfl := Option.some.inj (hc.symm.trans ha.defined)
  have hpowers : ∀ b tb, h.Inherits id b → Resolves h b tb → tb.nvAlign.toNat.isPowerOfTwo :=
    fun b tb hb hres => (hres.wellAligned hptr hroom (hmembers.base hb.to_reflTransGen)
      (hu.base hb.to_reflTransGen)).powers.1
  exact (ha.own_aligned hr hpowers hptr (hmembers id c .refl hc) (hu id c .refl hc)).2.2.2 hsize

end

namespace ClassModel

/-- **Every sub-object is aligned.**  Unless pointers have no size, the sizes of a class are positive and
    multiples of its alignments.  Where the pointer size and the alignments of members are powers of two,
    and no class that can be reached has a base with a recorded offset, every sub-object at any depth is at
    a multiple of its class's alignment, which divides that of the object, and so are the hidden pointers
    and the data members. -/
theorem offsetTable_aligned (abi : Abi) (pointerSize : Word) (ops : List Operation) (id : ClassId)
    (t : BaseOffsetTable) (ht : ((reached abi pointerSize ops).offsetTable id).1 = .ok t)
    (hpos : 0 < pointerSize) :
    let m := reached abi pointerSize ops
    let h := m.hierarchy
    (0 < t.size.toNat ∧ t.align.toNat ∣ t.size.toNat) ∧
      (0 < t.nvSize.toNat ∧ t.nvAlign.toNat ∣ t.nvSize.toNat) ∧
      (pointerSize.toNat.isPowerOfTwo → h.MembersAligned id → h.Unrecorded id →
        (∀ s ∈ t.entries, ∃ ts, (m.offsetTable s.base).1 = .ok ts ∧ ts.nvAlign.toNat ∣ s.offset.toNat ∧
          ts.nvAlign.toNat ∣ t.align.toNat ∧
          (s.inVirtualBase = false → ts.nvAlign.toNat ∣ t.nvAlign.toNat)) ∧
        (∀ o, t.vptrOffset = some o ∨ t.vbptrOffset = some o → pointerSize.toNat ∣ o.toNat) ∧
        ∃ c, m.get? id = some c ∧
          (0 < c.memberSize → c.memberAlign.toNat ∣ t.membersOffset.toNat)) := by
  intro m h
  have hm : m.Coherent := coherent_reached abi pointerSize ops
  have hr : Resolves h id t := hm.resolves ht
  have hptr : h.pointerSize = pointerSize := (parameters_reached abi pointerSize ops).2
  have hroom : ∀ b tb, Resolves h b tb → m.room b = tb.room := fun b tb => hm.room_eq
  obtain ⟨hsize, hnvSize⟩ := hr.size_aligned (hptr ▸ hpos)
  refine ⟨hsize, hnvSize, fun hpower hmembers hu => ?_⟩
  rw [← hptr] at hpower ⊢
  have haligned := hr.wellAligned hpower hroom hmembers hu
  refine ⟨fun s hs => ?_, ?_, ?_⟩
  · obtain ⟨ts, hts⟩ := hr.of_reaches (hr.inherits_of_mem s hs).to_reflTransGen
    have halign : (m.room s.base).align = ts.nvAlign.toNat := congrArg Room.align (hroom _ _ hts)
    refine ⟨ts, hm.offsetTable_eq hts, ?_⟩
    rw [← halign]
    exact ⟨(haligned.entries s hs).1, (haligned.entries s hs).2, haligned.outside s hs⟩
  · rintro o (ho | ho)
    · rw [(hr.vptr_le ho).1]
      exact Nat.dvd_zero _
    · exact (haligned.vbptr o ho).1
  · obtain ⟨c, hc⟩ := hr.exists_class
    exact ⟨c, hc, hr.members_aligned hc hpower hroom hmembers hu⟩

/-- Members of different alignments at three depths, behind a virtual step and without one. -/
theorem offsetTable_aligned_deep :
    let m := reached .msvc 4
      [.insert { id := 1, name := "Scalar", memberSize := 12, memberAlign := 8 },
        .insert { id := 2, name := "Tagged", bases := [⟨1, false, true, none⟩], memberSize := 1 },
        .insert { id := 3, name := "Shared", bases := [⟨2, true, true, none⟩], memberSize := 2 },
        .insert { id := 4, name := "Both", bases := [⟨3, false, true, none⟩, ⟨2, false, true, none⟩] }]
    ∃ t, (m.offsetTable 4).1 = .ok t ∧ t.entries.map (·.base) = [3, 2, 1, 2, 1] ∧
      ∀ s ∈ t.entries, ∃ ts, (m.offsetTable s.base).1 = .ok ts ∧ ts.nvAlign.toNat ∣ s.offset.toNat := by
  intro m
  have hu : m.hierarchy.Unrecorded 4 := unrecorded_of_forall (by decide +kernel)
  have hmembers : m.hierarchy.MembersAligned 4 := throughout_of_forall (by decide +kernel)
  cases ht : (m.offsetTable 4).1 with
  | error e =>
    have hok : (m.offsetTable 4).1.isOk = true := by decide +kernel
    rw [ht] at hok
    cases hok
  | ok t =>
    have hbases : (m.offsetTable 4).1.toOption.map (·.entries.map (·.base)) = some [3, 2, 1, 2, 1] := by
      decide +kernel
    rw [ht] at hbases
    have haligned := offsetTable_aligned .msvc 4 _ 4 t ht (by decide)
    refine ⟨t, rfl, Option.some.inj hbases, fun s hs => ?_⟩
    obtain ⟨ts, hts, hdvd, -⟩ := (haligned.2.2 ⟨2, rfl⟩ hmembers hu).1 s hs
    exact ⟨ts, hts, hdvd⟩

end ClassModel

end ClassRecovery
