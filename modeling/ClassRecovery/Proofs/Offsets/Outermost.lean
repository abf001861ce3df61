/-
  Outermost sub-objects.

  The direct bases that are not virtual and the virtual bases lie in no other sub-object: they begin the blocks
  that an object is made of (`Hierarchy.Assembled.outermost_eq`).  Every other sub-object lies in one of
  them, and so do the hidden pointers that a class does not add itself (`Resolves.vptr_le`).
-/
import ClassRecovery.Proofs.Offsets.Nesting

namespace ClassRecovery

open Hierarchy

/-- The sub-objects that lie in no other: the direct bases that are not virtual, and all virtual
    bases. -/
def BaseOffsetTable.outermost (t : BaseOffsetTable) : List BaseSubobject :=
  t.direct.filter (!·.isVirtual) ++ t.virtualBases

/-- The direct bases that are not virtual, in order of declaration. -/
def BaseOffsetTable.ownBases (t : BaseOffsetTable) : List BaseSubobject := t.direct.filter (!·.isVirtual)

theorem BaseOffsetTable.mem_entries_of_ownBases {t : BaseOffsetTable} {s : BaseSubobject}
    (hs : s ∈ t.ownBases) : s ∈ t.entries :=
  List.mem_of_mem_filter (List.mem_of_mem_filter hs)

theorem BaseOffsetTable.mem_entries_of_outermost {t : BaseOffsetTable} {s : BaseSubobject}
    (hs : s ∈ t.outermost) : s ∈ t.entries := by
  rcases List.mem_append.mp hs with hs | hs
  · exact List.mem_of_mem_filter (List.mem_of_mem_filter hs)
  · exact List.mem_of_mem_filter hs

/-- The entry for a placed base that is direct and not virtual. -/
def PlacedBase.ownHead (b : PlacedBase) : BaseSubobject := ⟨b.base, b.offset, false, false, [[b.base]]⟩

/-- Of what is in a placed base, the base alone may be virtual. -/
theorem PlacedBase.filter_isVirtual {b : PlacedBase} {shared : Bool} {fronts : List BasePath}
    {block : List BaseSubobject} (hblock : b.subobjects shared fronts = some block) :
    block.filter (·.isVirtual) =
      if shared then [⟨b.base, b.offset, shared, shared, fronts⟩] else [] := by
  obtain ⟨inner, hinner, rfl⟩ := PlacedBase.subobjects_eq_some_iff.mp hblock
  have hnone : inner.filter (·.isVirtual) = [] := by
    refine List.filter_eq_nil_iff.mpr fun s hs => ?_
    obtain ⟨s', -, hwithin⟩ := forall₂_mem_right hinner hs
    obtain ⟨_, -, rfl⟩ := BaseSubobject.within_eq_some_iff.mp hwithin
    simp
  rw [List.filter_cons, hnone]

namespace Block

variable {blocks : List Block} {entries : List BaseSubobject}

/-- Of the entries of blocks, the heads of the virtual ones are virtual. -/
theorem Tile.filter_isVirtual (h : Tile blocks entries) :
    entries.filter (·.isVirtual) = (blocks.filter (·.isVirtual)).map head := by
  obtain ⟨lists, hlists, rfl⟩ := h
  rw [← List.map_id' (List.filter _ lists.flatten)]
  refine filter_flatten_of_blocks (hlists.imp fun b l hl => ?_)
  rw [List.map_id', PlacedBase.filter_isVirtual hl]
  rfl

/-- Of the entries of blocks, the heads that are reached in one step are direct. -/
theorem Tile.filter_isDirect (h : Tile blocks entries)
    (hpaths : ∀ b ∈ blocks, [] ∉ b.paths ∧ b.placed.table.Steps) :
    entries.filter BaseSubobject.isDirect = (blocks.filter (·.head.isDirect)).map head := by
  obtain ⟨lists, hlists, rfl⟩ := h
  rw [← List.map_id' (List.filter _ lists.flatten)]
  refine filter_flatten_of_blocks (forall₂_imp_mem hlists fun b hb l hl => ?_)
  rw [List.map_id', PlacedBase.filter_direct hl (hpaths b hb).1 (hpaths b hb).2]
  rfl

end Block

section
variable {h : Hierarchy} {id : ClassId} {t : BaseOffsetTable}

namespace Hierarchy.Assembled

variable {c : ClassType} {parts : List BasePart} {nv : NonVirtualPart} {own shared : List Block}
  (ha : h.Assembled id c parts t nv own shared)
include ha

theorem virtualBases_eq : t.virtualBases = shared.map Block.head := by
  have hown : own.filter (·.isVirtual) = [] :=
    List.filter_eq_nil_iff.mpr fun b hb => by simp [(ha.own_head b hb).1]
  have hshared : shared.filter (·.isVirtual) = shared := List.filter_eq_self.mpr ha.shared_head
  rw [BaseOffsetTable.virtualBases, ha.tile.filter_isVirtual, List.filter_append, hown, hshared,
    List.nil_append]

/-- The direct bases that are not virtual begin the blocks outside of virtual bases. -/
theorem ownBases_eq : t.direct.filter (!·.isVirtual) = own.map Block.head := by
  have hpaths : ∀ b ∈ own ++ shared, [] ∉ b.paths ∧ b.placed.table.Steps := by
    refine fun b hb => ⟨?_, (ha.resolved b hb).2.steps⟩
    rcases List.mem_append.mp hb with hb | hb
    · simp [(ha.own_head b hb).2]
    · exact ha.shared_steps b hb
  have hown : own.filter (fun b => !b.head.isVirtual && b.head.isDirect) = own :=
    List.filter_eq_self.mpr fun b hb => by
      simp [Block.head, BaseSubobject.isDirect, ha.own_head b hb]
  have hshared : shared.filter (fun b => !b.head.isVirtual && b.head.isDirect) = [] :=
    List.filter_eq_nil_iff.mpr fun b hb => by simp [Block.head, ha.shared_head b hb]
  rw [BaseOffsetTable.direct, ha.tile.filter_isDirect hpaths, List.filter_map, List.filter_filter]
  simp only [Function.comp_def]
  rw [List.filter_append, hown, hshared, List.append_nil]

theorem map_ownHead : t.ownBases = nv.bases.map PlacedBase.ownHead := by
  obtain ⟨_, hassembles⟩ := ha.assembles
  rw [BaseOffsetTable.ownBases, ha.ownBases_eq, ← hassembles.own_placed, List.map_map]
  refine List.map_congr_left fun b hb => ?_
  obtain ⟨hvirtual, hpaths⟩ := ha.own_head b hb
  rw [Block.head, hvirtual, hpaths]
  rfl

theorem bases_resolved : ∀ b ∈ nv.bases, h.Inherits id b.base ∧ Resolves h b.base b.table := by
  obtain ⟨_, hassembles⟩ := ha.assembles
  rw [← hassembles.own_placed, List.forall_mem_map]
  exact fun b hb => ha.resolved b (List.mem_append_left _ hb)

/-- The table has its primary base and the place of the members from the non-virtual part. -/
theorem front_eq (hr : Resolves h id t) :
    t.primaryBase = nv.front.primaryBase ∧ t.membersOffset = nv.membersOffset := by
  obtain ⟨_, ht, hnv, -⟩ := ha.computed hr
  obtain ⟨nv', _, _, _, hnv', -, -, -, heq⟩ := ClassType.offsetTable_eq_ok ht
  obtain rfl := Option.some.inj (hnv.symm.trans hnv')
  exact ⟨by rw [heq], by rw [heq]⟩

/-- **The outermost sub-objects begin the blocks** of an object. -/
theorem outermost_eq : t.outermost = (own ++ shared).map Block.head := by
  rw [BaseOffsetTable.outermost, ha.ownBases_eq, ha.virtualBases_eq, List.map_append]

theorem hasVirtualBases_eq_false_iff : t.hasVirtualBases = false ↔ shared = [] := by
  have hvirtual : t.virtualBases = [] ↔ shared = [] := by rw [ha.virtualBases_eq, List.map_eq_nil_iff]
  rw [← hvirtual, BaseOffsetTable.virtualBases, List.filter_eq_nil_iff, BaseOffsetTable.hasVirtualBases,
    List.any_eq_false]

end Hierarchy.Assembled

/-! ## Which bases these are -/

/-- `v` is a virtual base of `a`, at some depth. -/
def Hierarchy.VirtualBase (h : Hierarchy) (a v : ClassId) : Prop :=
  ∃ d c, h.Reaches a d ∧ h.classes.get? d = some c ∧ ∃ spec ∈ c.bases, spec.isVirtual = true ∧ spec.base = v

/-- A virtual base of a class is a direct base that is virtual, or a virtual base of a direct base. -/
theorem Hierarchy.virtualBase_iff {c : ClassType} {v : ClassId} (hc : h.classes.get? id = some c) :
    h.VirtualBase id v ↔ ∃ spec ∈ c.bases, (spec.isVirtual = true ∧ spec.base = v) ∨ h.VirtualBase spec.base v := by
  constructor
  · rintro ⟨d, c', hreach, hc', spec, hspec, hvirtual, rfl⟩
    rcases Relation.ReflTransGen.cases_head hreach with rfl | ⟨b, ⟨c'', hc'', spec', hspec', rfl⟩, hrest⟩
    · obtain rfl := Option.some.inj (hc.symm.trans hc')
      exact ⟨spec, hspec, .inl ⟨hvirtual, rfl⟩⟩
    · obtain rfl := Option.some.inj (hc.symm.trans hc'')
      exact ⟨spec', hspec', .inr ⟨d, c', hrest, hc', spec, hspec, hvirtual, rfl⟩⟩
  · rintro ⟨spec, hspec, ⟨hvirtual, rfl⟩ | ⟨d, c', hreach, hc', spec', hspec', hvirtual, rfl⟩⟩
    · exact ⟨id, c, .refl, hc, spec, hspec, hvirtual, rfl⟩
    · exact ⟨d, c', .head ⟨c, hc, spec, hspec, rfl⟩ hreach, hc', spec', hspec', hvirtual, rfl⟩

namespace Hierarchy.Assembled

variable {c : ClassType} {parts : List BasePart} {nv : NonVirtualPart} {own shared : List Block}
  (ha : h.Assembled id c parts t nv own shared)
include ha

/-- The virtual bases of the table are those that the direct bases lead to. -/
theorem virtualBases_spec :
    List.Forall₂ (fun v s => s.base = v.1 ∧ s.paths = v.2) (VirtualPaths.ofParts parts) t.virtualBases := by
  obtain ⟨_, hassembles⟩ := ha.assembles
  rw [ha.virtualBases_eq]
  refine List.forall₂_map_right_iff.mpr (hassembles.shared_spec.imp ?_)
  rintro v b ⟨-, hbase, hpaths, -⟩
  exact ⟨hbase, hpaths⟩

theorem map_virtualBases :
    t.virtualBases.map (·.base) = (VirtualPaths.ofParts parts).map (·.1) :=
  map_eq_of_forall₂ ha.virtualBases_spec fun _ _ hspec => hspec.1

end Hierarchy.Assembled

/-- The direct bases of the table that are not virtual are those of the class, in order of declaration. -/
theorem Resolves.map_ownBases {c : ClassType} (hr : Resolves h id t) (hc : h.classes.get? id = some c) :
    (t.direct.filter (!·.isVirtual)).map (·.base) = (c.bases.filter (!·.isVirtual)).map (·.base) := by
  obtain ⟨c', parts, nv, own, shared, ha⟩ := hr.assembled
  obtain rfl := Option.some.inj (hc.symm.trans ha.defined)
  obtain ⟨_, hassembles⟩ := ha.assembles
  rw [ha.ownBases_eq, ← ha.specs, List.filter_map, List.map_map, List.map_map]
  exact map_eq_of_forall₂ hassembles.own_spec fun _ _ hspec => hspec.2.1

/-- Some path leads to every virtual base. -/
theorem Resolves.paths_ne_nil (hr : Resolves h id t) : ∀ s ∈ t.virtualBases, s.paths ≠ [] := by
  obtain ⟨_, _, _, _, _, ha⟩ := hr.assembled
  intro s hs
  obtain ⟨v, hv, -, hpaths⟩ := forall₂_mem_right ha.virtualBases_spec hs
  exact hpaths ▸ VirtualPaths.ne_nil_of_mem_ofParts hv

/-- **The virtual bases of the table are those of the class**, at any depth and each once. -/
theorem Resolves.mem_virtualBases_iff (hr : Resolves h id t) :
    (t.virtualBases.map (·.base)).Nodup ∧
      ∀ v, v ∈ t.virtualBases.map (·.base) ↔ h.VirtualBase id v := by
  refine hr.inherits_induction (P := fun id t => (t.virtualBases.map (·.base)).Nodup ∧
    ∀ v, v ∈ t.virtualBases.map (·.base) ↔ h.VirtualBase id v) ?_
  intro id t hr ih
  obtain ⟨c, parts, nv, own, shared, ha⟩ := hr.assembled
  rw [ha.map_virtualBases]
  refine ⟨VirtualPaths.nodup_keys_ofParts parts, fun v => ?_⟩
  have hvirtual {p : BasePart} (hp : p ∈ parts) :
      v ∈ p.table.virtualBases.map (·.base) ↔ h.VirtualBase p.spec.base v :=
    (ih _ _ (.single (directBase_of_part ha.defined ha.specs hp)) (ha.parts_resolved p hp)).2 v
  rw [Hierarchy.virtualBase_iff ha.defined, ← ha.specs]
  constructor
  · intro hv
    obtain ⟨p, hp, path, hlead⟩ := VirtualPaths.mem_keys_ofParts hv
    refine ⟨p.spec, List.mem_map_of_mem hp, ?_⟩
    rcases hlead with ⟨hmarked, rfl, -⟩ | ⟨s, hs, rfl, -⟩
    · exact .inl ⟨hmarked, rfl⟩
    · exact .inr ((hvirtual hp).mp (List.mem_map_of_mem hs))
  · rintro ⟨spec, hspec, hv⟩
    obtain ⟨p, hp, rfl⟩ := List.mem_map.mp hspec
    suffices ∃ path, p.LeadsTo v path by
      obtain ⟨path, hlead⟩ := this
      obtain ⟨paths, hmem, -⟩ := VirtualPaths.has_ofParts.mpr ⟨p, hp, hlead⟩
      exact List.mem_map_of_mem hmem
    rcases hv with ⟨hv, rfl⟩ | hv
    · exact ⟨_, .inl ⟨hv, rfl, rfl⟩⟩
    · obtain ⟨s, hs, rfl⟩ := List.mem_map.mp ((hvirtual hp).mpr hv)
      obtain ⟨back, hback⟩ :=
        List.exists_mem_of_ne_nil _ ((ha.parts_resolved p hp).paths_ne_nil s hs)
      exact ⟨_, .inr ⟨s, hs, rfl, back, hback, rfl⟩⟩

/-! ## The virtual pointer -/

/-- **The virtual pointer** of a class, its own or a base's, begins the object, which has room for it. -/
theorem Resolves.vptr_le (hr : Resolves h id t) {o : Word} (ho : t.vptrOffset = some o) :
    o = 0 ∧ h.pointerSize.toNat ≤ t.nvSize.toNat := by
  revert o
  refine hr.inherits_induction
    (P := fun _ t => ∀ {o}, t.vptrOffset = some o → o = 0 ∧ h.pointerSize.toNat ≤ t.nvSize.toNat) ?_
  intro id t hr ih o ho
  obtain ⟨c, parts, nv, own, shared, ha⟩ := hr.assembled
  obtain ⟨-, -, hadded, hown, -⟩ := ha.bounded
  obtain ⟨_, hassembles⟩ := ha.assembles
  rw [hassembles.vptr.1] at ho
  rw [hassembles.added] at hadded
  have hfront := (ClassType.nonVirtualPart?_eq_some hassembles.nonVirtual).1
  unfold Front.of at hfront
  split at hfront
  · next p hfind =>
    obtain rfl : (0 : Word) = o := by
      rw [hfront] at ho
      exact Option.some.inj ho
    refine ⟨rfl, ?_⟩
    -- the primary base is one of the blocks, and has room for its virtual pointer
    obtain ⟨b, hb, -, -, -, htable⟩ := forall₂_mem_left hassembles.own_spec (List.mem_of_find?_eq_some hfind)
    have hdynamic := List.find?_some hfind
    simp only [BasePart.canBePrimary, BaseOffsetTable.isDynamic, Bool.and_eq_true] at hdynamic
    obtain ⟨o', ho'⟩ := Option.isSome_iff_exists.mp hdynamic.1
    obtain ⟨hinherits, hres⟩ := ha.resolved b (List.mem_append_left _ hb)
    have hle := (ih _ _ hinherits hres (htable ▸ ho')).2
    have hstop := hown b hb
    simp only [Span.stop, PlacedBase.span] at hstop
    omega
  · split at hfront
    · obtain rfl : (0 : Word) = o := by
        rw [hfront] at ho
        exact Option.some.inj ho
      refine ⟨rfl, ?_⟩
      have hmem : (⟨0, h.pointerSize⟩ : Span) ∈ nv.addedSpans h.pointerSize c.memberSize := by
        refine mem_addedSpans.mpr (.inl ?_)
        simp [hfront]
      have hstop := hadded _ hmem
      simp only [Span.stop] at hstop
      omega
    · rw [hfront] at ho
      cases ho

end

end ClassRecovery
