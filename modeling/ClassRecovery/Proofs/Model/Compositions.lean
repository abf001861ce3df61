/-
  Layouts composed from nothing.

  Where nothing is registered under the names of a class, its layouts have the sizes of its offset table, since
  nothing that is put in reaches beyond these (`Composes.sizes`).  Their embedded bases are outermost
  sub-objects of the class (`Composes.embeds_of_isBase`); and where no base has a recorded offset, every
  outermost sub-object is embedded, for none evicts another (`Composes.exists_field`).
-/
import ClassRecovery.Proofs.Layout.Bytes
import ClassRecovery.Proofs.Model.Layouts
import ClassRecovery.Proofs.Offsets.Outermost

namespace ClassRecovery

/-- The bytes of an embedded base. -/
def EmbeddedBase.span (b : EmbeddedBase) : Span := ⟨b.offset, b.size⟩

namespace ClassModel

section
variable {c : ClassType} {abi : Abi} {pointerSize : Word} {table : BaseOffsetTable}
  {bases : List EmbeddedBase} {name : String} {size align : Word} {away : List Field} {l : Layout}
  (hcomp : c.compose abi pointerSize table bases size
    ((new abi pointerSize).startLayout name size align) = .ok (away, l))
include hcomp

/-- Composed from nothing, a layout has the size it is meant to have, if all that is put in is within it. -/
theorem size_of_compose (hbases : ∀ b ∈ bases, b.span.stop ≤ size.toNat)
    (hpointers : ∀ p ∈ c.hiddenPointers abi pointerSize table,
      p.offset.toNat + p.size.toNat ≤ size.toNat)
    (hmembers : table.membersOffset.toNat + c.memberSize.toNat ≤ size.toNat) : l.size = size := by
  obtain ⟨-, hr⟩ := ClassType.compose_ok_iff.mp hcomp
  obtain ⟨-, rfl⟩ := Prod.mk.inj hr
  have hsize : (((new abi pointerSize).startLayout name size align).composed
      (bases.map EmbeddedBase.field) (c.hiddenPointers abi pointerSize table)
      (.undefined table.membersOffset c.memberSize)).size = size := by
    refine Layout.composed_size_eq ?_ ?_ ?_
    · intro f hf
      obtain ⟨b, hb, rfl⟩ := List.mem_map.mp hf
      exact Nat.le_trans b.field.toNat_stop_le (hbases b hb)
    · exact fun p hp => Nat.le_trans p.toNat_stop_le (hpointers p hp)
    · exact Nat.le_trans (Field.toNat_stop_le _) hmembers
  simp only [Layout.growTo, hsize]
  apply UInt64.toNat_inj.mp
  rw [toNat_max, Nat.max_self]

/-- Composed from nothing, a layout has no embedded bases but those that are put in. -/
theorem exists_of_isBase {f : Field} (hf : f ∈ l.fields) (hbase : f.isBase = true) :
    ∃ b ∈ bases, f = b.field := by
  obtain ⟨-, hr⟩ := ClassType.compose_ok_iff.mp hcomp
  obtain ⟨-, rfl⟩ := Prod.mk.inj hr
  rcases Layout.mem_of_isBase ClassType.isBase_hiddenPointers rfl hf hbase with hf | hf
  · obtain ⟨b, hb, rfl⟩ := List.mem_map.mp hf
    exact ⟨b, hb, rfl⟩
  · cases hf

/-- Composed from nothing, a layout has all bases that are put in, if no two share a byte. -/
theorem field_mem_of_pairwise (hapart : bases.Pairwise fun b b' => ¬ b.field.Meets b'.field) :
    ∀ b ∈ bases, b.field ∈ l.fields := by
  intro b hb
  obtain ⟨-, hr⟩ := ClassType.compose_ok_iff.mp hcomp
  obtain ⟨-, rfl⟩ := Prod.mk.inj hr
  refine (Layout.mem_composed_of_guards (c.not_guards_hiddenPointers abi pointerSize table)
    (Field.not_guards_undefined _ _) b.guards_field).mpr (Layout.mem_putAll.mpr (.inl ?_))
  exact Layout.survives_of_pairwise (List.pairwise_map.mpr hapart) (List.mem_map_of_mem hb)

end

section
variable {h : Hierarchy} {names : OrderedMap ClassId String} {id : ClassId} {t : BaseOffsetTable}
  {c : ClassType}

/-! ## What a class puts in -/

/-- The hidden pointers of a class and its data members are in its non-virtual part. -/
theorem added_le (hr : Resolves h id t) (hc : h.classes.get? id = some c) :
    (∀ p ∈ c.hiddenPointers h.abi h.pointerSize t,
      p.offset.toNat + p.size.toNat ≤ t.nvSize.toNat) ∧
      t.membersOffset.toNat + c.memberSize.toNat ≤ t.nvSize.toNat := by
  obtain ⟨c', _, _, _, _, ha⟩ := hr.assembled
  obtain rfl : c = c' := Option.some.inj (hc.symm.trans ha.defined)
  obtain ⟨-, -, hadded, -⟩ := ha.bounded
  refine ⟨fun p hp => ?_, hadded _ (mem_addedSpans.mpr (.inr (.inr rfl)))⟩
  rcases ClassType.of_mem_hiddenPointers hp with ⟨o, ho, rfl⟩ | ⟨o, howns, ho, rfl⟩
  · obtain ⟨rfl, hle⟩ := hr.vptr_le ho
    change 0 + h.pointerSize.toNat ≤ t.nvSize.toNat
    omega
  · refine hadded ⟨o, h.pointerSize⟩ (mem_addedSpans.mpr (.inr (.inl ?_)))
    simp [howns, ho]

/-- The bases that are embedded take the bytes of the blocks that they begin. -/
theorem spans_of_embeds {blocks : List Block} {bases : List EmbeddedBase}
    (hres : ∀ b ∈ blocks, Resolves h b.placed.base b.placed.table)
    (hbases : List.Forall₂ (Embeds h names) (blocks.map Block.head) bases) :
    List.Forall₂ (fun b e => e.span = b.placed.span) blocks bases := by
  refine forall₂_imp_mem (List.forall₂_map_left_iff.mp hbases) fun b hb e he => ?_
  obtain ⟨typeName, table, -, htable, rfl⟩ := he
  obtain rfl := htable.unique (hres b hb)
  rfl

/-- All bases that a layout of the class embeds take the bytes of the blocks that an object is made of. -/
theorem spans_of_outermost {parts : List BasePart} {nv : NonVirtualPart} {own virtual : List Block}
    (ha : h.Assembled id c parts t nv own virtual) {bases : List EmbeddedBase}
    (hbases : List.Forall₂ (Embeds h names) t.outermost bases) :
    List.Forall₂ (fun b e => e.span = b.placed.span) (own ++ virtual) bases :=
  spans_of_embeds (fun b hb => (ha.resolved b hb).2) (ha.outermost_eq ▸ hbases)

/-! ## The layouts of a class -/

namespace Composition

/-- The layout that derived classes embed. -/
def part (comp : Composition) : Layout := comp.nonVirtual.getD comp.full

end Composition

/-- The name of the layout that derived classes embed for a class with the given type name and
    table. -/
def partName (typeName : String) (t : BaseOffsetTable) : String :=
  if t.hasVirtualBases then nonVirtualName typeName else typeName

variable {typeName : String} {comp : Composition} (hcomp : Composes h names id typeName comp)
  (hr : Resolves h id t)
include hcomp hr

/-- How the layouts of a class are composed. -/
theorem Composes.composed : ∃ (c : ClassType) (direct shared : List EmbeddedBase) (away : List Field),
    h.classes.get? id = some c ∧
    List.Forall₂ (Embeds h names) (t.direct.filter (!·.isVirtual)) direct ∧
    List.Forall₂ (Embeds h names) t.virtualBases shared ∧
    c.compose h.abi h.pointerSize t (direct ++ shared) t.size
      ((new h.abi h.pointerSize).startLayout typeName t.size t.align) = .ok (away, comp.full) ∧
    ((t.hasVirtualBases = false ∧ comp.nonVirtual = none) ∨
      ∃ more nv, t.hasVirtualBases = true ∧ comp.nonVirtual = some nv ∧
        c.compose h.abi h.pointerSize t direct t.nvSize
          ((new h.abi h.pointerSize).startLayout (nonVirtualName typeName) t.nvSize t.nvAlign) =
            .ok (more, nv)) := by
  obtain @⟨c, table, direct, shared, _, hc, -, htable, hdirect, hshared, hcomposed⟩ := hcomp
  obtain rfl := htable.unique hr
  obtain ⟨away, hfull, hrest⟩ := compose_ok_iff.mp hcomposed
  refine ⟨c, direct, shared, away, hc, hdirect, hshared, hfull, ?_⟩
  rcases hrest with ⟨hplain, hnone, -⟩ | ⟨more, nv, hvirtual, hnv, -, hpart⟩
  · exact .inl ⟨hplain, hnone⟩
  · exact .inr ⟨more, nv, hvirtual, hnv, hpart⟩

/-- **Layouts have the sizes of the offset table.** -/
theorem Composes.sizes :
    comp.full.size = t.size ∧ comp.part.size = t.nvSize := by
  obtain ⟨c, direct, shared, away, hc, hdirect, hshared, hfull, hrest⟩ := hcomp.composed hr
  obtain ⟨hpointers, hmembers⟩ := added_le hr hc
  obtain ⟨_, _, _, own, virtual, ha⟩ := hr.assembled
  obtain ⟨-, hle, -, hown, hvirtual⟩ := ha.bounded
  rw [ha.ownBases_eq] at hdirect
  rw [ha.virtualBases_eq] at hshared
  have hspans := spans_of_embeds (fun b hb => (ha.resolved b (List.mem_append_left _ hb)).2) hdirect
  have hspans' := spans_of_embeds (fun b hb => (ha.resolved b (List.mem_append_right _ hb)).2) hshared
  have hdirectLe : ∀ e ∈ direct, e.span.stop ≤ t.nvSize.toNat := by
    intro e he
    obtain ⟨b, hb, hspan⟩ := forall₂_mem_right hspans he
    exact hspan ▸ hown b hb
  have hsize : comp.full.size = t.size := by
    refine size_of_compose hfull (fun e he => ?_) (fun p hp => Nat.le_trans (hpointers p hp) hle)
      (Nat.le_trans hmembers hle)
    rcases List.mem_append.mp he with he | he
    · exact Nat.le_trans (hdirectLe e he) hle
    · obtain ⟨b, hb, hspan⟩ := forall₂_mem_right hspans' he
      exact hspan ▸ (hvirtual b hb).2
  refine ⟨hsize, ?_⟩
  rcases hrest with ⟨hplain, hnone⟩ | ⟨more, nv, -, hnv, hpart⟩
  · obtain ⟨_, hassembles⟩ := ha.assembles
    rw [Composition.part, hnone, Option.getD_none, hsize]
    exact hassembles.size_of_nil (ha.hasVirtualBases_eq_false_iff.mp hplain)
  · rw [Composition.part, hnv, Option.getD_some]
    exact size_of_compose hpart hdirectLe hpointers hmembers

/-- **What a layout embeds are outermost sub-objects.** -/
theorem Composes.embeds_of_isBase {l : Layout} (hl : l = comp.full ∨ comp.nonVirtual = some l)
    {f : Field} (hf : f ∈ l.fields) (hbase : f.isBase = true) :
    ∃ s ∈ t.outermost, ∃ e, Embeds h names s e ∧ f = e.field := by
  obtain ⟨c, direct, shared, away, hc, hdirect, hshared, hfull, hrest⟩ := hcomp.composed hr
  have hall : List.Forall₂ (Embeds h names) t.outermost (direct ++ shared) :=
    List.rel_append hdirect hshared
  have of_mem {e : EmbeddedBase} (he : e ∈ direct ++ shared) :
      ∃ s ∈ t.outermost, ∃ e', Embeds h names s e' ∧ e.field = e'.field := by
    obtain ⟨s, hs, hembeds⟩ := forall₂_mem_right hall he
    exact ⟨s, hs, e, hembeds, rfl⟩
  rcases hl with rfl | hnv
  · obtain ⟨e, he, rfl⟩ := exists_of_isBase hfull hf hbase
    exact of_mem he
  · rcases hrest with ⟨-, hnone⟩ | ⟨more, nv, -, hnv', hpart⟩
    · rw [hnone] at hnv
      cases hnv
    · obtain rfl := Option.some.inj (hnv.symm.trans hnv')
      obtain ⟨e, he, rfl⟩ := exists_of_isBase hpart hf hbase
      exact of_mem (List.mem_append_left _ he)

/-- **Every outermost sub-object is embedded**, where no base has a recorded offset; the direct bases that are not
    virtual also in the layout that derived classes embed. -/
theorem Composes.exists_field (hu : h.Unrecorded id) :
    (∀ s ∈ t.outermost, ∃ e, Embeds h names s e ∧ e.field ∈ comp.full.fields) ∧
      ∀ s ∈ t.direct.filter (!·.isVirtual), ∃ e, Embeds h names s e ∧ e.field ∈ comp.part.fields := by
  obtain ⟨c, direct, shared, away, hc, hdirect, hshared, hfull, hrest⟩ := hcomp.composed hr
  obtain ⟨_, _, _, own, virtual, ha⟩ := hr.assembled
  have hall : List.Forall₂ (Embeds h names) t.outermost (direct ++ shared) :=
    List.rel_append hdirect hshared
  have hspans := spans_of_outermost ha hall
  have hpos : ∀ e ∈ direct ++ shared, 0 < e.size.toNat := by
    intro e he
    obtain ⟨s, -, _, table, -, htable, rfl⟩ := forall₂_mem_right hall he
    exact htable.nvSize_pos
  have hdisjoint : (direct ++ shared).Pairwise fun e e' => Disjoint e.span.bytes e'.span.bytes := by
    refine pairwise_forall₂ hspans (ha.disjoint (hu id _ .refl ha.defined)).2.1 ?_
    intro b e b' e' hspan hspan' hd
    rwa [hspan, hspan']
  have hapart : (direct ++ shared).Pairwise fun e e' => ¬ e.field.Meets e'.field :=
    hdisjoint.imp_of_mem fun he he' => Field.not_meets_of_disjoint (hpos _ he) (hpos _ he')
  refine ⟨fun s hs => ?_, fun s hs => ?_⟩
  · obtain ⟨e, he, hembeds⟩ := forall₂_mem_left hall hs
    exact ⟨e, hembeds, field_mem_of_pairwise hfull hapart e he⟩
  · obtain ⟨e, he, hembeds⟩ := forall₂_mem_left hdirect hs
    refine ⟨e, hembeds, ?_⟩
    rcases hrest with ⟨-, hnone⟩ | ⟨more, nv, -, hnv, hpart⟩
    · rw [Composition.part, hnone]
      exact field_mem_of_pairwise hfull hapart e (List.mem_append_left _ he)
    · rw [Composition.part, hnv]
      exact field_mem_of_pairwise hpart (List.pairwise_append.mp hapart).1 e he

end

end ClassModel

end ClassRecovery
