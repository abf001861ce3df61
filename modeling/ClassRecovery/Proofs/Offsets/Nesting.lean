/-
  Sub-objects nest.

  Give every sub-object the bytes that its class takes without virtual bases.  Where no base has a recorded
  offset, two sub-objects of an object share no byte, or the one that is listed first holds the other, as a
  base of its own (`Resolves.nested`).  What a class adds to its bases is apart from all of them.
-/
import ClassRecovery.Proofs.Model.Operations
import ClassRecovery.Proofs.Offsets.DirectBases
import ClassRecovery.Proofs.Offsets.Spans
import ClassRecovery.Proofs.Offsets.Subobjects

namespace ClassRecovery

open Hierarchy

/-! ## The blocks of a resolved class -/

section
variable {h : Hierarchy} {id : ClassId} {t : BaseOffsetTable}

/-- The class `id` is defined by `c`, and its object is made of the given blocks. -/
structure Hierarchy.Assembled (h : Hierarchy) (id : ClassId) (c : ClassType) (parts : List BasePart)
    (t : BaseOffsetTable) (nv : NonVirtualPart) (own shared : List Block) : Prop where
  defined : h.classes.get? id = some c
  specs : parts.map (·.spec) = c.bases
  parts_resolved : ∀ p ∈ parts, Resolves h p.spec.base p.table
  assembles : ∃ tableOf, c.Assembles h.abi h.pointerSize parts tableOf t nv own shared
  own_step : ∀ b ∈ own, h.DirectBase id b.placed.base
  shared_steps : ∀ b ∈ shared, [] ∉ b.paths
  resolved : ∀ b ∈ own ++ shared, h.Inherits id b.placed.base ∧ Resolves h b.placed.base b.placed.table

/-- **An object is made of blocks**, each for a base that has a table. -/
theorem Resolves.assembled (hr : Resolves h id t) :
    ∃ c parts nv own shared, h.Assembled id c parts t nv own shared := by
  obtain @⟨_, c, parts, tableOf, _, hc, hspecs, hparts, hknown, hvirtual, ht⟩ := hr
  obtain ⟨nv, own, shared, hassembles⟩ := ClassType.offsetTable_assembles ht
  have hstep : ∀ b ∈ own, ∃ p ∈ parts, b.placed.base = p.spec.base ∧ b.placed.table = p.table := by
    intro b hb
    obtain ⟨p, hp, -, hbase, -, htable⟩ := forall₂_mem_right hassembles.own_spec hb
    exact ⟨p, List.mem_of_mem_filter hp, hbase, htable⟩
  refine ⟨c, parts, nv, own, shared, hc, hspecs, hparts, ⟨tableOf, hassembles⟩, fun b hb => ?_, fun b hb => ?_,
    fun b hb => ?_⟩
  · obtain ⟨p, hp, hbase, -⟩ := hstep b hb
    exact hbase ▸ directBase_of_part hc hspecs hp
  · obtain ⟨v, hv, -, -, hpaths, -⟩ := forall₂_mem_right hassembles.shared_spec hb
    exact hpaths ▸ VirtualPaths.nil_notMem_ofParts hv
  · rcases List.mem_append.mp hb with hb | hb
    · obtain ⟨p, hp, hbase, htable⟩ := hstep b hb
      rw [hbase, htable]
      exact ⟨.single (directBase_of_part hc hspecs hp), hparts p hp⟩
    · obtain ⟨v, hv, -, hbase, -, htable⟩ := forall₂_mem_right hassembles.shared_spec hb
      have hkey : v.1 ∈ (VirtualPaths.ofParts parts).map (·.1) := List.mem_map_of_mem hv
      rw [hbase]
      exact ⟨inherits_of_key hc hspecs hparts hkey, hvirtual v.1 hkey _ htable⟩

namespace Hierarchy.Assembled

variable {c : ClassType} {parts : List BasePart} {nv : NonVirtualPart} {own shared : List Block}
  (ha : h.Assembled id c parts t nv own shared)
include ha

theorem tile : Block.Tile (own ++ shared) t.entries := by
  obtain ⟨_, hassembles⟩ := ha.assembles
  exact hassembles.tile

/-- The table is computed from these parts. -/
theorem computed (hr : Resolves h id t) :
    ∃ tableOf, c.offsetTable h.abi h.pointerSize parts tableOf = .ok t ∧
      c.nonVirtualPart? h.abi h.pointerSize parts = some nv ∧
      ∀ v ∈ (VirtualPaths.ofParts parts).map (·.1), ∀ tv, tableOf v = some tv → Resolves h v tv := by
  obtain ⟨hc, hspecs, hparts, -, hvirtual, ht⟩ := hr
  obtain ⟨_, hassembles⟩ := ha.assembles
  obtain rfl := Option.some.inj (ha.defined.symm.trans hc)
  obtain rfl := parts_unique (ha.specs.trans hspecs.symm)
    (fun p hp _ => (ha.parts_resolved p hp).unique) hparts
  exact ⟨_, ht, hassembles.nonVirtual, hvirtual⟩

/-- The bases outside of virtual bases are listed once each, with the step that leads to them. -/
theorem own_head : ∀ b ∈ own, b.isVirtual = false ∧ b.paths = [[b.placed.base]] := by
  obtain ⟨_, hassembles⟩ := ha.assembles
  intro b hb
  obtain ⟨p, -, hv, hbase, hpaths, -⟩ := forall₂_mem_right hassembles.own_spec hb
  exact ⟨hv, by rw [hpaths, hbase]⟩

theorem shared_head : ∀ b ∈ shared, b.isVirtual = true := by
  obtain ⟨_, hassembles⟩ := ha.assembles
  intro b hb
  obtain ⟨v, -, hv, -⟩ := forall₂_mem_right hassembles.shared_spec hb
  exact hv

/-- Whatever offsets are recorded, nothing reaches beyond the size. -/
theorem bounded : 0 < t.nvSize.toNat ∧ t.nvSize.toNat ≤ t.size.toNat ∧
    (∀ s ∈ t.addedSpans h.pointerSize c.memberSize, s.stop ≤ t.nvSize.toNat) ∧
    (∀ b ∈ own, b.placed.span.stop ≤ t.nvSize.toNat) ∧
    ∀ b ∈ shared, t.nvSize.toNat ≤ b.placed.offset.toNat ∧ b.placed.span.stop ≤ t.size.toNat := by
  obtain ⟨_, hassembles⟩ := ha.assembles
  obtain ⟨hpos, hadded, hbases⟩ := ClassType.nonVirtualPart?_bounded hassembles.nonVirtual
  rw [← hassembles.nvSize, ← hassembles.own_placed] at hbases
  rw [← hassembles.nvSize] at hpos hadded
  refine ⟨hpos, hassembles.shared_stacked.le, hassembles.added ▸ hadded,
    fun b hb => hbases _ (List.mem_map_of_mem hb), fun b hb => ?_⟩
  exact hassembles.shared_stacked.within _ (List.mem_map_of_mem hb)

/-- Without recorded offsets, the parts of an object follow each other. -/
theorem stacked (hnone : ∀ spec ∈ c.bases, spec.isVirtual = false → spec.offset = none) :
    ∃ l, Stacked 0 t.size.toNat l ∧
      (t.addedSpans h.pointerSize c.memberSize ++ (own ++ shared).map (·.placed.span)).Perm l := by
  obtain ⟨_, hassembles⟩ := ha.assembles
  obtain ⟨l, hstacked, hperm⟩ := ClassType.nonVirtualPart?_stacked hassembles.nonVirtual fun p hp =>
    hnone p.spec (ha.specs ▸ List.mem_map_of_mem hp)
  rw [← hassembles.nvSize] at hstacked
  rw [← hassembles.added, ← hassembles.own_placed, List.map_map] at hperm
  refine ⟨_, hstacked.append hassembles.shared_stacked, ?_⟩
  rw [List.map_append, ← List.append_assoc]
  exact hperm.append_right _

/-- Without recorded offsets, no two parts of an object share a byte. -/
theorem disjoint (hnone : ∀ spec ∈ c.bases, spec.isVirtual = false → spec.offset = none) :
    let added := t.addedSpans h.pointerSize c.memberSize
    (added.Pairwise fun s s' => Disjoint s.bytes s'.bytes) ∧
      ((own ++ shared).Pairwise fun b b' => Disjoint b.placed.span.bytes b'.placed.span.bytes) ∧
      ∀ s ∈ added, ∀ b ∈ own ++ shared, Disjoint s.bytes b.placed.span.bytes := by
  obtain ⟨l, hstacked, hperm⟩ := ha.stacked hnone
  obtain ⟨hadded, hblocks, hapart⟩ := List.pairwise_append.mp (hstacked.disjoint_of_perm hperm)
  rw [List.pairwise_map] at hblocks
  exact ⟨hadded, hblocks, fun s hs b hb => hapart s hs _ (List.mem_map_of_mem hb)⟩

end Hierarchy.Assembled

end

/-! ## Nesting -/

/-- The bytes of a sub-object, if classes take `sizeOf` bytes without their virtual bases. -/
def BaseSubobject.span (sizeOf : ClassId → Word) (s : BaseSubobject) : Span := ⟨s.offset, sizeOf s.base⟩

namespace Hierarchy

variable (h : Hierarchy) (sizeOf : ClassId → Word)

/-- No class that can be reached from `a` has a base with a recorded offset. -/
def Unrecorded (a : ClassId) : Prop :=
  ∀ d c, h.Reaches a d → h.classes.get? d = some c →
    ∀ spec ∈ c.bases, spec.isVirtual = false → spec.offset = none

/-- `s'` is a base of `s`: the paths that lead to `s'` are those to `s`, each with the same steps behind it. -/
def Extends (s s' : BaseSubobject) : Prop :=
  ∃ back, back ≠ [] ∧ h.Leads s.base back s'.base ∧ s'.paths = s.paths.map (· ++ back)

/-- `s` and `s'` share no byte, or `s'` lies within `s` as a base of it. -/
def Nests (s s' : BaseSubobject) : Prop :=
  Disjoint (s.span sizeOf).bytes (s'.span sizeOf).bytes ∨
    (s.span sizeOf).Holds (s'.span sizeOf) ∧ h.Extends s s'

/-- The sub-objects of a class nest, and they are where they belong. -/
structure Nested (id : ClassId) (t : BaseOffsetTable) : Prop where
  nests : t.entries.Pairwise (h.Nests sizeOf)
  /-- Outside of virtual bases, a sub-object has one path. -/
  outside : ∀ s ∈ t.entries, s.inVirtualBase = false →
    (∃ path, path ≠ [] ∧ h.Leads id path s.base ∧ s.paths = [path]) ∧
      (s.span sizeOf).stop ≤ t.nvSize.toNat
  inside : ∀ s ∈ t.entries, s.inVirtualBase = true →
    t.nvSize.toNat ≤ s.offset.toNat ∧ (s.span sizeOf).stop ≤ t.size.toNat
  added : ∀ c, h.classes.get? id = some c →
    let added := t.addedSpans h.pointerSize c.memberSize
    (added.Pairwise fun r r' => Disjoint r.bytes r'.bytes) ∧
      ∀ r ∈ added, r.stop ≤ t.nvSize.toNat ∧
        ∀ s ∈ t.entries, Disjoint r.bytes (s.span sizeOf).bytes

variable {h sizeOf}

theorem unrecorded_of_forall {a : ClassId}
    (hall : ∀ c ∈ h.classes.values, ∀ spec ∈ c.bases, spec.isVirtual = false → spec.offset = none) :
    h.Unrecorded a :=
  throughout_of_forall hall

theorem Unrecorded.base {a b : ClassId} (hu : h.Unrecorded a) (hb : h.Reaches a b) : h.Unrecorded b :=
  fun d c hr hc => hu d c (hb.trans hr) hc

/-- Sub-objects nest as before when the object is moved into a larger one. -/
theorem Nests.within {s s' r r' : BaseSubobject} {via : List BasePath} {o : Word} {shared : Bool}
    (hn : h.Nests sizeOf s s') (hr : s.within via o shared = some r)
    (hr' : s'.within via o shared = some r') : h.Nests sizeOf r r' := by
  obtain ⟨a, ha, rfl⟩ := BaseSubobject.within_eq_some_iff.mp hr
  obtain ⟨a', ha', rfl⟩ := BaseSubobject.within_eq_some_iff.mp hr'
  rw [checkedAdd_eq_some_iff] at ha ha'
  rcases hn with hd | ⟨hholds, back, hne, hleads, hpaths⟩
  · simp only [Span.bytes, Span.stop, BaseSubobject.span, Set.Ico_disjoint_Ico] at hd
    refine .inl ?_
    simp only [Span.bytes, Span.stop, BaseSubobject.span, Set.Ico_disjoint_Ico]
    omega
  · simp only [Span.Holds, Span.stop, BaseSubobject.span] at hholds
    refine .inr ⟨?_, back, hne, hleads, ?_⟩
    · simp only [Span.Holds, Span.stop, BaseSubobject.span]
      omega
    · simp only [hpaths, List.map_flatMap, List.map_map, Function.comp_def, List.append_assoc]

end Hierarchy

/-! ## Blocks nest -/

section
variable {h : Hierarchy} {sizeOf : ClassId → Word} {b : Block}

/-- `s` lies in the block: its paths are those to the block, each with the same steps behind it. -/
structure Block.Contains (h : Hierarchy) (sizeOf : ClassId → Word) (b : Block) (s : BaseSubobject) :
    Prop where
  inVirtualBase : s.inVirtualBase = b.isVirtual
  holds : b.placed.span.Holds (s.span sizeOf)
  behind : ∃ back, h.Leads b.placed.base back s.base ∧ s.paths = b.paths.map (· ++ back)

/-- What is within a base outside of virtual bases is in every block for the base, and extends its head. -/
theorem Hierarchy.Nested.of_within (hn : h.Nested sizeOf b.placed.base b.placed.table)
    {s s' : BaseSubobject} (hs' : s' ∈ b.placed.table.outsideVirtual)
    (hwithin : s'.within b.paths b.placed.offset b.isVirtual = some s) :
    b.Contains h sizeOf s ∧ h.Extends b.head s := by
  obtain ⟨hs', hv⟩ := List.mem_filter.mp hs'
  obtain ⟨⟨back, hne, hleads, hpaths⟩, hstop⟩ := hn.outside s' hs' (by simpa using hv)
  obtain ⟨o, ho, rfl⟩ := BaseSubobject.within_eq_some_iff.mp hwithin
  have hmap : (b.paths.flatMap fun front => s'.paths.map fun back => front ++ back) =
      b.paths.map (· ++ back) := by
    simp [hpaths, ← List.map_eq_flatMap]
  refine ⟨⟨rfl, ?_, back, hleads, hmap⟩, back, hne, hleads, hmap⟩
  simp only [Span.stop, BaseSubobject.span] at hstop
  simp only [Span.Holds, Span.stop, PlacedBase.span, BaseSubobject.span, checkedAdd_eq_some_iff.mp ho]
  omega

theorem Hierarchy.Nested.contains (hn : h.Nested sizeOf b.placed.base b.placed.table)
    (hsize : sizeOf b.placed.base = b.placed.table.nvSize) {s : BaseSubobject} (hs : b.Has s) :
    b.Contains h sizeOf s := by
  rcases hs with rfl | ⟨s', hs', hwithin⟩
  · refine ⟨rfl, ?_, [], .nil _, by simp [Block.head]⟩
    simp only [Block.head, BaseSubobject.span, hsize]
    exact .refl _
  · exact (hn.of_within hs' hwithin).1

/-- **What is in one block nests.** -/
theorem Hierarchy.Nested.block (hn : h.Nested sizeOf b.placed.base b.placed.table)
    (hsize : sizeOf b.placed.base = b.placed.table.nvSize) {l : List BaseSubobject}
    (hl : b.placed.subobjects b.isVirtual b.paths = some l) : l.Pairwise (h.Nests sizeOf) := by
  obtain ⟨inner, hinner, rfl⟩ := PlacedBase.subobjects_eq_some_iff.mp hl
  refine List.pairwise_cons.mpr ⟨fun s hs => .inr ?_, ?_⟩
  · obtain ⟨s', hs', hwithin⟩ := forall₂_mem_right hinner hs
    obtain ⟨hcontains, hextends⟩ := hn.of_within hs' hwithin
    refine ⟨?_, hextends⟩
    simp only [BaseSubobject.span, hsize]
    exact hcontains.holds
  · exact pairwise_forall₂ hinner (hn.nests.sublist List.filter_sublist)
      fun s r s' r' hr hr' hnests => hnests.within hr hr'

end

/-! ## All sub-objects nest -/

section
variable {h : Hierarchy} {id : ClassId} {t : BaseOffsetTable} {sizeOf : ClassId → Word}

/-- The sub-objects of an object nest, if those of its bases do. -/
theorem Hierarchy.Assembled.nested {c : ClassType} {parts : List BasePart} {nv : NonVirtualPart}
    {own shared : List Block} (ha : h.Assembled id c parts t nv own shared) (hu : h.Unrecorded id)
    (hblock : ∀ b ∈ own ++ shared, h.Nested sizeOf b.placed.base b.placed.table ∧
      sizeOf b.placed.base = b.placed.table.nvSize) : h.Nested sizeOf id t := by
  obtain ⟨hadded, hblocks, hapart⟩ := ha.disjoint (hu id c .refl ha.defined)
  obtain ⟨-, -, haddedLe, hownLe, hsharedLe⟩ := ha.bounded
  have contains {b : Block} (hb : b ∈ own ++ shared) {s : BaseSubobject} (hs : b.Has s) :
      b.Contains h sizeOf s := (hblock b hb).1.contains (hblock b hb).2 hs
  refine ⟨?_, fun s hs hv => ?_, fun s hs hv => ?_, fun c' hc' => ?_⟩
  · obtain ⟨lists, hlists, hentries⟩ := ha.tile
    rw [hentries, List.pairwise_flatten]
    constructor
    · intro l hl
      obtain ⟨b, hb, hbl⟩ := forall₂_mem_right hlists hl
      exact (hblock b hb).1.block (hblock b hb).2 hbl
    · have hin : List.Forall₂ (fun b l => ∀ s ∈ l, b.Contains h sizeOf s) (own ++ shared) lists :=
        forall₂_imp_mem hlists fun b hb l hl s hs => contains hb (Block.has_of_mem hl hs)
      exact pairwise_forall₂ hin hblocks fun b l b' l' hl hl' hd s hs s' hs' =>
        .inl (Span.disjoint_of_holds hd (hl s hs).holds (hl' s' hs').holds)
  · obtain ⟨b, hb, hs⟩ := ha.tile.exists_block hs
    obtain ⟨hvb, hholds, back, hleads, hpaths⟩ := contains hb hs
    rcases List.mem_append.mp hb with hb | hb
    · rw [(ha.own_head b hb).2] at hpaths
      exact ⟨⟨b.placed.base :: back, by simp, .cons (ha.own_step b hb) hleads, hpaths⟩,
        Nat.le_trans hholds.2 (hownLe b hb)⟩
    · rw [hvb, ha.shared_head b hb] at hv
      cases hv
  · obtain ⟨b, hb, hs⟩ := ha.tile.exists_block hs
    obtain ⟨hvb, hholds, -⟩ := contains hb hs
    rcases List.mem_append.mp hb with hb | hb
    · rw [hvb, (ha.own_head b hb).1] at hv
      cases hv
    · exact ⟨Nat.le_trans (hsharedLe b hb).1 hholds.1, Nat.le_trans hholds.2 (hsharedLe b hb).2⟩
  · obtain rfl : c = c' := Option.some.inj (ha.defined.symm.trans hc')
    refine ⟨hadded, fun r hr => ⟨haddedLe r hr, fun s hs => ?_⟩⟩
    obtain ⟨b, hb, hs⟩ := ha.tile.exists_block hs
    exact Span.disjoint_of_holds (hapart r hr b hb) (.refl r) (contains hb hs).holds

/-- **Sub-objects nest** where no base has a recorded offset. -/
theorem Resolves.nested (hr : Resolves h id t) (hu : h.Unrecorded id)
    (hsize : ∀ b tb, Resolves h b tb → sizeOf b = tb.nvSize) : h.Nested sizeOf id t := by
  revert hu
  refine hr.inherits_induction (P := fun id t => h.Unrecorded id → h.Nested sizeOf id t) ?_
  intro id t hr ih hu
  obtain ⟨c, parts, nv, own, shared, ha⟩ := hr.assembled
  refine ha.nested hu fun b hb => ?_
  obtain ⟨hinherits, hres⟩ := ha.resolved b hb
  exact ⟨ih _ _ hinherits hres (hu.base hinherits.to_reflTransGen), hsize _ _ hres⟩

theorem Resolves.nvSize_pos (hr : Resolves h id t) : 0 < t.nvSize.toNat := by
  obtain ⟨_, _, _, _, _, ha⟩ := hr.assembled
  exact ha.bounded.1

/-! ## No two alike -/

theorem Hierarchy.Leads.inherits {a b : ClassId} {path : BasePath} (hl : h.Leads a path b)
    (hne : path ≠ []) : h.Inherits a b := by
  cases hl with
  | nil => exact absurd rfl hne
  | cons hstep hrest => exact Relation.TransGen.head' hstep hrest.reaches

/-- Only a base of a sub-object can begin where the sub-object does. -/
theorem Hierarchy.Nests.of_offset_eq {s s' : BaseSubobject} (hn : h.Nests sizeOf s s')
    (hpos : 0 < (sizeOf s.base).toNat) (hpos' : 0 < (sizeOf s'.base).toNat)
    (heq : s.offset = s'.offset) : h.Extends s s' := by
  rcases hn with hd | ⟨-, hextends⟩
  · simp only [Span.bytes, Span.stop, BaseSubobject.span, Set.Ico_disjoint_Ico, heq] at hd
    omega
  · exact hextends

theorem Hierarchy.Extends.base_ne {s s' : BaseSubobject} (he : h.Extends s s')
    {ts : BaseOffsetTable} (hr : Resolves h s.base ts) : s.base ≠ s'.base := by
  obtain ⟨back, hne, hleads, -⟩ := he
  intro heq
  exact hr.not_inherits_self (heq ▸ hleads.inherits hne)

theorem Hierarchy.Extends.not_isDirect {s s' : BaseSubobject} (he : h.Extends s s')
    (hs : [] ∉ s.paths) : s'.isDirect = false := by
  obtain ⟨back, hne, -, hpaths⟩ := he
  simp only [BaseSubobject.isDirect, hpaths, List.any_map, List.any_eq_false, Function.comp_apply,
    beq_iff_eq]
  intro front hfront
  exact length_append_ne_one (fun hnil => hs (hnil ▸ hfront)) hne

/-- No class occurs twice at one offset. -/
theorem Resolves.nodup_places (hr : Resolves h id t) (hn : t.entries.Pairwise (h.Nests sizeOf))
    (hsize : ∀ b tb, Resolves h b tb → sizeOf b = tb.nvSize) :
    (t.entries.map fun s => (s.base, s.offset)).Nodup := by
  refine List.pairwise_map.mpr (hn.imp_of_mem fun {s s'} hs hs' hnests heq => ?_)
  obtain ⟨hbase, hoffset⟩ := Prod.mk.inj heq
  obtain ⟨ts, hts⟩ := hr.of_reaches (hr.inherits_of_mem s hs).to_reflTransGen
  have hpos : 0 < (sizeOf s.base).toNat := hsize _ _ hts ▸ hts.nvSize_pos
  exact (hnests.of_offset_eq hpos (hbase ▸ hpos) hoffset).base_ne hts hbase

/-- The direct bases have different offsets. -/
theorem Resolves.nodup_direct (hr : Resolves h id t) (hn : t.entries.Pairwise (h.Nests sizeOf))
    (hsize : ∀ b tb, Resolves h b tb → sizeOf b = tb.nvSize) : (t.direct.map (·.offset)).Nodup := by
  have hpos {s : BaseSubobject} (hs : s ∈ t.direct) : 0 < (sizeOf s.base).toNat := by
    obtain ⟨ts, hts⟩ :=
      hr.of_reaches (hr.inherits_of_mem s (List.mem_of_mem_filter hs)).to_reflTransGen
    exact hsize _ _ hts ▸ hts.nvSize_pos
  refine List.pairwise_map.mpr ((hn.sublist List.filter_sublist).imp_of_mem ?_)
  intro s s' hs hs' hnests heq
  have hextends := hnests.of_offset_eq (hpos hs) (hpos hs') heq
  have hdirect := hextends.not_isDirect (hr.steps s (List.mem_of_mem_filter hs))
  rw [(List.mem_filter.mp hs').2] at hdirect
  cases hdirect

end

namespace ClassModel

/-- The size of a class without its virtual bases, or zero where it has no offset table. -/
def nvSize (m : ClassModel) (id : ClassId) : Word :=
  match (m.offsetTable id).1 with
  | .ok t => t.nvSize
  | .error _ => 0

theorem Coherent.nvSize_eq {m : ClassModel} (hm : m.Coherent) {id : ClassId} {t : BaseOffsetTable}
    (hr : Resolves m.hierarchy id t) : m.nvSize id = t.nvSize := by
  rw [nvSize, hm.offsetTable_eq hr]

/-- **Sub-objects never partially overlap**, where no class that can be reached has a base with a recorded
    offset: two of them share no byte, or the later one lies within the earlier one as a base of it.  Those outside of
    virtual bases lie in the non-virtual part, the others behind it.  The hidden pointers of the class itself
    and its data members lie in the non-virtual part, apart from each other and from every
    sub-object.  No class occurs twice at one offset, and direct bases have different offsets. -/
theorem offsetTable_nested (abi : Abi) (pointerSize : Word) (ops : List Operation) (id : ClassId)
    (t : BaseOffsetTable) (ht : ((reached abi pointerSize ops).offsetTable id).1 = .ok t)
    (hu : (reached abi pointerSize ops).hierarchy.Unrecorded id) :
    let m := reached abi pointerSize ops
    let bytes (s : BaseSubobject) : Set ℕ := (s.span m.nvSize).bytes
    (∀ s ∈ t.entries, 0 < (m.nvSize s.base).toNat ∧
        ∃ ts, (m.offsetTable s.base).1 = .ok ts ∧ m.nvSize s.base = ts.nvSize) ∧
      t.entries.Pairwise (fun s s' =>
        Disjoint (bytes s) (bytes s') ∨ bytes s' ⊆ bytes s ∧ m.hierarchy.Extends s s') ∧
      (∀ s ∈ t.entries, s.inVirtualBase = false → bytes s ⊆ Set.Ico 0 t.nvSize.toNat) ∧
      (∀ s ∈ t.entries, s.inVirtualBase = true → bytes s ⊆ Set.Ico t.nvSize.toNat t.size.toNat) ∧
      (∃ c, m.get? id = some c ∧
        let added := t.addedSpans pointerSize c.memberSize
        (added.Pairwise fun r r' => Disjoint r.bytes r'.bytes) ∧
          ∀ r ∈ added, r.bytes ⊆ Set.Ico 0 t.nvSize.toNat ∧
            ∀ s ∈ t.entries, Disjoint r.bytes (bytes s)) ∧
      (t.entries.map fun s => (s.base, s.offset)).Nodup ∧ (t.direct.map (·.offset)).Nodup := by
  intro m bytes
  have hm : m.Coherent := coherent_reached abi pointerSize ops
  have hr : Resolves m.hierarchy id t := hm.resolves ht
  have hsize : ∀ b tb, Resolves m.hierarchy b tb → m.nvSize b = tb.nvSize := fun b tb => hm.nvSize_eq
  have hn : m.hierarchy.Nested m.nvSize id t := hr.nested hu hsize
  refine ⟨fun s hs => ?_, hn.nests.imp (Or.imp_right (And.imp_left Span.Holds.subset)),
    fun s hs hv => ?_, fun s hs hv => ?_, ?_, hr.nodup_places hn.nests hsize,
    hr.nodup_direct hn.nests hsize⟩
  · obtain ⟨ts, hts⟩ := hr.of_reaches (hr.inherits_of_mem s hs).to_reflTransGen
    exact ⟨hm.nvSize_eq hts ▸ hts.nvSize_pos, ts, hm.offsetTable_eq hts, hm.nvSize_eq hts⟩
  · exact Set.Ico_subset_Ico (Nat.zero_le _) (hn.outside s hs hv).2
  · exact Set.Ico_subset_Ico (hn.inside s hs hv).1 (hn.inside s hs hv).2
  · obtain ⟨c, _, _, _, _, ha⟩ := hr.assembled
    have hptr : m.hierarchy.pointerSize = pointerSize := (parameters_reached abi pointerSize ops).2
    obtain ⟨hadded, hapart⟩ := hptr ▸ hn.added c ha.defined
    exact ⟨c, ha.defined, hadded, fun r hr =>
      ⟨Set.Ico_subset_Ico (Nat.zero_le _) (hapart r hr).1, (hapart r hr).2⟩⟩

/-- A diamond in which every class has virtual functions and members: its three bases are apart from each
    other. -/
theorem offsetTable_nested_diamond :
    let vtable : Vtable := .ofTargets 4096 1 8 [8192]
    let m := reached .msvc 8
      [.insert { id := 1, name := "Top", vtable, memberSize := 4, memberAlign := 4 },
        .insert { id := 2, name := "Left", bases := [⟨1, true, true, none⟩], vtable, memberSize := 4 },
        .insert { id := 3, name := "Right", bases := [⟨1, true, true, none⟩], vtable },
        .insert { id := 4, name := "Bottom", bases := [⟨2, false, true, none⟩, ⟨3, false, true, none⟩] }]
    ∃ t, (m.offsetTable 4).1 = .ok t ∧ m.hierarchy.Unrecorded 4 ∧ t.entries.length = 3 ∧
      (t.direct.map (·.offset)).Nodup := by
  intro vtable m
  have hu : m.hierarchy.Unrecorded 4 := unrecorded_of_forall (by decide +kernel)
  cases ht : (m.offsetTable 4).1 with
  | error e =>
    have hok : (m.offsetTable 4).1.isOk = true := by decide +kernel
    rw [ht] at hok
    cases hok
  | ok t =>
    have hlength : (m.offsetTable 4).1.toOption.map (·.entries.length) = some 3 := by decide +kernel
    rw [ht] at hlength
    exact ⟨t, rfl, hu, Option.some.inj hlength,
      (offsetTable_nested .msvc 8 _ 4 t ht hu).2.2.2.2.2.2⟩

end ClassModel

end ClassRecovery
