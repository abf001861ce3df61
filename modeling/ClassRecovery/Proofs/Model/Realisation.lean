/-
  Layouts realise offset tables.

  Where no base has a recorded offset, no two of the fields that a class puts in its layouts share a byte, and the
  hidden pointers that it shares with its bases are within these (`Resolves.fieldsApart`).  So composed from
  nothing, the layout of the class has exactly these fields, with the size and the alignment of the
  table (`Composes.realises`).
-/
import ClassRecovery.Proofs.Layout.Insertion
import ClassRecovery.Proofs.Model.Compositions
import ClassRecovery.Proofs.Model.Steps
import ClassRecovery.Proofs.Offsets.HiddenPointers

namespace ClassRecovery

/-- A field fits if it has a byte and ends at a word. -/
theorem Field.fits_of_stop_le {f : Field} {n : Word} (hpos : 0 < f.size.toNat)
    (hle : f.span.stop ≤ n.toNat) : f.Fits := by
  refine ⟨fun hzero => ?_, ?_⟩
  · rw [hzero] at hpos
    cases hpos
  · rw [← Option.ne_none_iff_isSome, ne_eq, checkedAdd_eq_none_iff]
    have hn : n.toNat < UInt64.size := n.toNat_lt
    change f.offset.toNat + f.size.toNat ≤ _ at hle
    omega

namespace ClassModel

section
variable {h : Hierarchy} {names : OrderedMap ClassId String} {id : ClassId} {t : BaseOffsetTable}
  {c : ClassType}

/-! ## The fields of one class -/

/-- What a class adds to its bases has the bytes that the table has for it. -/
theorem sublist_addedSpans (c : ClassType) (abi : Abi) (pointerSize : Word) (t : BaseOffsetTable) :
    ((t.ownPointers abi pointerSize ++ c.ownMembers t).map Field.span).Sublist
      (t.addedSpans pointerSize c.memberSize) := by
  have hpointers : (t.ownPointers abi pointerSize).map Field.span =
      ((if t.ownsVptr then t.vptrOffset else none).toList ++
        (if t.ownsVbptr then t.vbptrOffset else none).toList).map (Span.mk · pointerSize) := by
    rw [BaseOffsetTable.ownPointers, List.map_append, List.map_append, List.map_map, List.map_map]
    rfl
  rw [List.map_append, hpointers, BaseOffsetTable.addedSpans, addedSpans]
  refine List.Sublist.append_left ?_ _
  unfold ClassType.ownMembers
  split
  · exact .refl _
  · exact List.nil_sublist _

/-- The bases and hidden pointers of a class and its data members, if it has any, have bytes. -/
theorem size_pos_of_mem_fields {abi : Abi} {pointerSize : Word} (hptr : 0 < pointerSize)
    {bases : List EmbeddedBase} (hbases : ∀ b ∈ bases, 0 < b.size.toNat) {f : Field}
    (hf : f ∈ c.fields abi pointerSize t bases) : 0 < f.size.toNat := by
  have hptr : 0 < pointerSize.toNat := UInt64.lt_iff_toNat_lt.mp hptr
  rcases List.mem_append.mp hf with hf | hf
  · rcases List.mem_append.mp hf with hf | hf
    · obtain ⟨b, hb, rfl⟩ := List.mem_map.mp hf
      exact hbases b hb
    · rcases ClassType.mem_ownPointers.mp hf with ⟨-, o, -, rfl⟩ | ⟨-, o, -, rfl⟩
      · exact hptr
      · exact hptr
  · unfold ClassType.ownMembers at hf
    split at hf
    · next hsize =>
      obtain rfl := List.mem_singleton.mp hf
      exact UInt64.lt_iff_toNat_lt.mp hsize
    · cases hf

section
variable (hr : Resolves h id t) (hc : h.classes.get? id = some c) {direct shared : List EmbeddedBase}
  (hdirect : List.Forall₂ (Embeds h names) (t.direct.filter (!·.isVirtual)) direct)
  (hshared : List.Forall₂ (Embeds h names) t.virtualBases shared)
include hr hc hdirect hshared

/-- The fields of a class have bytes within its layout, whatever offsets are recorded. -/
theorem fields_bounded (hptr : 0 < h.pointerSize) :
    ∀ f ∈ c.fields h.abi h.pointerSize t (direct ++ shared),
      0 < f.size.toNat ∧ f.span.stop ≤ t.size.toNat := by
  obtain ⟨c', _, _, own, virtual, ha⟩ := hr.assembled
  obtain rfl : c = c' := Option.some.inj (hc.symm.trans ha.defined)
  obtain ⟨-, hle, hadded, hown, hvirtual⟩ := ha.bounded
  have hall : List.Forall₂ (Embeds h names) t.outermost (direct ++ shared) :=
    List.rel_append hdirect hshared
  have hspans := spans_of_outermost ha hall
  intro f hf
  refine ⟨size_pos_of_mem_fields hptr (fun b hb => ?_) hf, ?_⟩
  · obtain ⟨s, -, _, table, -, htable, rfl⟩ := forall₂_mem_right hall hb
    exact htable.nvSize_pos
  · rw [ClassType.fields, List.append_assoc] at hf
    rcases List.mem_append.mp hf with hf | hf
    · obtain ⟨e, he, rfl⟩ := List.mem_map.mp hf
      obtain ⟨b, hb, hspan⟩ := forall₂_mem_right hspans he
      change e.span.stop ≤ _
      rw [hspan]
      rcases List.mem_append.mp hb with hb | hb
      · exact Nat.le_trans (hown b hb) hle
      · exact (hvirtual b hb).2
    · have hsub := (sublist_addedSpans c h.abi h.pointerSize t).subset (List.mem_map_of_mem hf)
      exact Nat.le_trans (hadded _ hsub) hle

/-- The fields of a class share no byte where no base has a recorded offset. -/
theorem fields_disjoint (hu : h.Unrecorded id) :
    (c.fields h.abi h.pointerSize t (direct ++ shared)).Pairwise fun f g =>
      Disjoint f.span.bytes g.span.bytes := by
  obtain ⟨c', _, _, own, virtual, ha⟩ := hr.assembled
  obtain rfl : c = c' := Option.some.inj (hc.symm.trans ha.defined)
  obtain ⟨hadded, hblocks, hcross⟩ := ha.disjoint (hu id c .refl hc)
  have hspans := spans_of_outermost ha (List.rel_append hdirect hshared)
  have hsub := sublist_addedSpans c h.abi h.pointerSize t
  have hown := List.pairwise_map.mp (hadded.sublist hsub)
  rw [ClassType.fields, List.append_assoc]
  refine List.pairwise_append.mpr ⟨List.pairwise_map.mpr ?_, hown, ?_⟩
  · refine pairwise_forall₂ hspans hblocks fun b e b' e' hspan hspan' hd => ?_
    rw [← hspan, ← hspan'] at hd
    exact hd
  · intro f hf g hg
    obtain ⟨e, he, rfl⟩ := List.mem_map.mp hf
    obtain ⟨b, hb, hspan⟩ := forall₂_mem_right hspans he
    change Disjoint e.span.bytes _
    rw [hspan]
    exact (hcross _ (hsub.subset (List.mem_map_of_mem hg)) b hb).symm

section
variable (hptr : 0 < h.pointerSize) {bases : List EmbeddedBase} (hsub : bases.Sublist (direct ++ shared))
include hptr hsub

/-- **Composing a layout of the class never fails**, whatever is registered and whatever offsets are
    recorded. -/
theorem composable (start : Layout) :
    Layout.Composable start (bases.map EmbeddedBase.field)
      (c.hiddenPointers h.abi h.pointerSize t) (.undefined t.membersOffset c.memberSize) := by
  have hbounded := fields_bounded hr hc hdirect hshared hptr
  obtain ⟨hpointers, hmembers⟩ := added_le hr hc
  refine ⟨fun f hf => ?_, fun p hp _ => ?_, fun hroom => ?_⟩
  · obtain ⟨b, hb, rfl⟩ := List.mem_map.mp hf
    obtain ⟨hpos, hle⟩ := hbounded b.field (List.mem_append_left _ (List.mem_append_left _
      (List.mem_map_of_mem (hsub.subset hb))))
    exact Field.fits_of_stop_le hpos hle
  · refine Field.fits_of_stop_le ?_ (hpointers p hp)
    rcases ClassType.of_mem_hiddenPointers hp with ⟨o, -, rfl⟩ | ⟨o, -, -, rfl⟩
    · exact UInt64.lt_iff_toNat_lt.mp hptr
    · exact UInt64.lt_iff_toNat_lt.mp hptr
  · exact Field.fits_of_stop_le (UInt64.lt_iff_toNat_lt.mp (Layout.roomFor_iff.mp hroom).1) hmembers

/-- **The fields of a class are apart** where no base has a recorded offset, in its layout and in that
    of its non-virtual part. -/
theorem fieldsApart (hu : h.Unrecorded id) (hincl : ∀ b ∈ direct, b ∈ bases) :
    c.FieldsApart h.abi h.pointerSize t bases := by
  have hbounded := fields_bounded hr hc hdirect hshared hptr
  have hfields : (c.fields h.abi h.pointerSize t bases).Sublist
      (c.fields h.abi h.pointerSize t (direct ++ shared)) :=
    ((hsub.map _).append_right _).append_right _
  refine ⟨fun f hf => ?_, ?_, fun p hp hnot => ?_⟩
  · obtain ⟨hpos, hle⟩ := hbounded f (hfields.subset hf)
    exact Field.fits_of_stop_le hpos hle
  · refine ((fields_disjoint hr hc hdirect hshared hu).sublist hfields).imp_of_mem fun hf hg hd => ?_
    exact Field.not_meets_of_disjoint (hbounded _ (hfields.subset hf)).1
      (hbounded _ (hfields.subset hg)).1 hd
  · rw [ClassType.mem_ownPointers, not_or] at hnot
    rcases ClassType.of_mem_hiddenPointers hp with ⟨o, ho, rfl⟩ | ⟨o, howns, ho, rfl⟩
    · have howns : t.ownsVptr = false := by
        by_contra howns
        exact hnot.1 ⟨by simpa using howns, o, ho, rfl⟩
      -- the virtual pointer and the primary base both begin the object
      obtain ⟨s, hs, hzero⟩ := hr.exists_primary ho howns
      obtain ⟨b, hb, hembeds⟩ := forall₂_mem_left hdirect hs
      obtain ⟨rfl, -⟩ := hr.vptr_le ho
      have hcomposable := composable hr hc hdirect hshared hptr hsub (.empty "" 0 0)
      have hbase := hcomposable.fitBases _ (List.mem_map_of_mem (hincl b hb))
      have hpointer : (Field.virtualPointer h.abi.virtualPointerName 0 h.pointerSize none).Fits := by
        refine Field.fits_of_stop_le ?_ ((added_le hr hc).1 _ hp)
        exact UInt64.lt_iff_toNat_lt.mp hptr
      have hoffset : b.field.offset = 0 := by
        obtain ⟨_, _, -, -, rfl⟩ := hembeds
        exact hzero
      refine ⟨b, hincl b hb, Field.meets_iff.mpr ⟨?_, ?_⟩⟩
      · exact hoffset ▸ hpointer.lt_stop
      · exact hoffset ▸ hbase.lt_stop
    · exact absurd ⟨howns, o, ho, rfl⟩ hnot.2

end

end

/-! ## The layout of a class -/

/-- How the base of the sub-object `s` is embedded: at its offset, as its layout and in its size without virtual
    bases. -/
def EmbedsAt (m : ClassModel) (s : BaseSubobject) (b : EmbeddedBase) : Prop :=
  ∃ typeName t, m.typeName? s.base = some typeName ∧ (m.offsetTable s.base).1 = .ok t ∧
    b = ⟨typeName, partName typeName t, s.offset, t.nvSize⟩

/-- `l` is the layout that the table `t` of the class `id`, defined by `c`, stands for. -/
structure Realises (m : ClassModel) (id : ClassId) (c : ClassType) (t : BaseOffsetTable) (l : Layout) :
    Prop where
  defined : m.get? id = some c
  name : m.typeName? id = some l.name
  size : l.size = t.size
  alignment : l.alignment = t.align
  /-- In order, and without overlaps. -/
  apart : Layout.Apart l.fields
  fields : ∃ direct shared, List.Forall₂ m.EmbedsAt (t.direct.filter (!·.isVirtual)) direct ∧
    List.Forall₂ m.EmbedsAt t.virtualBases shared ∧
      l.fields.Perm (c.fields m.abi m.pointerSize t (direct ++ shared))
  directBases : (t.direct.filter (!·.isVirtual)).map (·.base) =
    (c.bases.filter (!·.isVirtual)).map (·.base)
  virtualBases : (t.virtualBases.map (·.base)).Nodup ∧
    ∀ v, v ∈ t.virtualBases.map (·.base) ↔ m.hierarchy.VirtualBase id v
  pointers : (t.ownsVptr = true → t.vptrOffset.isSome = true) ∧
    (t.ownsVbptr = true → t.vbptrOffset.isSome = true)

/-- **Composed from nothing, the layout of a class realises its table.** -/
theorem Composes.realises {m : ClassModel} {typeName : String} {comp : Composition}
    (hcomp : Composes h names id typeName comp) (hm : Shows h names m) (hr : Resolves h id t)
    (hc : h.classes.get? id = some c) (hu : h.Unrecorded id) (hptr : 0 < h.pointerSize) :
    m.Realises id c t comp.full := by
  have hsize := (hcomp.sizes hr).1
  have hname := hcomp.typeName
  obtain ⟨c', direct, shared, away, hc', hdirect, hshared, hfull, -⟩ := hcomp.composed hr
  obtain rfl := Option.some.inj (hc.symm.trans hc')
  obtain ⟨hname', halign⟩ := ClassType.compose_keeps hfull
  have hapart := fieldsApart hr hc hdirect hshared hptr (.refl _) hu fun b hb =>
    List.mem_append_left shared hb
  have embedsAt {s : BaseSubobject} {b : EmbeddedBase} (hb : Embeds h names s b) : m.EmbedsAt s b := by
    obtain ⟨name, table, hname, htable, rfl⟩ := hb
    exact ⟨name, table, (hm.typeName?_eq s.base).trans hname, hm.offsetTable_eq htable, rfl⟩
  refine ⟨(hm.get?_eq id).trans hc, ?_, hsize, ?_, ?_, ⟨direct, shared, hdirect.imp fun _ _ => embedsAt,
    hshared.imp fun _ _ => embedsAt, ?_⟩, hr.map_ownBases hc, hm.hierarchy.symm ▸ hr.mem_virtualBases_iff,
    hr.isSome_of_owns⟩
  · rw [hm.typeName?_eq, hname, hname']
    rfl
  · rw [halign]
    have hpos := (hr.align_pos hptr).2
    apply UInt64.toNat_inj.mp
    change (max (max t.align 1) t.align).toNat = _
    simp only [toNat_max, show (1 : Word).toNat = 1 from rfl]
    omega
  · have hnew : (new h.abi h.pointerSize).types.get? typeName = none := rfl
    have hstart := wellFormed_startLayout (fun l hl => nomatch hnew.symm.trans hl) t.size t.align
    exact (ClassType.compose_wellFormed hstart hfull).apart
  · rw [hm.abi_eq, hm.pointerSize_eq]
    exact hapart.perm_of_compose rfl hfull

end

end ClassModel

end ClassRecovery
