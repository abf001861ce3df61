/-
  The layout of the non-virtual part begins that of the whole.

  A class with virtual bases is composed twice, without its virtual bases and with them.  What is put in for the
  non-virtual part ends there, whatever offsets are recorded, and virtual bases begin behind it.  So these evict
  nothing of it and block no hidden pointer, and composed from nothing, the two layouts have the same fields up
  to the end of the non-virtual part (`ClassModel.buildLayout_prefix`).
-/
import ClassRecovery.Proofs.Model.Success
import ClassRecovery.Proofs.Offsets.PointerOwners

namespace ClassRecovery

namespace Layout

/-! ## Bases behind all the rest -/

/-- The later bases begin where all the rest has ended. -/
structure Parted (bound : Word) (front later pointers : List Field) (members : Field) : Prop where
  front : ∀ f ∈ front, f.stop.toNat ≤ bound.toNat
  later : ∀ f ∈ later, bound.toNat ≤ f.offset.toNat
  pointers : ∀ p ∈ pointers, p.stop.toNat ≤ bound.toNat
  members : members.stop.toNat ≤ bound.toNat

namespace Parted

variable {bound : Word} {front later pointers : List Field} {members : Field}
  (hparted : Parted bound front later pointers members)
include hparted

/-- A field that ends where the later bases begin meets none of them. -/
theorem not_meets {f g : Field} (hf : f.stop.toNat ≤ bound.toNat) (hg : g ∈ later) : ¬ f.Meets g := by
  intro hmeets
  have hbefore := (Field.meets_iff.mp hmeets).2
  have hbehind := hparted.later g hg
  omega

/-- What is composed from nothing without the later bases ends before them. -/
theorem stop_le {start : Layout} (hstart : start.fields = []) {f : Field}
    (hf : f ∈ (start.composed front pointers members).fields) : f.stop.toNat ≤ bound.toNat := by
  rcases mem_composed.mp hf with hf | ⟨rfl, -⟩
  · rcases mem_of_mem_putAll hf with hf | hf
    · exact hparted.pointers f (mem_free hf).1
    · rcases mem_of_mem_putAll hf with hf | hf
      · exact hparted.front f hf
      · rw [hstart] at hf
        cases hf
  · exact hparted.members

section
variable {start start' : Layout} (hstart : start.fields = []) (hstart' : start'.fields = [])
include hstart hstart'

theorem mem_putAll_iff {f : Field} :
    f ∈ (start.putAll (front ++ later)).fields ↔
      f ∈ (start'.putAll front).fields ∨ Survives f later := by
  rw [mem_putAll, mem_putAll, hstart, hstart', survives_append]
  constructor
  · rintro ((⟨hf, -⟩ | hf) | ⟨hf, -⟩)
    · exact .inl (.inl hf)
    · exact .inr hf
    · cases hf
  · rintro ((hf | ⟨hf, -⟩) | hf)
    · exact .inl (.inl ⟨hf, fun g hg => hparted.not_meets (hparted.front f hf.mem) hg⟩)
    · cases hf
    · exact .inl (.inr hf)

/-- The later bases block no hidden pointer. -/
theorem blocks_eq {p : Field} (hp : p ∈ pointers) :
    (start.putAll (front ++ later)).blocks p = (start'.putAll front).blocks p := by
  have hmem {f : Field} := hparted.mem_putAll_iff hstart hstart' (f := f)
  rw [Bool.eq_iff_iff, blocks_iff, blocks_iff]
  constructor
  · rintro ⟨f, hf, hmeets, hguards⟩
    rcases hmem.mp hf with hf | hf
    · exact ⟨f, hf, hmeets, hguards⟩
    · exact absurd hmeets.symm (hparted.not_meets (hparted.pointers p hp) hf.mem)
  · rintro ⟨f, hf, hmeets, hguards⟩
    exact ⟨f, hmem.mpr (.inl hf), hmeets, hguards⟩

theorem mem_inherited_iff {f : Field} :
    f ∈ (start.inherited (front ++ later) pointers).fields ↔
      f ∈ (start'.inherited front pointers).fields ∨ Survives f later := by
  have hfree : pointers.filter (!(start.putAll (front ++ later)).blocks ·) =
      pointers.filter (!(start'.putAll front).blocks ·) :=
    List.filter_congr fun p hp => by rw [hparted.blocks_eq hstart hstart' hp]
  rw [inherited, inherited, hfree, mem_putAll (l := start.putAll (front ++ later)),
    mem_putAll (l := start'.putAll front), hparted.mem_putAll_iff hstart hstart']
  constructor
  · rintro (hf | ⟨hf | hf, hclear⟩)
    · exact .inl (.inl hf)
    · exact .inl (.inr ⟨hf, hclear⟩)
    · exact .inr hf
  · rintro ((hf | ⟨hf, hclear⟩) | hf)
    · exact .inl hf
    · exact .inr ⟨.inl hf, hclear⟩
    · refine .inr ⟨.inr hf, fun p hp hmeets => ?_⟩
      exact hparted.not_meets (hparted.pointers p (mem_free hp).1) hf.mem hmeets.symm

/-- **The later bases are added** to what is composed without them. -/
theorem mem_composed_iff {f : Field} :
    f ∈ (start.composed (front ++ later) pointers members).fields ↔
      f ∈ (start'.composed front pointers members).fields ∨ Survives f later := by
  have hmem {f : Field} := hparted.mem_inherited_iff hstart hstart' (f := f)
  have hroom : (start.inherited (front ++ later) pointers).roomFor members =
      (start'.inherited front pointers).roomFor members := by
    rw [Bool.eq_iff_iff, roomFor_iff, roomFor_iff]
    refine and_congr_right fun _ => ⟨fun hclear g hg => hclear g (hmem.mpr (.inl hg)), fun hclear g hg => ?_⟩
    rcases hmem.mp hg with hg | hg
    · exact hclear g hg
    · exact fun hmeets => hparted.not_meets hparted.members hg.mem hmeets.symm
  rw [mem_composed, mem_composed, hmem, hroom]
  exact or_right_comm

/-- **Composed without the later bases**, a layout has the fields of the whole that end before these, in the same
    order.  The others are later bases. -/
theorem fields_eq (hc : Composable start (front ++ later) pointers members)
    (hc' : Composable start' front pointers members) :
    (start'.composed front pointers members).fields =
        (start.composed (front ++ later) pointers members).fields.filter (fun f => f.stop ≤ bound) ∧
      ∀ f ∈ (start.composed (front ++ later) pointers members).fields, ¬ f.stop ≤ bound → f ∈ later := by
  have hwf := hc.wellFormed ⟨by simp [hstart], by rw [hstart]; exact .nil⟩
  have hwf' := hc'.wellFormed ⟨by simp [hstart'], by rw [hstart']; exact .nil⟩
  have hmem {f : Field} := hparted.mem_composed_iff hstart hstart' (f := f)
  have hends {f : Field} (hf : f ∈ (start'.composed front pointers members).fields) : f.stop ≤ bound :=
    UInt64.le_iff_toNat_le.mpr (hparted.stop_le hstart' hf)
  refine ⟨hwf'.apart.ext (hwf.apart.sublist List.filter_sublist) hwf'.fits fun f => ?_, fun f hf hnot => ?_⟩
  · rw [List.mem_filter, decide_eq_true_eq, hmem]
    constructor
    · exact fun hf => ⟨.inl hf, hends hf⟩
    · rintro ⟨hf | hf, hstop⟩
      · exact hf
      · have hbehind := hparted.later f hf.mem
        have hbytes := (hwf.fits f (hmem.mpr (.inr hf))).lt_stop
        have hstop := UInt64.le_iff_toNat_le.mp hstop
        omega
  · rcases hmem.mp hf with hf | hf
    · exact absurd (hends hf) hnot
    · exact hf.mem

end

end Parted

end Layout

namespace ClassModel

section
variable {h : Hierarchy} {names : OrderedMap ClassId String} {id : ClassId} {t : BaseOffsetTable}
  {c : ClassType}

/-! ## The layouts of a class -/

/-- **Virtual bases come behind all the rest**, whatever offsets are recorded. -/
theorem parted_of_embeds (hr : Resolves h id t) (hc : h.classes.get? id = some c)
    {direct shared : List EmbeddedBase}
    (hdirect : List.Forall₂ (Embeds h names) (t.direct.filter (!·.isVirtual)) direct)
    (hshared : List.Forall₂ (Embeds h names) t.virtualBases shared) :
    Layout.Parted t.nvSize (direct.map EmbeddedBase.field) (shared.map EmbeddedBase.field)
      (c.hiddenPointers h.abi h.pointerSize t) (.undefined t.membersOffset c.memberSize) := by
  obtain ⟨hpointers, hmembers⟩ := added_le hr hc
  obtain ⟨_, _, _, own, virtual, ha⟩ := hr.assembled
  obtain ⟨-, -, -, hown, hvirtual⟩ := ha.bounded
  rw [ha.ownBases_eq] at hdirect
  rw [ha.virtualBases_eq] at hshared
  have hspans := spans_of_embeds (fun b hb => (ha.resolved b (List.mem_append_left _ hb)).2) hdirect
  have hspans' := spans_of_embeds (fun b hb => (ha.resolved b (List.mem_append_right _ hb)).2) hshared
  refine ⟨fun f hf => ?_, fun f hf => ?_, fun p hp => Nat.le_trans p.toNat_stop_le (hpointers p hp),
    Nat.le_trans (Field.toNat_stop_le _) hmembers⟩
  · obtain ⟨e, he, rfl⟩ := List.mem_map.mp hf
    obtain ⟨b, hb, hspan⟩ := forall₂_mem_right hspans he
    exact Nat.le_trans e.field.toNat_stop_le (hspan ▸ hown b hb : e.span.stop ≤ t.nvSize.toNat)
  · obtain ⟨e, he, rfl⟩ := List.mem_map.mp hf
    obtain ⟨b, hb, hspan⟩ := forall₂_mem_right hspans' he
    have hoffset : e.offset = b.placed.offset := congrArg Span.offset hspan
    change t.nvSize.toNat ≤ e.offset.toNat
    rw [hoffset]
    exact (hvirtual b hb).1

/-- **The layout of the non-virtual part begins that of the whole**, if both are composed from nothing. -/
theorem Composes.prefix_eq {typeName : String} {comp : Composition}
    (hcomp : Composes h names id typeName comp) (hr : Resolves h id t) (hvirtual : t.hasVirtualBases = true) :
    ∃ nv, comp.nonVirtual = some nv ∧ nv.size = t.nvSize ∧
      nv.fields = comp.full.fields.filter (fun f => f.stop ≤ t.nvSize) ∧
      ∀ f ∈ comp.full.fields, ¬ f.stop ≤ t.nvSize →
        ∃ s ∈ t.virtualBases, ∃ b, Embeds h names s b ∧ f = b.field ∧ t.nvSize ≤ f.offset := by
  have hsize := (hcomp.sizes hr).2
  obtain ⟨c, direct, shared, away, hc, hdirect, hshared, hfull, ⟨hplain, -⟩ | ⟨more, nv, -, hnv, hpart⟩⟩ :=
    hcomp.composed hr
  · rw [hvirtual] at hplain
    cases hplain
  rw [Composition.part, hnv, Option.getD_some] at hsize
  have hparted := parted_of_embeds hr hc hdirect hshared
  obtain ⟨hcomposable, hfull⟩ := ClassType.compose_ok_iff.mp hfull
  obtain ⟨hcomposable', hpart⟩ := ClassType.compose_ok_iff.mp hpart
  rw [List.map_append] at hcomposable hfull
  obtain ⟨hfields, hothers⟩ := hparted.fields_eq rfl rfl hcomposable hcomposable'
  rw [(Prod.mk.inj hfull).2]
  refine ⟨nv, hnv, hsize, ?_, fun f hf hnot => ?_⟩
  · rw [(Prod.mk.inj hpart).2]
    exact hfields
  · have hlater := hothers f hf hnot
    obtain ⟨b, hb, rfl⟩ := List.mem_map.mp hlater
    obtain ⟨s, hs, hembeds⟩ := forall₂_mem_right hshared hb
    exact ⟨s, hs, b, hembeds, rfl, UInt64.le_iff_toNat_le.mpr (hparted.later _ hlater)⟩

end

/-! ## Building -/

/-- **The layout of the non-virtual part begins the built layout** of a class with virtual bases, whatever offsets
    are recorded, if nothing is registered under its two names by the time its bases have layouts.  Its size is
    that of the table, and the other fields of the whole layout are virtual bases behind it. -/
theorem buildLayout_prefix (abi : Abi) (pointerSize : Word) (hptr : 0 < pointerSize)
    (ops : List Operation) (id : ClassId) (t : BaseOffsetTable) (name : String) :
    let m := reached abi pointerSize ops
    let before := (basesBuilt m.size id t m).types
    (m.offsetTable id).1 = .ok t → (∃ v, m.hierarchy.VirtualBase id v) → m.typeName? id = some name →
    before.get? name = none → before.get? (nonVirtualName name) = none →
    ∃ l m' nv, (m.buildLayout id).value = (.ok l, m') ∧ m'.types.get? name = some l ∧
      m'.types.get? (nonVirtualName name) = some nv ∧ nv.size = t.nvSize ∧
      nv.fields = l.fields.filter (fun f => f.stop ≤ t.nvSize) ∧
      ∀ f ∈ l.fields, ¬ f.stop ≤ t.nvSize →
        ∃ s ∈ t.virtualBases, ∃ b, m.EmbedsAt s b ∧ f = b.field ∧ t.nvSize ≤ f.offset := by
  intro m before ht hvirtual hname hfull hpart
  have hm : Shows m.hierarchy m.typeNames m := shows_reached abi pointerSize ops
  have hpointer : 0 < m.hierarchy.pointerSize := by
    change 0 < m.pointerSize
    rwa [(parameters_reached abi pointerSize ops).2]
  have htitled : ∀ id c, m.hierarchy.classes.get? id = some c → (m.typeNames.get? id).isSome = true :=
    titled_reached abi pointerSize ops
  have hr := hm.resolves ht
  obtain ⟨c, hc⟩ := hr.exists_class
  have hunderway := underway_nil m.hierarchy id
  have hbases : ∀ s ∈ t.outermost, Buildable m.hierarchy m.typeNames (buildWithin m.size) s.base :=
    buildable_of_inherits htitled hr fun hinherits hrd hm' =>
      buildWithin_succeeds hpointer htitled hm' hrd (hunderway.base hr hinherits)
  obtain ⟨hm', -, -, direct, shared, comp, hdirect, hshared, hcomposed, hbuilt⟩ :=
    buildWithin_succ_eq hpointer hm.toOver hr hc hname hbases
  rw [compose_of_none hfull hpart, hm'.abi_eq, hm'.pointerSize_eq] at hcomposed
  have hcomp : Composes m.hierarchy m.typeNames id name comp := .mk hc hname hr hdirect hshared hcomposed
  obtain ⟨nv, hnv, hsize, hfields, hothers⟩ := hcomp.prefix_eq hr (hr.hasVirtualBases_iff.mpr hvirtual)
  refine ⟨comp.full, _, nv, hbuilt, ?_, ?_, hsize, hfields, fun f hf hnot => ?_⟩
  · rw [hcomp.get?_registered, if_pos rfl]
  · rw [hcomp.get?_registered, if_neg (nonVirtualName_ne name), if_pos ⟨rfl, by rw [hnv]; rfl⟩, hnv]
  · obtain ⟨s, hs, b, ⟨typeName, table, htypeName, htable, rfl⟩, hfield, hle⟩ := hothers f hf hnot
    exact ⟨s, hs, _, ⟨typeName, table, htypeName, hm.offsetTable_eq htable, rfl⟩, hfield, hle⟩

/-- A class with a virtual base, where the second direct base is recorded at an offset within the first. -/
theorem buildLayout_prefix_overlapping :
    let ops : List Operation :=
      [.insert { id := 1, name := "Top", vtable := some (.ofTargets 4096 1 4 [8192]), memberSize := 4 },
        .insert { id := 2, name := "Left", bases := [⟨1, true, true, none⟩], memberSize := 8 },
        .insert { id := 3, name := "Right", memberSize := 8 },
        .insert
          { id := 4, name := "Bottom", bases := [⟨2, false, true, none⟩, ⟨3, false, true, some 8⟩],
            memberSize := 1 }]
    let m := reached .msvc 4 ops
    ∃ t l m' nv, (m.offsetTable 4).1 = .ok t ∧ (m.buildLayout 4).value = (.ok l, m') ∧
      m'.types.get? (nonVirtualName "Bottom") = some nv ∧ nv.size = t.nvSize ∧
      nv.fields = l.fields.filter (fun f => f.stop ≤ t.nvSize) ∧
      ∀ f ∈ l.fields, ¬ f.stop ≤ t.nvSize → ∃ s ∈ t.virtualBases, ∃ b, m.EmbedsAt s b ∧ f = b.field := by
  intro ops m
  obtain ⟨t, ht⟩ : ∃ t, (m.offsetTable 4).1 = .ok t := isOk_iff.mp (by decide +kernel)
  have htable : (m.offsetTable 4).1.toOption.all (fun t =>
      t.hasVirtualBases &&
        ((basesBuilt m.size 4 t m).types.get? "Bottom").isNone &&
        ((basesBuilt m.size 4 t m).types.get? (nonVirtualName "Bottom")).isNone) = true := by
    decide +kernel
  simp only [ht, Except.toOption, Option.all_some, Bool.and_eq_true, Option.isNone_iff_eq_none] at htable
  obtain ⟨⟨hvirtual, hfull⟩, hpart⟩ := htable
  have hr := (shows_reached .msvc 4 ops).resolves ht
  obtain ⟨l, m', nv, hbuilt, -, hnv, hsize, hfields, hothers⟩ := buildLayout_prefix .msvc 4 (by decide) ops 4 t
    "Bottom" ht (hr.hasVirtualBases_iff.mp hvirtual) (by decide +kernel) hfull hpart
  refine ⟨t, l, m', nv, ht, hbuilt, hnv, hsize, hfields, fun f hf hnot => ?_⟩
  obtain ⟨s, hs, b, hembeds, hfield, -⟩ := hothers f hf hnot
  exact ⟨s, hs, b, hembeds, hfield⟩

end ClassModel

end ClassRecovery
