/-
  What building keeps of a registered layout.

  The layouts of a class are composed on top of what is registered under its names, and building its bases leaves
  that as it is.  Every hidden pointer of a class has bytes, and none shares a byte with another
  (`ClassModel.separate_hiddenPointers`).  So what was registered before is kept but for the bytes of embedded
  bases and hidden pointers, and inherited fields are kept from hidden pointers as well
  (`ClassModel.buildLayout_preserves`).
-/
import ClassRecovery.Proofs.Layout.Preservation
import ClassRecovery.Proofs.Model.Evictions
import ClassRecovery.Proofs.Offsets.PointerOwners

namespace ClassRecovery

namespace ClassModel

section
variable {h : Hierarchy} {id : ClassId} {t : BaseOffsetTable} {c : ClassType}
  (hr : Resolves h id t) (hc : h.classes.get? id = some c)
include hr hc

/-! ## Hidden pointers -/

/-- Hidden pointers fit, as pointers have a size. -/
theorem fits_hiddenPointers (hptr : 0 < h.pointerSize) :
    ∀ p ∈ c.hiddenPointers h.abi h.pointerSize t, p.Fits := by
  intro p hp
  have hpos : 0 < p.size.toNat := by
    rcases ClassType.of_mem_hiddenPointers hp with ⟨o, -, rfl⟩ | ⟨o, -, -, rfl⟩
    · exact UInt64.lt_iff_toNat_lt.mp hptr
    · exact UInt64.lt_iff_toNat_lt.mp hptr
  exact Field.fits_of_stop_le hpos ((added_le hr hc).1 p hp)

omit hc in
/-- **The hidden pointers of a class share no byte**, whatever offsets are recorded. -/
theorem separate_hiddenPointers : Layout.Separate (c.hiddenPointers h.abi h.pointerSize t) := by
  have hone (has : Bool) (p : Field) : Layout.Separate (if has then [p] else []) := by
    cases has
    · exact .nil
    · exact List.pairwise_singleton _ _
  unfold ClassType.hiddenPointers
  cases hvptr : t.vptrOffset with
  | none =>
    cases t.vbptrOffset with
    | none => exact .nil
    | some o' => exact hone _ _
  | some o =>
    cases hvbptr : t.vbptrOffset with
    | none =>
      rw [List.append_nil]
      exact hone _ _
    | some o' =>
      refine List.pairwise_append.mpr ⟨hone _ _, hone _ _, fun p hp q hq hmeets => ?_⟩
      obtain ⟨-, rfl⟩ : _ ∧ p = _ := by simpa using hp
      obtain ⟨howns, rfl⟩ : t.ownsVbptr = true ∧ q = _ := by simpa using hq
      have hbehind := hr.le_vbptrOffset hvptr howns hvbptr
      have hstop := Field.toNat_stop_le (.virtualPointer h.abi.virtualPointerName o h.pointerSize none)
      have hbefore := (Field.meets_iff.mp hmeets).2
      exact absurd (Nat.lt_of_lt_of_le hbefore (Nat.le_trans hstop hbehind)) (Nat.lt_irrefl _)

/-- The pointers that a class has to have: a virtual pointer if it owns one or has virtual functions, and a
    virtual base pointer if it owns one. -/
theorem exists_hiddenPointers :
    (t.ownsVptr = true ∨ c.isPolymorphic = true → ∃ o, t.vptrOffset = some o ∧
      .virtualPointer h.abi.virtualPointerName o h.pointerSize none ∈
        c.hiddenPointers h.abi h.pointerSize t) ∧
      (t.ownsVbptr = true → ∃ o, t.vbptrOffset = some o ∧
        .virtualBasePointer h.abi.virtualBasePointerName o h.pointerSize ∈
          c.hiddenPointers h.abi h.pointerSize t) := by
  constructor
  · intro hneeds
    have hdynamic : t.vptrOffset.isSome = true := by
      rcases hneeds with howns | hpoly
      · exact hr.isSome_of_owns.1 howns
      · obtain ⟨c', parts, nv, own, shared, ha⟩ := hr.assembled
        obtain rfl := Option.some.inj (hc.symm.trans ha.defined)
        refine ha.isDynamic_iff.mpr (.inr ?_)
        unfold ClassType.needsVptr
        split <;> simp [hpoly]
    obtain ⟨o, ho⟩ := Option.isSome_iff_exists.mp hdynamic
    refine ⟨o, ho, List.mem_append_left _ ?_⟩
    have hhas : (t.ownsVptr || c.isPolymorphic) = true := by simpa using hneeds
    simp [ho, hhas]
  · intro howns
    obtain ⟨o, ho⟩ := Option.isSome_iff_exists.mp (hr.isSome_of_owns.2 howns)
    refine ⟨o, ho, List.mem_append_right _ ?_⟩
    simp [ho, howns]

end

/-! ## Building -/

theorem fields_startLayout (m : ClassModel) (name : String) (size align : Word) :
    (m.startLayout name size align).fields = (m.types.get? name).elim [] (·.fields) := by
  unfold startLayout
  cases m.types.get? name <;> rfl

/-- **Composing keeps what is registered** under the name of the class, up to bases and hidden pointers. -/
theorem ComposesOn.preserves {h : Hierarchy} {names : OrderedMap ClassId String} {types : TypeDatabase}
    {id : ClassId} {comp : Composition} {typeName : String} {t : BaseOffsetTable} {c : ClassType}
    (hcomp : ComposesOn h names types id comp) (hname : names.get? id = some typeName)
    (hr : Resolves h id t) (hc : h.classes.get? id = some c) (hptr : 0 < h.pointerSize)
    (horderly : ∀ l, types.get? typeName = some l → l.Orderly) :
    ∃ bases, List.Forall₂ (Embeds h names) t.outermost bases ∧
      Layout.Preserves ((types.get? typeName).elim [] (·.fields)) (bases.map EmbeddedBase.field)
        (c.hiddenPointers h.abi h.pointerSize t) comp.full := by
  obtain @⟨_, _, _, direct, shared, _, hc', hname', hr', hdirect, hshared, -, hcomposed⟩ := hcomp
  obtain rfl := Option.some.inj (hc.symm.trans hc')
  obtain rfl := Option.some.inj (hname.symm.trans hname')
  obtain rfl := hr.unique hr'
  obtain ⟨away, hfull, -⟩ := compose_ok_iff.mp hcomposed
  obtain ⟨hcomposable, hfull⟩ := ClassType.compose_ok_iff.mp hfull
  obtain ⟨-, hfull⟩ := Prod.mk.inj hfull
  have hfields := fields_startLayout (holding h names types) typeName t.size t.align
  have hstart : ((holding h names types).startLayout typeName t.size t.align).Orderly := by
    change _ = (types.get? typeName).elim [] (·.fields) at hfields
    cases hl : types.get? typeName with
    | none =>
      rw [hl] at hfields
      exact (Layout.orderly_empty typeName t.size t.align).of_fields hfields
    | some l =>
      rw [hl] at hfields
      exact (horderly l hl).of_fields hfields
  have hguards : ∀ f ∈ (direct ++ shared).map EmbeddedBase.field, f.Guards := by
    intro f hf
    obtain ⟨b, -, rfl⟩ := List.mem_map.mp hf
    exact b.guards_field
  have hpreserves := hcomposable.preserves hstart hguards
    (fun p hp => ⟨c.not_guards_hiddenPointers h.abi h.pointerSize t p hp,
      fits_hiddenPointers hr hc hptr p hp⟩)
    (separate_hiddenPointers hr) (Field.not_guards_undefined _ _)
  rw [hfields] at hpreserves
  exact ⟨direct ++ shared, List.rel_append hdirect hshared, hfull ▸ hpreserves.growTo t.size⟩

/-- **Building keeps what was registered** for the class before, whatever offsets are recorded, if that is orderly
    and no type name is another one with the mark of non-virtual parts.  Gone are only fields that share a byte
    with an embedded base, and such that are not inherited and share one with a hidden pointer; and a base or a
    hidden pointer is missing only where a later base or, for the pointer, an inherited field is across it. -/
theorem buildLayout_preserves (abi : Abi) (pointerSize : Word) (hptr : 0 < pointerSize)
    (ops : List Operation) (id : ClassId) (t : BaseOffsetTable) :
    let m := reached abi pointerSize ops
    (m.offsetTable id).1 = .ok t →
    (∀ a b name, m.typeName? a = some name → m.typeName? b ≠ some (nonVirtualName name)) →
    (∀ earlier, m.layout? id = some earlier → earlier.Orderly) →
    ∃ c bases l, m.get? id = some c ∧ (m.buildLayout id).value.1 = .ok l ∧
      List.Forall₂ m.EmbedsAt t.outermost bases ∧
      Layout.Preserves ((m.layout? id).elim [] (·.fields)) (bases.map EmbeddedBase.field)
        (c.hiddenPointers abi pointerSize t) l ∧
      (t.ownsVptr = true ∨ c.isPolymorphic = true → ∃ o, t.vptrOffset = some o ∧
        .virtualPointer abi.virtualPointerName o pointerSize none ∈ c.hiddenPointers abi pointerSize t) ∧
      (t.ownsVbptr = true → ∃ o, t.vbptrOffset = some o ∧
        .virtualBasePointer abi.virtualBasePointerName o pointerSize ∈
          c.hiddenPointers abi pointerSize t) := by
  intro m ht hunmarked horderly
  have hm : Shows m.hierarchy m.typeNames m := shows_reached abi pointerSize ops
  have hnames : Distinct m.typeNames :=
    ⟨fun _ _ _ => (named_reached abi pointerSize ops).injective, hunmarked⟩
  obtain ⟨habi, hpointer⟩ : m.hierarchy.abi = abi ∧ m.hierarchy.pointerSize = pointerSize :=
    parameters_reached abi pointerSize ops
  rw [← hpointer] at hptr
  have hr := hm.resolves ht
  obtain ⟨c, hc⟩ := hr.exists_class
  have htitled : m.Titled := titled_reached abi pointerSize ops
  obtain ⟨typeName, hname⟩ := Option.isSome_iff_exists.mp (htitled id c hc)
  have hlayout : m.layout? id = m.types.get? typeName := by rw [layout?, hname, Option.bind_some]
  obtain ⟨l, hl⟩ : ∃ l, (m.buildLayout id).value.1 = .ok l :=
    buildWithin_ok hptr htitled hm hr (underway_nil m.hierarchy id)
  have hresult := (buildWithin_result (m.size + 1) id m hm).result
  change BuildResult _ _ id m.types (m.buildLayout id).value.1 (m.buildLayout id).value.2.types at hresult
  rw [hl] at hresult
  generalize (m.buildLayout id).value.2.types = types at hresult
  cases hresult with
  | @ok types comp hgrows hcomp =>
    -- no base is registered under the name of the class
    have hsame : types.get? typeName = m.layout? id :=
      (hgrows.get?_of_not_inherits hnames hm.keyed hr.not_inherits_self hname).1.trans hlayout.symm
    obtain ⟨bases, hbases, hpreserves⟩ := hcomp.preserves hname hr hc hptr (hsame ▸ horderly)
    have embedsAt {s : BaseSubobject} {b : EmbeddedBase} (hb : Embeds m.hierarchy m.typeNames s b) :
        m.EmbedsAt s b := by
      obtain ⟨name, table, hname, htable, rfl⟩ := hb
      exact ⟨name, table, hname, hm.offsetTable_eq htable, rfl⟩
    have hpointers := exists_hiddenPointers hr hc
    rw [habi, hpointer] at hpreserves hpointers
    exact ⟨c, bases, comp.full, hc, hl, hbases.imp fun _ _ => embedsAt, hsame ▸ hpreserves, hpointers⟩

/-- A class with a virtual pointer and a base at a recorded offset, under whose name a layout is registered: an
    inherited field is where the pointer belongs, and a member where the base does. -/
theorem buildLayout_preserves_guarded :
    let ops : List Operation :=
      [.insert { id := 1, name := "Base", memberSize := 8 },
        .insert
          { id := 2, name := "Child", bases := [⟨1, false, true, some 16⟩],
            vtable := some (.ofTargets 4096 2 8 [8192]) },
        .registerLayout ⟨"Child", [.base "Old" "Old" 0 4, .member "lost" 16 (.int 4 true) 8,
          .member "kept" 32 (.int 4 true) 8], 40, 8⟩]
    let m := reached .itanium 8 ops
    ∃ t c bases l, m.get? 2 = some c ∧ (m.buildLayout 2).value.1 = .ok l ∧
      List.Forall₂ m.EmbedsAt t.outermost bases ∧
      Layout.Preserves [.base "Old" "Old" 0 4, .member "lost" 16 (.int 4 true) 8,
        .member "kept" 32 (.int 4 true) 8] (bases.map EmbeddedBase.field) (c.hiddenPointers .itanium 8 t) l := by
  intro ops m
  obtain ⟨t, ht⟩ : ∃ t, (m.offsetTable 2).1 = .ok t := isOk_iff.mp (by decide +kernel)
  have hlayout : m.layout? 2 = some ⟨"Child", [.base "Old" "Old" 0 4, .member "lost" 16 (.int 4 true) 8,
      .member "kept" 32 (.int 4 true) 8], 40, 8⟩ := by decide +kernel
  have horderly : ∀ earlier, m.layout? 2 = some earlier → earlier.Orderly := by
    intro earlier hearlier
    obtain rfl := Option.some.inj (hlayout.symm.trans hearlier)
    exact ⟨by decide, by decide, by decide⟩
  obtain ⟨c, bases, l, hc, hl, hbases, hpreserves, -⟩ := buildLayout_preserves .itanium 8 (by decide) ops 2 t ht
    (unmarked_of_forall (by decide +kernel)) horderly
  rw [hlayout] at hpreserves
  exact ⟨t, c, bases, l, hc, hl, hbases, hpreserves⟩

end ClassModel

end ClassRecovery
