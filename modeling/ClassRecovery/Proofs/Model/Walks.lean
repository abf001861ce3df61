/-
  Walks through layouts.

  A layout names the layouts of the bases that it embeds, so one can walk from base to base through the registered
  layouts, and add up the offsets of the fields on the way (`ClassModel.Follows`).  Offset tables and
  layouts agree: from the outermost sub-object that holds a base, the walk along the rest of the base's path leads
  to where the table has the base (`ClassModel.layouts_agree`).
-/
import ClassRecovery.Proofs.Model.Closure

namespace ClassRecovery

namespace ClassModel

/-- `name` is the layout that derived classes embed for the class `b`. -/
def EmbedsAs (m : ClassModel) (b : ClassId) (name : String) : Prop :=
  ∃ typeName t, m.typeName? b = some typeName ∧ (m.offsetTable b).1 = .ok t ∧
    name = partName typeName t

/-- From a layout of the class `a` one gets to one of the class `c` along the path, from one embedded base to the
    next through the registered layouts, and the offsets of the fields on the way add up to `n`. -/
inductive Follows (m : ClassModel) : ClassId → Layout → BasePath → ClassId → ℕ → Prop
  | nil (a : ClassId) (l : Layout) : Follows m a l [] a 0
  | cons {a b c : ClassId} {l l' : Layout} {f : Field} {name : String} {back : BasePath} {n : ℕ} :
      f ∈ l.fields → f.kind = .base name → m.EmbedsAs b name → m.types.get? name = some l' →
      Follows m b l' back c n → Follows m a l (b :: back) c (f.offset.toNat + n)

/-- From the layout of the class `a` one gets to every sub-object of its table outside of virtual bases, along its
    path. -/
def LeadsOn (m : ClassModel) (a : ClassId) (l : Layout) (t : BaseOffsetTable) : Prop :=
  ∀ s ∈ t.entries, s.inVirtualBase = false →
    ∃ path, s.paths = [path] ∧ m.Follows a l path s.base s.offset.toNat

/-- In the layout there is an outermost sub-object of the table, at its offset, and from the layout that is named
    there one gets to the given sub-object along the rest of its paths. -/
def Locates (m : ClassModel) (l : Layout) (t : BaseOffsetTable) (s : BaseSubobject) : Prop :=
  ∃ o ∈ t.outermost, o.inVirtualBase = s.inVirtualBase ∧
    ∃ f ∈ l.fields, ∃ name l', f.offset = o.offset ∧ f.kind = .base name ∧ m.EmbedsAs o.base name ∧
      m.types.get? name = some l' ∧
      ∃ back n, m.Follows o.base l' back s.base n ∧ s.paths = o.paths.map (· ++ back) ∧
        s.offset.toNat = f.offset.toNat + n

section
variable {h : Hierarchy} {names : OrderedMap ClassId String} {m : ClassModel}

/-! ## Through one block -/

theorem EmbedsAs.unique {b : ClassId} {name name' : String} (hn : m.EmbedsAs b name)
    (hn' : m.EmbedsAs b name') : name = name' := by
  obtain ⟨typeName, t, hname, ht, rfl⟩ := hn
  obtain ⟨typeName', t', hname', ht', rfl⟩ := hn'
  obtain rfl := Option.some.inj (hname.symm.trans hname')
  obtain rfl := Except.ok.inj (ht.symm.trans ht')
  rfl

theorem Shows.embedsAs (hm : Shows h names m) {s : BaseSubobject} {e : EmbeddedBase}
    (he : Embeds h names s e) : m.EmbedsAs s.base e.layout := by
  obtain ⟨typeName, table, hname, htable, rfl⟩ := he
  exact ⟨typeName, table, (hm.typeName?_eq s.base).trans hname, hm.offsetTable_eq htable, rfl⟩

theorem Embeds.offset_eq {s : BaseSubobject} {e : EmbeddedBase} (he : Embeds h names s e) :
    e.offset = s.offset := by
  obtain ⟨-, -, -, -, rfl⟩ := he
  rfl

/-- What lies in a block is reached through the layout of the base that begins it. -/
theorem LeadsOn.of_has {b : Block} {l : Layout} (hl : m.LeadsOn b.placed.base l b.placed.table)
    {s : BaseSubobject} (hs : b.Has s) :
    ∃ back n, s.paths = b.paths.map (· ++ back) ∧ m.Follows b.placed.base l back s.base n ∧
      s.offset.toNat = b.placed.offset.toNat + n := by
  rcases hs with rfl | ⟨s', hs', hwithin⟩
  · exact ⟨[], 0, by simp [Block.head], .nil _ l, rfl⟩
  · obtain ⟨hs', hout⟩ := List.mem_filter.mp hs'
    obtain ⟨path, hpaths, hfollows⟩ := hl s' hs' (by simpa using hout)
    obtain ⟨o, ho, rfl⟩ := BaseSubobject.within_eq_some_iff.mp hwithin
    refine ⟨path, _, ?_, hfollows, checkedAdd_eq_some_iff.mp ho⟩
    simp [hpaths, ← List.map_eq_flatMap]

/-! ## Through all layouts -/

section
variable (hnames : Distinct names) (hm : Laid h names m)
include hnames hm

/-- The two layouts of a class that has one. -/
theorem Laid.exists_named {id : ClassId} {t : BaseOffsetTable} (hr : Resolves h id t)
    (hlayout : HasLayout names m.types id) : ∃ comp name, Composes h names id name comp ∧
      names.get? id = some name ∧ m.types.get? name = some comp.full ∧ m.EmbedsAs id (partName name t) ∧
      m.types.get? (partName name t) = some comp.part := by
  obtain ⟨name, hname, hcontains⟩ := hlayout
  obtain ⟨t', comp, hr', hcomp, hfull, hpart⟩ := hm.composes hnames hname hcontains
  obtain rfl := hr.unique hr'
  exact ⟨comp, name, hcomp, hname, hfull,
    ⟨name, t, (hm.shows.typeName?_eq id).trans hname, hm.shows.offsetTable_eq hr, rfl⟩, hpart⟩

/-- **The layout that derived classes embed leads to the sub-objects** of the class outside of virtual
    bases. -/
theorem Laid.leadsOn {id : ClassId} {t : BaseOffsetTable} (hr : Resolves h id t)
    (hu : h.Unrecorded id) (hlayout : HasLayout names m.types id) :
    ∃ name l, m.EmbedsAs id name ∧ m.types.get? name = some l ∧ m.LeadsOn id l t := by
  revert hu hlayout
  refine hr.inherits_induction (P := fun id t => h.Unrecorded id → HasLayout names m.types id →
    ∃ name l, m.EmbedsAs id name ∧ m.types.get? name = some l ∧ m.LeadsOn id l t) ?_
  intro id t hr ih hu hlayout
  obtain ⟨comp, name, hcomp, -, -, hembeds, hpart⟩ := hm.exists_named hnames hr hlayout
  obtain ⟨_, _, _, own, virtual, ha⟩ := hr.assembled
  refine ⟨_, comp.part, hembeds, hpart, fun s hs hout => ?_⟩
  obtain ⟨b, hb, hhas⟩ := ha.tile.exists_block hs
  have hown : b ∈ own := by
    rcases List.mem_append.mp hb with hb | hb
    · exact hb
    · rw [hhas.inVirtualBase_eq, ha.shared_head b hb] at hout
      cases hout
  have hhead : b.head ∈ t.direct.filter (!·.isVirtual) := ha.ownBases_eq ▸ List.mem_map_of_mem hown
  obtain ⟨e, he, hfield⟩ := (hcomp.exists_field hr hu).2 b.head hhead
  -- the layout of the base that begins the block leads on to what lies in it
  obtain ⟨hinherits, hres⟩ := ha.resolved b hb
  obtain ⟨baseName, l, hbase, hl, hleads⟩ := ih _ _ hinherits hres (hu.base hinherits.to_reflTransGen)
    (hm.closed.bases id t hlayout hr b.head (List.mem_append_left _ hhead))
  obtain rfl := hbase.unique (hm.shows.embedsAs he)
  obtain ⟨back, n, hpaths, hfollows, hoffset⟩ := hleads.of_has hhas
  refine ⟨b.placed.base :: back, by simp [hpaths, ha.own_head b hown], ?_⟩
  rw [hoffset, show b.placed.offset = e.field.offset from he.offset_eq.symm]
  exact .cons hfield rfl hbase hl hfollows

/-- **The layout of a class locates all its sub-objects.** -/
theorem Laid.locates {id : ClassId} {t : BaseOffsetTable} (hr : Resolves h id t)
    (hu : h.Unrecorded id) {name : String} (hname : names.get? id = some name) {l : Layout}
    (hl : m.types.get? name = some l) {s : BaseSubobject} (hs : s ∈ t.entries) : m.Locates l t s := by
  have hlayout : HasLayout names m.types id := ⟨name, hname, Option.isSome_iff_exists.mpr ⟨l, hl⟩⟩
  obtain ⟨comp, name', hcomp, hname', hfull, -⟩ := hm.exists_named hnames hr hlayout
  obtain rfl := Option.some.inj (hname.symm.trans hname')
  obtain rfl := Option.some.inj (hl.symm.trans hfull)
  obtain ⟨_, _, _, own, virtual, ha⟩ := hr.assembled
  obtain ⟨b, hb, hhas⟩ := ha.tile.exists_block hs
  have hhead : b.head ∈ t.outermost := ha.outermost_eq ▸ List.mem_map_of_mem hb
  obtain ⟨e, he, hfield⟩ := (hcomp.exists_field hr hu).1 b.head hhead
  obtain ⟨hinherits, hres⟩ := ha.resolved b hb
  obtain ⟨baseName, l', hbase, hl', hleads⟩ := hm.leadsOn hnames hres
    (hu.base hinherits.to_reflTransGen) (hm.closed.bases id t hlayout hr b.head hhead)
  obtain rfl := hbase.unique (hm.shows.embedsAs he)
  obtain ⟨back, n, hpaths, hfollows, hoffset⟩ := hleads.of_has hhas
  have hplaced : e.field.offset = b.placed.offset := he.offset_eq
  exact ⟨b.head, hhead, hhas.inVirtualBase_eq.symm, e.field, hfield, _, l', hplaced, rfl, hbase, hl',
    back, n, hfollows, hpaths, hplaced ▸ hoffset⟩

end

end

/-! ## Layouts and offset tables -/

/-- **Layouts and offset tables agree**, in whatever order classes are built once all are inserted.  The base fields
    of registered layouts name registered layouts of the same size; and where no base has a recorded offset, the
    layout of a class locates every sub-object of its table. -/
theorem layouts_agree (abi : Abi) (pointerSize : Word) (classes : List ClassType)
    (ops : List Operation) (hops : ∀ op ∈ ops, op.isInput = false)
    (hunmarked : ∀ id id' name, (ofClasses abi pointerSize classes).typeName? id = some name →
      (ofClasses abi pointerSize classes).typeName? id' ≠ some (nonVirtualName name)) :
    let m := (ofClasses abi pointerSize classes).applyAll ops
    (∀ name l, m.types.get? name = some l → ∀ f ∈ l.fields, ∀ layout, f.kind = .base layout →
      ∃ l', m.types.get? layout = some l' ∧ l'.size = f.size) ∧
    ∀ id l, m.layout? id = some l → ∃ t, (m.offsetTable id).1 = .ok t ∧
      (m.hierarchy.Unrecorded id → ∀ s ∈ t.entries, m.Locates l t s) := by
  intro m
  have huntouched := untouched_ofClasses abi pointerSize classes
  have hnames : Distinct (ofClasses abi pointerSize classes).typeNames :=
    ⟨fun _ _ _ hid hid' => huntouched.named.injective hid hid', hunmarked⟩
  have hm : Laid _ _ m := (laid_of_untouched (coherent_reached _ _ _) huntouched).applyAll hnames hops
  refine ⟨fun name l hl f hf layout hkind => hm.exists_embedded hnames hl hf hkind, fun id l hl => ?_⟩
  obtain ⟨name, hname, hget⟩ := Option.bind_eq_some_iff.mp hl
  rw [hm.shows.typeName?_eq] at hname
  obtain ⟨t, -, hr, -⟩ := hm.composes hnames hname (Option.isSome_iff_exists.mpr ⟨l, hget⟩)
  refine ⟨t, hm.shows.offsetTable_eq hr, fun hu s hs => ?_⟩
  exact hm.locates hnames hr (hm.describes.hierarchy ▸ hu) hname hget hs

/-- A diamond whose top is a virtual base: the layout of its bottom locates all three bases. -/
theorem layouts_agree_diamond :
    let classes : List ClassType :=
      [{ id := 1, name := "Top", memberSize := 4, memberAlign := 4 },
        { id := 2, name := "Left", bases := [⟨1, true, true, none⟩], memberSize := 4 },
        { id := 3, name := "Right", bases := [⟨1, true, true, none⟩] },
        { id := 4, name := "Bottom", bases := [⟨2, false, true, none⟩, ⟨3, false, true, none⟩] }]
    let m := (ofClasses .itanium 8 classes).applyAll [.buildLayout 2, .ensureLayout 4]
    ∃ l t, m.layout? 4 = some l ∧ (m.offsetTable 4).1 = .ok t ∧ t.entries.length = 3 ∧
      ∀ s ∈ t.entries, m.Locates l t s := by
  intro classes m
  have hagree := layouts_agree .itanium 8 classes [.buildLayout 2, .ensureLayout 4] (by decide)
    (unmarked_of_forall (by decide +kernel))
  obtain ⟨l, hl⟩ : ∃ l, m.layout? 4 = some l := Option.isSome_iff_exists.mp (by decide +kernel)
  obtain ⟨t, ht, hlocates⟩ := hagree.2 4 l hl
  have hlength : (m.offsetTable 4).1.toOption.map (·.entries.length) = some 3 := by decide +kernel
  rw [ht] at hlength
  have hu : m.hierarchy.Unrecorded 4 := Hierarchy.unrecorded_of_forall (by decide +kernel)
  exact ⟨l, t, hl, ht, Option.some.inj hlength, hlocates hu⟩

end ClassModel

end ClassRecovery
