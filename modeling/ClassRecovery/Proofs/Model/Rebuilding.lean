/-
  Building a class once more.

  Once a class is built, its bases have layouts, so building the class again only composes its own layouts again,
  on top of themselves.  If what was registered before is well formed, that changes nothing, however the fields
  of bases and pointers take the place of each other (`ClassModel.buildLayout_again`).
-/
import ClassRecovery.Proofs.Model.Steps

namespace ClassRecovery

instance (f : Field) : Decidable f.Fits :=
  inferInstanceAs (Decidable (f.size ≠ 0 ∧ (checkedAdd f.offset f.size).isSome = true))

instance (fields : List Field) : Decidable (Layout.Apart fields) :=
  inferInstanceAs (Decidable (fields.Pairwise fun f g => f.stop.toNat ≤ g.offset.toNat))

instance (l : Layout) : Decidable l.WellFormed :=
  decidable_of_iff ((∀ f ∈ l.fields, f.Fits) ∧ Layout.Apart l.fields)
    ⟨fun ⟨hfits, hapart⟩ => ⟨hfits, hapart⟩, fun h => ⟨h.fits, h.apart⟩⟩

namespace TypeDatabase

/-- Every layout is well formed. -/
def WellFormed (types : TypeDatabase) : Prop := ∀ l ∈ types.all, l.WellFormed

instance (types : TypeDatabase) : Decidable types.WellFormed :=
  inferInstanceAs (Decidable (∀ l ∈ types.all, l.WellFormed))

theorem mem_all_iff {types : TypeDatabase} {l : Layout} :
    l ∈ types.all ↔ ∃ name, types.get? name = some l := by
  simp only [all, OrderedMap.values, List.mem_map, get?, OrderedMap.get?_eq_some_iff]
  constructor
  · rintro ⟨⟨name, l⟩, hmem, rfl⟩
    exact ⟨name, hmem⟩
  · rintro ⟨name, hmem⟩
    exact ⟨(name, l), hmem, rfl⟩

theorem WellFormed.of_get? {types : TypeDatabase} (hwf : types.WellFormed) {name : String} {l : Layout}
    (hl : types.get? name = some l) : l.WellFormed :=
  hwf l (mem_all_iff.mpr ⟨name, hl⟩)

theorem WellFormed.register {types : TypeDatabase} (hwf : types.WellFormed) {l : Layout}
    (hl : l.WellFormed) : (types.register l).WellFormed := by
  intro l' hl'
  obtain ⟨name, hname⟩ := mem_all_iff.mp hl'
  rw [ClassModel.get?_register] at hname
  split at hname
  · exact Option.some.inj hname ▸ hl
  · exact hwf.of_get? hname

theorem ext {types types' : TypeDatabase} (h : ∀ name, types.get? name = types'.get? name) :
    types = types' := by
  obtain ⟨layouts⟩ := types
  obtain ⟨layouts'⟩ := types'
  rw [show layouts = layouts' from OrderedMap.ext h]

end TypeDatabase

namespace ClassModel

section
variable {h : Hierarchy} {names : OrderedMap ClassId String} {types : TypeDatabase} {id : ClassId}
  {comp : Composition}

/-! ## Well-formed layouts -/

/-- **Composing the layouts of a class keeps the registered layouts well formed.** -/
theorem ComposesOn.wellFormed (hcomp : ComposesOn h names types id comp) (hwf : types.WellFormed) :
    (comp.register types).WellFormed := by
  obtain ⟨-, -, -, -, -, -, hcomposed⟩ := hcomp
  have hstart (name : String) (size align : Word) :
      ((holding h names types).startLayout name size align).WellFormed :=
    wellFormed_startLayout (fun l hl => hwf.of_get? hl) size align
  obtain ⟨away, hfull, hrest⟩ := compose_ok_iff.mp hcomposed
  refine TypeDatabase.WellFormed.register ?_ (ClassType.compose_wellFormed (hstart ..) hfull)
  rcases hrest with ⟨-, hnone, -⟩ | ⟨more, nv, -, hnv, -, hcomposed'⟩
  · rw [hnone]
    exact hwf
  · rw [hnv]
    exact hwf.register (ClassType.compose_wellFormed (hstart ..) hcomposed')

theorem Grows.wellFormed {root : ClassId} {start : TypeDatabase}
    (hgrows : Grows h names root start types) (hwf : start.WellFormed) : types.WellFormed := by
  induction hgrows with
  | refl => exact hwf
  | step _ _ _ hcomp ih => exact hcomp.wellFormed ih

/-! ## Once more -/

/-- Registering the layouts of a class twice is registering them once. -/
theorem Composition.register_register (comp : Composition) (types : TypeDatabase) :
    comp.register (comp.register types) = comp.register types := by
  refine TypeDatabase.ext fun name => ?_
  cases hnv : comp.nonVirtual with
  | none =>
    simp only [register, hnv, Option.elim_none, ClassModel.get?_register]
    split <;> rfl
  | some nv =>
    simp only [register, hnv, Option.elim_some, ClassModel.get?_register]
    split
    · rfl
    · split <;> rfl

/-- **The layouts of a class are composed alike** on top of themselves. -/
theorem compose_again {c : ClassType} {typeName : String}
    {table : BaseOffsetTable} {direct shared : List EmbeddedBase} (hkeyed : types.Keyed)
    (hwf : types.WellFormed)
    (hcomp : (holding h names types).compose c typeName table direct shared = .ok comp) :
    (holding h names (comp.register types)).compose c typeName table direct shared = .ok comp := by
  obtain ⟨hname, hnvName⟩ := names_of_compose_on hkeyed hcomp
  have hget := Composition.get?_register hname hnvName types
  have hstart (name : String) (size align : Word) :
      ((holding h names types).startLayout name size align).WellFormed :=
    wellFormed_startLayout (fun l hl => hwf.of_get? hl) size align
  obtain ⟨away, hfull, hrest⟩ := compose_ok_iff.mp hcomp
  refine compose_ok_iff.mpr ⟨away, ?_, ?_⟩
  · exact compose_startLayout_again (hstart ..) hfull ((hget typeName).trans (if_pos rfl))
  · rcases hrest with hplain | ⟨more, nv, hvirtual, hnv, haway, hcomposed⟩
    · exact .inl hplain
    · refine .inr ⟨more, nv, hvirtual, hnv, haway, compose_startLayout_again (hstart ..) hcomposed ?_⟩
      refine (hget (nonVirtualName typeName)).trans ?_
      rw [if_neg (nonVirtualName_ne typeName), if_pos ⟨rfl, by rw [hnv]; rfl⟩, hnv]

/-- Nothing is built for a base that has a layout. -/
theorem Shows.embedBase_again (build : LayoutBuilder) {m : ClassModel} (hm : Shows h names m) {s : BaseSubobject}
    {b : EmbeddedBase} (hb : Embeds h names s b) (hlayout : HasLayout names m.types s.base) :
    ∃ m', (embedBase build s m).value = (.ok b, m') ∧ Shows h names m' ∧ m'.types = m.types := by
  obtain ⟨typeName, table, hname, htable, rfl⟩ := hb
  obtain ⟨l, hl⟩ := Option.isSome_iff_exists.mp (hm.isSome_layout?_iff.mpr hlayout)
  refine ⟨_, ?_, hm.offsetTable s.base, rfl⟩
  have htable' : m.offsetTable s.base = (.ok table, (m.offsetTable s.base).2) :=
    Prod.ext (hm.offsetTable_eq htable) rfl
  rw [value_embedBase, ensureWith, hl]
  simp only [Noted.value_pure, andThen, hm.typeName?_eq, hname]
  rw [htable']

theorem Shows.embedBases_again (build : LayoutBuilder) {l : List BaseSubobject}
    {bases : List EmbeddedBase} {m : ClassModel} (hm : Shows h names m)
    (hl : List.Forall₂ (Embeds h names) l bases) (hlayouts : ∀ s ∈ l, HasLayout names m.types s.base) :
    ∃ m', (embedBases build l m).value = (.ok bases, m') ∧ Shows h names m' ∧ m'.types = m.types := by
  induction hl generalizing m with
  | nil => exact ⟨m, rfl, hm, rfl⟩
  | cons hb _ ih =>
    simp only [List.mem_cons, forall_eq_or_imp] at hlayouts
    obtain ⟨m₁, hfirst, hm₁, htypes₁⟩ := hm.embedBase_again build hb hlayouts.1
    obtain ⟨m₂, hmore, hm₂, htypes₂⟩ := ih hm₁ (htypes₁ ▸ hlayouts.2)
    refine ⟨m₂, ?_, hm₂, htypes₂.trans htypes₁⟩
    rw [value_embedBases_cons, hfirst]
    simp only [andThen, hmore]
    rfl

/-- **Building a class right after it was built** gives the same layouts. -/
theorem Shows.buildWithin_again {m : ClassModel} (hm : Shows h names m) (hkeyed : types.Keyed)
    (hwf : types.WellFormed) (hcomp : ComposesOn h names types id comp)
    (htypes : m.types = comp.register types) (fuel : Nat) :
    (buildWithin (fuel + 1) id m).value.1 = .ok comp.full ∧
      (buildWithin (fuel + 1) id m).value.2.types = m.types := by
  have hkept (s : BaseSubobject) (hl : HasLayout names types s.base) :
      HasLayout names (comp.register types) s.base := hl.register comp
  obtain @⟨c, typeName, table, direct, shared, _, hc, hname, htable, hdirect, hshared, hlayouts,
    hcomposed⟩ := hcomp
  obtain ⟨hlayouts, hlayouts'⟩ := List.forall_mem_append.mp hlayouts
  have htable' : m.offsetTable id = (.ok table, (m.offsetTable id).2) :=
    Prod.ext (hm.offsetTable_eq htable) rfl
  have hm₁ := hm.offsetTable id
  have htypes₁ : (m.offsetTable id).2.types = m.types := rfl
  generalize (m.offsetTable id).2 = m₁ at htable' hm₁ htypes₁
  obtain ⟨m₂, hfirst, hm₂, htypes₂⟩ := hm₁.embedBases_again (buildWithin fuel) hdirect
    fun s hs => htypes₁ ▸ htypes ▸ hkept s (hlayouts s hs)
  obtain ⟨m₃, hsecond, hm₃, htypes₃⟩ := hm₂.embedBases_again (buildWithin fuel) hshared
    fun s hs => htypes₂ ▸ htypes₁ ▸ htypes ▸ hkept s (hlayouts' s hs)
  have hsame : m₃.types = comp.register types := by
    rw [htypes₃, htypes₂, htypes₁, htypes]
  have hagain : m₃.compose c typeName table direct shared = .ok comp := by
    rw [hm₃.compose_eq, hsame]
    exact compose_again hkeyed hwf hcomposed
  rw [value_buildWithin_succ, htable']
  simp only [andThen, hm₁.get?_eq, hm₁.typeName?_eq, hc, hname, hfirst, hsecond, hagain,
    true_and]
  rw [types_registerComposition, hsame, Composition.register_register, htypes]

end

/-- **Building a class that was just built changes nothing**, if every layout that was registered before is
    well formed: the layout is the same, and so are all registered layouts. -/
theorem buildLayout_again (abi : Abi) (pointerSize : Word) (ops : List Operation) (id : ClassId)
    (l : Layout) (m' : ClassModel) (hwf : (reached abi pointerSize ops).types.WellFormed)
    (hbuild : ((reached abi pointerSize ops).buildLayout id).value = (.ok l, m')) :
    (m'.buildLayout id).value.1 = .ok l ∧ (m'.buildLayout id).value.2.types = m'.types := by
  have hm := shows_reached abi pointerSize ops
  generalize reached abi pointerSize ops = m at hwf hbuild hm
  dsimp only at hm
  obtain ⟨hm', hresult⟩ := buildWithin_result (m.size + 1) id m hm
  change Shows _ _ (m.buildLayout id).value.2 at hm'
  change BuildResult _ _ id m.types (m.buildLayout id).value.1 (m.buildLayout id).value.2.types at hresult
  rw [hbuild] at hm' hresult
  dsimp only at hm' hresult
  generalize htypes : m'.types = types at hresult
  cases hresult with
  | ok hgrows hcomp =>
    rw [← htypes]
    exact hm'.buildWithin_again (hgrows.keyed hm.keyed) (hgrows.wellFormed hwf) hcomp htypes m'.size

/-- Both bases are recorded at offset zero, so the second evicts the first, and a layout with a member in the
    place of the second was registered by hand. -/
theorem buildLayout_again_overlapping :
    let m := reached .msvc 4
      [.insert { id := 1, name := "Left", vtable := some (.ofTargets 4096 1 4 [8192]) },
        .insert { id := 2, name := "Right", memberSize := 8 },
        .insert
          { id := 3, name := "Both", bases := [⟨1, false, true, some 0⟩, ⟨2, false, true, some 0⟩] },
        .registerLayout ⟨"Both", [.member "kept" 4 (.int 4 true) 4], 8, 4⟩]
    ∃ l m', (m.buildLayout 3).value = (.ok l, m') ∧ m.types.WellFormed ∧
      (m'.buildLayout 3).value.2.types = m'.types := by
  intro m
  have hwf : m.types.WellFormed := by decide +kernel
  rcases hbuild : (m.buildLayout 3).value with ⟨e | l, m'⟩
  · have hok : (m.buildLayout 3).value.1.isOk = true := by decide +kernel
    rw [hbuild] at hok
    cases hok
  · exact ⟨l, m', rfl, hwf, (buildLayout_again .msvc 4 _ 3 l m' hwf hbuild).2⟩

end ClassModel

end ClassRecovery
