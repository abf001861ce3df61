/-
  Building succeeds.

  Every class of a model has a type name (`ClassModel.Titled`), and composing a layout does not fail where pointers
  have a size.  So building a class with an offset table gives a layout, whatever is registered and under whatever
  names (`buildWithin_succeeds`): its bases have tables, too, and the fuel lasts since none of them is the class
  itself.  Afterwards layouts are registered for the class and for all bases that it embeds.
-/
import ClassRecovery.Proofs.Model.Realisation
import ClassRecovery.Proofs.Model.Sharing

namespace ClassRecovery

namespace ClassModel

/-! ## Names of classes -/

/-- Every class has a type name. -/
def Titled (m : ClassModel) : Prop := ∀ id c, m.get? id = some c → (m.typeName? id).isSome = true

/-- **In every model, the classes and nothing else have type names.** -/
theorem isSome_typeName?_reached (abi : Abi) (pointerSize : Word) (ops : List Operation) (id : ClassId) :
    ((reached abi pointerSize ops).typeName? id).isSome = ((reached abi pointerSize ops).get? id).isSome := by
  refine reached_induction (P := fun m => (m.typeName? id).isSome = (m.get? id).isSome) rfl
    (fun m c hm => ?_) (fun m m' hhierarchy htypeNames _ hm => ?_) ops
  · rw [typeName?_insert, get?_insert]
    split
    · rfl
    · exact hm
  · have hclasses : m'.classes = m.classes := congrArg Hierarchy.classes hhierarchy
    rw [typeName?, htypeNames, get?, hclasses]
    exact hm

theorem titled_reached (abi : Abi) (pointerSize : Word) (ops : List Operation) :
    (reached abi pointerSize ops).Titled := by
  intro id c hc
  rw [isSome_typeName?_reached, hc]
  rfl

section
variable {h : Hierarchy} {names : OrderedMap ClassId String}

/-! ## Composing -/

/-- The layouts of a class can be composed, whatever is registered. -/
theorem exists_compose {id : ClassId} {t : BaseOffsetTable} {c : ClassType}
    {direct shared : List EmbeddedBase} (hr : Resolves h id t) (hc : h.classes.get? id = some c)
    (hdirect : List.Forall₂ (Embeds h names) (t.direct.filter (!·.isVirtual)) direct)
    (hshared : List.Forall₂ (Embeds h names) t.virtualBases shared) (hptr : 0 < h.pointerSize)
    {m : ClassModel} (hm : Over h names m) (typeName : String) :
    ∃ comp, m.compose c typeName t direct shared = .ok comp := by
  have compose {bases : List EmbeddedBase} (hsub : bases.Sublist (direct ++ shared)) (size : Word)
      (start : Layout) : ∃ r, c.compose m.abi m.pointerSize t bases size start = .ok r := by
    rw [hm.abi_eq, hm.pointerSize_eq]
    exact ⟨_, ClassType.compose_ok_iff.mpr
      ⟨composable hr hc hdirect hshared hptr hsub start, rfl⟩⟩
  obtain ⟨⟨away, l⟩, hfull⟩ :=
    compose (.refl _) t.size (m.startLayout typeName t.size t.align)
  obtain ⟨⟨more, nv⟩, hpart⟩ := compose (List.sublist_append_left _ _) t.nvSize
    (m.startLayout (nonVirtualName typeName) t.nvSize t.nvAlign)
  cases hvirtual : t.hasVirtualBases with
  | false => exact ⟨⟨away, none, l⟩, compose_ok_iff.mpr ⟨away, hfull, .inl ⟨hvirtual, rfl, rfl⟩⟩⟩
  | true =>
    exact ⟨⟨more ++ away, some nv, l⟩,
      compose_ok_iff.mpr ⟨away, hfull, .inr ⟨more, nv, hvirtual, rfl, rfl, hpart⟩⟩⟩

theorem contains_or_startLayout_name (m : ClassModel) (name : String) (size align : Word) :
    m.types.contains name = true ∨ name = (m.startLayout name size align).name := by
  unfold startLayout
  cases hl : m.types.get? name with
  | none => exact .inr rfl
  | some l => exact .inl (Option.isSome_iff_exists.mpr ⟨l, hl⟩)

/-- Once they are registered, there are layouts under the names of the class. -/
theorem contains_of_compose {m : ClassModel} {c : ClassType} {typeName : String} {t : BaseOffsetTable}
    {direct shared : List EmbeddedBase} {comp : Composition}
    (hcomp : m.compose c typeName t direct shared = .ok comp) :
    (comp.register m.types).contains typeName = true ∧
      (t.hasVirtualBases = true → (comp.register m.types).contains (nonVirtualName typeName) = true) := by
  obtain ⟨away, hfull, hrest⟩ := compose_ok_iff.mp hcomp
  refine ⟨Composition.contains_register ?_, fun hvirtual => ?_⟩
  · rw [(ClassType.compose_keeps hfull).1]
    exact contains_or_startLayout_name ..
  · rcases hrest with ⟨hnone, -⟩ | ⟨more, nv, -, hnv, -, hpart⟩
    · rw [hvirtual] at hnone
      cases hnone
    · refine TypeDatabase.contains_register (.inl ?_)
      rw [hnv]
      refine TypeDatabase.contains_register ?_
      rw [(ClassType.compose_keeps hpart).1]
      exact contains_or_startLayout_name ..

/-! ## Steps that succeed -/

/-- No name is lost under which a layout is registered. -/
def Retains (types types' : TypeDatabase) : Prop :=
  ∀ name, types.contains name = true → types'.contains name = true

theorem Retains.refl (types : TypeDatabase) : Retains types types := fun _ hname => hname

theorem Retains.trans {types₁ types₂ types₃ : TypeDatabase} (h₁ : Retains types₁ types₂)
    (h₂ : Retains types₂ types₃) : Retains types₁ types₃ := fun name hname => h₂ name (h₁ name hname)

theorem HasLayout.retained {types types' : TypeDatabase} {id : ClassId} (hl : HasLayout names types id)
    (hretains : Retains types types') : HasLayout names types' id := by
  obtain ⟨typeName, hname, hcontains⟩ := hl
  exact ⟨typeName, hname, hretains typeName hcontains⟩

end

section
variable (h : Hierarchy) (names : OrderedMap ClassId String)

/-- A step from the model gives something that is `Good`, keeps the classes and loses no names of
    layouts. -/
def Succeeds {α : Type} (m : ClassModel) (Good : α → TypeDatabase → Prop)
    (r : Except ModelError α × ClassModel) : Prop :=
  ∃ a m', r = (.ok a, m') ∧ Over h names m' ∧ Retains m.types m'.types ∧ Good a m'.types

/-- The base has a type name and a table, and building it succeeds, whatever is registered. -/
structure Buildable (build : LayoutBuilder) (id : ClassId) : Prop where
  named : (names.get? id).isSome = true
  resolved : ∃ t, Resolves h id t
  builds : ∀ m, Over h names m →
    Succeeds h names m (fun _ types => HasLayout names types id) (build id m).value

/-- The class `id` with the table `t` has its layouts, and so have the bases that are embedded in them. -/
structure Supplied (id : ClassId) (t : BaseOffsetTable) (types : TypeDatabase) : Prop where
  full : HasLayout names types id
  nonVirtual : t.hasVirtualBases = true → ∀ typeName, names.get? id = some typeName →
    types.contains (nonVirtualName typeName) = true
  bases : ∀ s ∈ t.outermost, HasLayout names types s.base

end

section
variable {h : Hierarchy} {names : OrderedMap ClassId String} {m : ClassModel}

theorem Succeeds.andThen {α β : Type} {Good : α → TypeDatabase → Prop}
    {Good' : β → TypeDatabase → Prop} {x : Except ModelError α × ClassModel}
    {f : α → ClassModel → Except ModelError β × ClassModel}
    (hx : Succeeds h names m Good x)
    (hf : ∀ a m', Over h names m' → Good a m'.types → Succeeds h names m' Good' (f a m')) :
    Succeeds h names m Good' (ClassModel.andThen x f) := by
  obtain ⟨a, m', rfl, hm', hretains, hgood⟩ := hx
  obtain ⟨b, m'', heq, hm'', hretains', hgood'⟩ := hf a m' hm' hgood
  exact ⟨b, m'', heq, hm'', hretains.trans hretains', hgood'⟩

theorem Over.offsetTable_succeeds (hm : Over h names m) {id : ClassId} {t : BaseOffsetTable}
    (hr : Resolves h id t) :
    Succeeds h names m (fun table types => table = t ∧ types = m.types) (m.offsetTable id) :=
  ⟨t, (m.offsetTable id).2, Prod.ext (hm.offsetTable_eq hr) rfl, hm.of_keeps (keeps_offsetTable m id),
    .refl _, rfl, rfl⟩

variable {build : LayoutBuilder}

theorem ensureWith_succeeds (hm : Over h names m) {id : ClassId} (hid : Buildable h names build id) :
    Succeeds h names m (fun _ types => HasLayout names types id) (ensureWith build id m).value := by
  unfold ensureWith
  split
  · next l hl =>
    obtain ⟨typeName, hname, hget⟩ := Option.bind_eq_some_iff.mp hl
    rw [hm.typeName?_eq] at hname
    exact ⟨l, m, rfl, hm, .refl _, typeName, hname, Option.isSome_iff_exists.mpr ⟨l, hget⟩⟩
  · exact hid.builds m hm

theorem embedBase_succeeds (hm : Over h names m) {s : BaseSubobject}
    (hs : Buildable h names build s.base) :
    Succeeds h names m (fun b types => Embeds h names s b ∧ HasLayout names types s.base)
      (embedBase build s m).value := by
  obtain ⟨t, ht⟩ := hs.resolved
  obtain ⟨typeName, hname⟩ := Option.isSome_iff_exists.mp hs.named
  rw [value_embedBase]
  refine (ensureWith_succeeds hm hs).andThen fun _ m₁ hm₁ hlayout => ?_
  rw [hm₁.typeName?_eq, hname]
  refine (hm₁.offsetTable_succeeds ht).andThen ?_
  rintro table m₂ hm₂ ⟨rfl, htypes⟩
  exact ⟨_, m₂, rfl, hm₂, .refl _, ⟨typeName, table, hname, ht, rfl⟩, htypes ▸ hlayout⟩

theorem embedBases_succeeds : ∀ (l : List BaseSubobject) {m : ClassModel}, Over h names m →
    (∀ s ∈ l, Buildable h names build s.base) →
    Succeeds h names m
      (fun bases types => List.Forall₂ (Embeds h names) l bases ∧ ∀ s ∈ l, HasLayout names types s.base)
      (embedBases build l m).value
  | [], m, hm, _ => ⟨[], m, rfl, hm, .refl _, .nil, by simp⟩
  | s :: rest, m, hm, hl => by
    simp only [List.mem_cons, forall_eq_or_imp] at hl
    rw [value_embedBases_cons]
    refine (embedBase_succeeds hm hl.1).andThen ?_
    rintro b m₁ hm₁ ⟨hb, hlayout⟩
    obtain ⟨more, m₂, hrest, hm₂, hretains, hmore, hlayouts⟩ := embedBases_succeeds rest hm₁ hl.2
    rw [hrest]
    refine ⟨b :: more, m₂, rfl, hm₂, hretains, .cons hb hmore, ?_⟩
    simp only [List.mem_cons, forall_eq_or_imp]
    exact ⟨hlayout.retained hretains, hlayouts⟩

/-! ## Building -/

/-- The model in which the layouts of the class `id` with the table `t` are composed: by then the bases that
    they embed have layouts. -/
def basesBuilt (fuel : Nat) (id : ClassId) (t : BaseOffsetTable) (m : ClassModel) : ClassModel :=
  let direct := (embedBases (buildWithin fuel) (t.direct.filter (!·.isVirtual)) (m.offsetTable id).2).value
  (embedBases (buildWithin fuel) t.virtualBases direct.2).value.2

/-- **One step of building**: where the bases of a class can be built, its layouts can be composed after
    that. -/
theorem buildWithin_succ_eq (hptr : 0 < h.pointerSize) {fuel : Nat} {id : ClassId} {t : BaseOffsetTable}
    {c : ClassType} {typeName : String} (hm : Over h names m) (hr : Resolves h id t)
    (hc : h.classes.get? id = some c) (hname : names.get? id = some typeName)
    (hbases : ∀ s ∈ t.outermost, Buildable h names (buildWithin fuel) s.base) :
    let m' := basesBuilt fuel id t m
    Over h names m' ∧ Retains m.types m'.types ∧ (∀ s ∈ t.outermost, HasLayout names m'.types s.base) ∧
      ∃ direct shared comp,
        List.Forall₂ (Embeds h names) (t.direct.filter (!·.isVirtual)) direct ∧
        List.Forall₂ (Embeds h names) t.virtualBases shared ∧
        m'.compose c typeName t direct shared = .ok comp ∧
        (buildWithin (fuel + 1) id m).value = (.ok comp.full, (m'.registerComposition id comp).value) := by
  intro m'
  obtain ⟨hdirect, hshared⟩ := List.forall_mem_append.mp hbases
  have hm₁ : Over h names (m.offsetTable id).2 := hm.of_keeps (keeps_offsetTable m id)
  obtain ⟨direct, m₂, heq₂, hm₂, hretains₂, hdirect', hlayouts⟩ := embedBases_succeeds _ hm₁ hdirect
  obtain ⟨shared, m₃, heq₃, hm₃, hretains₃, hshared', hlayouts'⟩ := embedBases_succeeds _ hm₂ hshared
  have hbuilt : m' = m₃ := by simp only [m', basesBuilt, heq₂, heq₃]
  obtain ⟨comp, hcomp⟩ := exists_compose hr hc hdirect' hshared' hptr hm₃ typeName
  have htable : m.offsetTable id = (.ok t, (m.offsetTable id).2) := Prod.ext (hm.offsetTable_eq hr) rfl
  refine ⟨hbuilt ▸ hm₃, hbuilt ▸ hretains₂.trans hretains₃, hbuilt ▸ List.forall_mem_append.mpr
    ⟨fun s hs => (hlayouts s hs).retained hretains₃, hlayouts'⟩, direct, shared, comp, hdirect', hshared',
    hbuilt ▸ hcomp, ?_⟩
  rw [value_buildWithin_succ, htable, hbuilt]
  simp only [ClassModel.andThen]
  rw [hm₁.get?_eq, hm₁.typeName?_eq, hc, hname]
  simp only [heq₂, heq₃, hcomp]

/-- The bases that a class embeds can be built if all classes can be that it inherits from. -/
theorem buildable_of_inherits (hnamed : ∀ id c, h.classes.get? id = some c → (names.get? id).isSome = true)
    {fuel : Nat} {id : ClassId} {t : BaseOffsetTable} (hr : Resolves h id t)
    (hbuilds : ∀ {d td m}, h.Inherits id d → Resolves h d td → Over h names m →
      Succeeds h names m (fun _ types => Supplied names d td types) (buildWithin fuel d m).value) :
    ∀ s ∈ t.outermost, Buildable h names (buildWithin fuel) s.base := by
  intro s hs
  have hinherits := hr.inherits_of_mem s (BaseOffsetTable.mem_entries_of_outermost hs)
  obtain ⟨ts, hts⟩ := hr.of_reaches hinherits.to_reflTransGen
  obtain ⟨cs, hcs⟩ := hts.exists_class
  refine ⟨hnamed _ cs hcs, ⟨ts, hts⟩, fun m' hm' => ?_⟩
  obtain ⟨l, m'', heq, hm'', hretains, hsupplied⟩ := hbuilds hinherits hts hm'
  exact ⟨l, m'', heq, hm'', hretains, hsupplied.full⟩

/-- **Building a class with an offset table succeeds**, whatever is registered, while classes that inherit from it
    are being built. -/
theorem buildWithin_succeeds (hptr : 0 < h.pointerSize)
    (hnamed : ∀ id c, h.classes.get? id = some c → (names.get? id).isSome = true) {fuel : Nat}
    {pending : List ClassId} {id : ClassId} {m : ClassModel} {t : BaseOffsetTable}
    (hm : Over h names m) (hr : Resolves h id t) (hunderway : Underway h pending id fuel) :
    Succeeds h names m (fun _ types => Supplied names id t types) (buildWithin fuel id m).value := by
  induction fuel generalizing pending id m t with
  | zero => exact absurd rfl hunderway.ne_zero
  | succ fuel ih =>
    obtain ⟨c, hc⟩ := hr.exists_class
    obtain ⟨typeName, hname⟩ := Option.isSome_iff_exists.mp (hnamed id c hc)
    have hbases := buildable_of_inherits hnamed hr fun hinherits hrd hm' =>
      ih hm' hrd (hunderway.base hr hinherits)
    obtain ⟨hm', hretains, hlayouts, direct, shared, comp, -, -, hcomp, heq⟩ :=
      buildWithin_succ_eq hptr hm hr hc hname hbases
    have hregistered : Retains (basesBuilt fuel id t m).types (comp.register (basesBuilt fuel id t m).types) :=
      fun name hname => Composition.contains_register (.inl hname)
    refine ⟨comp.full, _, heq, hm'.of_keeps (keeps_registerComposition _ id comp), ?_, ?_⟩
    all_goals rw [types_registerComposition]
    · exact hretains.trans hregistered
    · obtain ⟨hfull, hpart⟩ := contains_of_compose hcomp
      refine ⟨⟨typeName, hname, hfull⟩, fun hvirtual name hname' => ?_,
        fun s hs => (hlayouts s hs).retained hregistered⟩
      obtain rfl := Option.some.inj (hname.symm.trans hname')
      exact hpart hvirtual

theorem buildWithin_ok (hptr : 0 < h.pointerSize)
    (hnamed : ∀ id c, h.classes.get? id = some c → (names.get? id).isSome = true) {fuel : Nat}
    {pending : List ClassId} {id : ClassId} {t : BaseOffsetTable} (hm : Shows h names m)
    (hr : Resolves h id t) (hunderway : Underway h pending id fuel) :
    ∃ l, (buildWithin fuel id m).value.1 = .ok l := by
  obtain ⟨l, m', heq, -⟩ := buildWithin_succeeds hptr hnamed hm.toOver hr hunderway
  exact ⟨l, congrArg Prod.fst heq⟩

end

end ClassModel

end ClassRecovery
