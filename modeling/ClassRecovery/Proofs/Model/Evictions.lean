/-
  Building evicts nothing.

  Where nothing is registered under the names of a class and its bases, each of them is composed from nothing: by
  then only layouts of other classes were registered, and no two classes share a name (`Clear.grows`).  So if no
  base has a recorded offset, no field takes the place of another, neither in the layouts of the class
  nor in those of bases that are built with it (`Clear.undisturbedWithin`), and the layout of the class
  realises its table (`ClassModel.buildLayout_realises`).
-/
import ClassRecovery.Proofs.Model.Success

namespace ClassRecovery

namespace ClassModel

/-! ## Names of their own -/

section
variable {h : Hierarchy} {names : OrderedMap ClassId String} (hnames : Distinct names)
  {types : TypeDatabase} {id : ClassId} {comp : Composition}
include hnames

/-- Registering the layouts of one class leaves what is registered under the names of another one. -/
theorem ComposesOn.get?_register_of_ne (hcomp : ComposesOn h names types id comp)
    (hkeyed : types.Keyed) {d : ClassId} {name : String} (hne : d ≠ id)
    (hname : names.get? d = some name) :
    (comp.register types).get? name = types.get? name ∧
      (comp.register types).get? (nonVirtualName name) = types.get? (nonVirtualName name) := by
  obtain @⟨_, typeName, _, _, _, _, -, hname', -, -, -, -, hcomposed⟩ := hcomp
  obtain ⟨hfull, hnv⟩ := names_of_compose_on hkeyed hcomposed
  have hother : name ≠ typeName := fun heq => hne (hnames.injective _ _ _ hname (heq ▸ hname'))
  have hunmarked : name ≠ nonVirtualName typeName := fun heq =>
    hnames.unmarked _ _ _ hname' (heq ▸ hname)
  have hunmarked' : nonVirtualName name ≠ typeName := fun heq =>
    hnames.unmarked _ _ _ hname (heq ▸ hname')
  rw [Composition.get?_register hfull hnv, Composition.get?_register hfull hnv, if_neg hother,
    if_neg fun heq => hunmarked heq.1, if_neg hunmarked',
    if_neg fun heq => hother (nonVirtualName_injective heq.1)]
  exact ⟨rfl, rfl⟩

/-- Building bases of a class leaves what is registered under the names of the class. -/
theorem Grows.get?_of_not_inherits {root : ClassId} {start : TypeDatabase}
    (hgrows : Grows h names root start types) (hkeyed : start.Keyed) (hnot : ¬ h.Inherits root id)
    {name : String} (hname : names.get? id = some name) :
    types.get? name = start.get? name ∧
      types.get? (nonVirtualName name) = start.get? (nonVirtualName name) := by
  induction hgrows with
  | refl => exact ⟨rfl, rfl⟩
  | step hgrows he _ hcomp ih =>
    have hne : id ≠ _ := fun heq => hnot (heq ▸ he)
    obtain ⟨hfull, hpart⟩ := hcomp.get?_register_of_ne hnames (hgrows.keyed hkeyed) hne hname
    exact ⟨hfull.trans ih.1, hpart.trans ih.2⟩

/-- Of the classes that `root` reaches, those without a layout have none of their non-virtual parts. -/
def Clear (h : Hierarchy) (names : OrderedMap ClassId String) (root : ClassId) (types : TypeDatabase) :
    Prop :=
  ∀ d name, h.Reaches root d → names.get? d = some name → types.get? name = none →
    types.get? (nonVirtualName name) = none

/-- **Building keeps it that way**, one class after the other. -/
theorem Clear.grows {root a : ClassId} {start : TypeDatabase} (hclear : Clear h names root start)
    (hkeyed : start.Keyed) (hgrows : Grows h names a start types) : Clear h names root types := by
  induction hgrows with
  | refl => exact hclear
  | @step types e comp hgrows _ _ hcomp ih =>
    intro d name hd hname hnone
    have hkeyed := hgrows.keyed hkeyed
    by_cases hde : d = e
    · subst hde
      obtain ⟨name', hname', hcontains⟩ := hcomp.hasLayout hkeyed
      obtain rfl := Option.some.inj (hname.symm.trans hname')
      rw [TypeDatabase.contains, OrderedMap.contains] at hcontains
      change ((comp.register types).get? name).isSome = true at hcontains
      rw [hnone] at hcontains
      cases hcontains
    · obtain ⟨hfull, hpart⟩ := hcomp.get?_register_of_ne hnames hkeyed hde hname
      rw [hpart]
      exact ih d name hd hname (hfull ▸ hnone)

end

/-! ## Nothing is evicted -/

/-- Composing the layouts of a class on top of what is registered evicts nothing. -/
def ComposesUndisturbed (m : ClassModel) (c : ClassType) (typeName : String) (t : BaseOffsetTable)
    (direct shared : List EmbeddedBase) : Prop :=
  c.Undisturbed m.abi m.pointerSize t (direct ++ shared) (m.startLayout typeName t.size t.align) ∧
    (t.hasVirtualBases = true → c.Undisturbed m.abi m.pointerSize t direct
      (m.startLayout (nonVirtualName typeName) t.nvSize t.nvAlign))

/-- `P` holds of every base that has no layout when it is its turn to be embedded, and of the model by
    then. -/
def EachBuilt (P : ClassId → ClassModel → Prop) (build : LayoutBuilder) :
    List BaseSubobject → ClassModel → Prop
  | [], _ => True
  | s :: rest, m => (m.layout? s.base = none → P s.base m) ∧
      EachBuilt P build rest (embedBase build s m).value.2

/-- Building the class evicts nothing: not while bases without a layout are built, and not when the layouts of
    the class are composed. -/
def UndisturbedWithin : Nat → ClassId → ClassModel → Prop
  -- without fuel nothing is built
  | 0, _, _ => True
  | fuel + 1, id, m => ∀ t c typeName,
      (m.offsetTable id).1 = .ok t → m.get? id = some c → m.typeName? id = some typeName →
      let start := (m.offsetTable id).2
      let direct := (embedBases (buildWithin fuel) (t.direct.filter (!·.isVirtual)) start).value
      let shared := (embedBases (buildWithin fuel) t.virtualBases direct.2).value
      EachBuilt (UndisturbedWithin fuel) (buildWithin fuel) (t.direct.filter (!·.isVirtual)) start ∧
        EachBuilt (UndisturbedWithin fuel) (buildWithin fuel) t.virtualBases direct.2 ∧
        ∀ own virtual, direct.1 = .ok own → shared.1 = .ok virtual →
          shared.2.ComposesUndisturbed c typeName t own virtual

section
variable {h : Hierarchy} {names : OrderedMap ClassId String}

/-- Composed from nothing, the layouts of the class evict nothing. -/
theorem composesUndisturbed {id : ClassId} {t : BaseOffsetTable} {c : ClassType}
    {direct shared : List EmbeddedBase} (hr : Resolves h id t) (hc : h.classes.get? id = some c)
    (hdirect : List.Forall₂ (Embeds h names) (t.direct.filter (!·.isVirtual)) direct)
    (hshared : List.Forall₂ (Embeds h names) t.virtualBases shared) (hptr : 0 < h.pointerSize)
    (hu : h.Unrecorded id) {m : ClassModel} (hm : Shows h names m) {typeName : String}
    (hfull : m.types.get? typeName = none) (hpart : m.types.get? (nonVirtualName typeName) = none) :
    m.ComposesUndisturbed c typeName t direct shared := by
  have undisturbed {bases : List EmbeddedBase} (hsub : bases.Sublist (direct ++ shared))
      (hincl : ∀ b ∈ direct, b ∈ bases) {name : String} (hnone : m.types.get? name = none)
      (size align : Word) :
      c.Undisturbed m.abi m.pointerSize t bases (m.startLayout name size align) := by
    have hstart : (m.startLayout name size align).fields = [] := by
      rw [startLayout, hnone]
      rfl
    rw [hm.abi_eq, hm.pointerSize_eq]
    exact (fieldsApart hr hc hdirect hshared hptr hsub hu hincl).undisturbed hstart
  exact ⟨undisturbed (.refl _) (fun b hb => List.mem_append_left _ hb) hfull ..,
    fun _ => undisturbed (List.sublist_append_left _ _) (fun _ hb => hb) hpart ..⟩

variable (hnames : Distinct names)
include hnames

theorem Clear.eachBuilt {build : LayoutBuilder} (hbuild : Builds h names build) {root a : ClassId}
    {P : ClassId → ClassModel → Prop} :
    ∀ (l : List BaseSubobject) {m : ClassModel}, Shows h names m → Clear h names root m.types →
      (∀ s ∈ l, h.Inherits a s.base ∧ ∀ m', Shows h names m' → Clear h names root m'.types →
        ¬ HasLayout names m'.types s.base → P s.base m') →
      EachBuilt P build l m
  | [], _, _, _, _ => trivial
  | s :: rest, m, hm, hclear, hl => by
    simp only [List.mem_cons, forall_eq_or_imp] at hl
    obtain ⟨hm', hgrows, -⟩ := embedBase_advances hbuild hm hl.1.1
    refine ⟨fun hnone => hl.1.2 m hm hclear ?_,
      Clear.eachBuilt hbuild rest hm' (hclear.grows hnames hm.keyed hgrows) hl.2⟩
    rw [← hm.isSome_layout?_iff, hnone]
    exact Bool.false_ne_true

/-- **Building a class without a layout evicts nothing**, where no base has a recorded offset. -/
theorem Clear.undisturbedWithin (hptr : 0 < h.pointerSize) {root : ClassId} (hu : h.Unrecorded root)
    {fuel : Nat} {id : ClassId} {m : ClassModel} (hm : Shows h names m)
    (hclear : Clear h names root m.types) (hid : h.Reaches root id)
    (hnone : ¬ HasLayout names m.types id) : UndisturbedWithin fuel id m := by
  induction fuel generalizing id m with
  | zero => trivial
  | succ fuel ih =>
    intro t c typeName ht hc hname start direct shared
    have hr := hm.resolves ht
    rw [hm.get?_eq] at hc
    rw [hm.typeName?_eq] at hname
    have hbuilds : Builds h names (buildWithin fuel) := buildWithin_result fuel
    have hinherits : ∀ s ∈ t.outermost, h.Inherits id s.base := fun s hs =>
      hr.inherits_of_mem s (BaseOffsetTable.mem_entries_of_outermost hs)
    obtain ⟨hdirect, hshared⟩ := List.forall_mem_append.mp hinherits
    have hstart : Shows h names start := hm.offsetTable id
    have hclear₁ : Clear h names root start.types := hclear
    have built {s : BaseSubobject} (hs : h.Inherits id s.base) :
        h.Inherits id s.base ∧ ∀ m', Shows h names m' → Clear h names root m'.types →
          ¬ HasLayout names m'.types s.base → UndisturbedWithin fuel s.base m' :=
      ⟨hs, fun m' hm' hclear' hnone' =>
        ih hm' hclear' (hid.trans hs.to_reflTransGen) hnone'⟩
    obtain ⟨hm₂, hgrows₂, hdirect'⟩ := embedBases_advances hbuilds _ hstart hdirect
    have hclear₂ := hclear₁.grows hnames hstart.keyed hgrows₂
    obtain ⟨hm₃, hgrows₃, hshared'⟩ := embedBases_advances hbuilds _ hm₂ hshared
    refine ⟨hclear₁.eachBuilt hnames hbuilds _ hstart fun s hs => built (hdirect s hs),
      hclear₂.eachBuilt hnames hbuilds _ hm₂ fun s hs => built (hshared s hs),
      fun own virtual hown hvirtual => ?_⟩
    -- only bases were built since, so nothing is registered under the names of the class yet
    obtain ⟨hfull, hpart⟩ := (hgrows₂.trans .refl hgrows₃).get?_of_not_inherits hnames hstart.keyed
      hr.not_inherits_self hname
    have hunnamed : m.types.get? typeName = none := by
      by_contra hsome
      exact hnone ⟨typeName, hname, Option.isSome_iff_ne_none.mpr hsome⟩
    have hunnamed' := hclear id typeName hid hname hunnamed
    exact composesUndisturbed hr hc (hdirect' own hown).1 (hshared' virtual hvirtual).1 hptr
      (hu.base hid) hm₃ (hfull.trans hunnamed) (hpart.trans hunnamed')

end

/-! ## Layouts realise tables -/

/-- Where nothing is registered under its names, a class is composed from nothing. -/
theorem ComposesOn.composes {h : Hierarchy} {names : OrderedMap ClassId String} {types : TypeDatabase}
    {id : ClassId} {comp : Composition} {typeName : String} (hcomp : ComposesOn h names types id comp)
    (hname : names.get? id = some typeName) (hfull : types.get? typeName = none)
    (hpart : types.get? (nonVirtualName typeName) = none) : Composes h names id typeName comp := by
  obtain ⟨hc, hname', htable, hdirect, hshared, -, hcomposed⟩ := hcomp
  obtain rfl := Option.some.inj (hname.symm.trans hname')
  rw [compose_of_none hfull hpart] at hcomposed
  exact .mk hc hname htable hdirect hshared hcomposed

/-- **A built layout realises the offset table**, and nothing is evicted when it is built: where no base
    has a recorded offset, no type name is another one with the mark of non-virtual parts, and nothing is
    registered under the names of the class and its bases. -/
theorem buildLayout_realises (abi : Abi) (pointerSize : Word) (hptr : 0 < pointerSize)
    (ops : List Operation) (id : ClassId) (t : BaseOffsetTable) :
    let m := reached abi pointerSize ops
    (m.offsetTable id).1 = .ok t → m.hierarchy.Unrecorded id →
    (∀ a b name, m.typeName? a = some name → m.typeName? b ≠ some (nonVirtualName name)) →
    (∀ d name, m.hierarchy.Reaches id d → m.typeName? d = some name →
      m.types.get? name = none ∧ m.types.get? (nonVirtualName name) = none) →
    ∃ c l, (m.buildLayout id).value.1 = .ok l ∧ m.Realises id c t l ∧
      UndisturbedWithin (m.size + 1) id m := by
  intro m ht hu hunmarked hfree
  have hm : Shows m.hierarchy m.typeNames m := shows_reached abi pointerSize ops
  have hnames : Distinct m.typeNames :=
    ⟨fun _ _ _ => (named_reached abi pointerSize ops).injective, hunmarked⟩
  have hpointer : 0 < m.hierarchy.pointerSize := by
    change 0 < m.pointerSize
    rwa [(parameters_reached abi pointerSize ops).2]
  have hr := hm.resolves ht
  obtain ⟨c, hc⟩ := hr.exists_class
  have htitled : m.Titled := titled_reached abi pointerSize ops
  obtain ⟨typeName, hname⟩ := Option.isSome_iff_exists.mp (htitled id c hc)
  obtain ⟨hfull, hpart⟩ := hfree id typeName .refl hname
  have hclear : Clear m.hierarchy m.typeNames id m.types := fun d name hd hname _ =>
    (hfree d name hd hname).2
  have hnone : ¬ HasLayout m.typeNames m.types id := by
    rintro ⟨name, hname', hcontains⟩
    obtain rfl := Option.some.inj (hname.symm.trans hname')
    exact absurd hfull (Option.isSome_iff_ne_none.mp hcontains)
  obtain ⟨l, hl⟩ : ∃ l, (m.buildLayout id).value.1 = .ok l :=
    buildWithin_ok hpointer htitled hm hr (underway_nil m.hierarchy id)
  have hresult := (buildWithin_result (m.size + 1) id m hm).result
  change BuildResult _ _ id m.types (m.buildLayout id).value.1 (m.buildLayout id).value.2.types at hresult
  rw [hl] at hresult
  generalize (m.buildLayout id).value.2.types = types at hresult
  cases hresult with
  | @ok types comp hgrows hcomp =>
    obtain ⟨hfull', hpart'⟩ :=
      hgrows.get?_of_not_inherits hnames hm.keyed hr.not_inherits_self hname
    have hcomposes := hcomp.composes hname (hfull'.trans hfull) (hpart'.trans hpart)
    exact ⟨c, comp.full, hl, hcomposes.realises hm hr hc hu hpointer,
      hclear.undisturbedWithin hnames hpointer hu hm .refl hnone⟩

/-- A diamond with hidden pointers of both kinds and data members. -/
theorem buildLayout_realises_diamond :
    let ops : List Operation :=
      [.insert { id := 1, name := "Top", vtable := some (.ofTargets 4096 1 4 [8192]), memberSize := 4 },
        .insert
          { id := 2, name := "Left", bases := [⟨1, true, true, none⟩], memberSize := 8, memberAlign := 8 },
        .insert { id := 3, name := "Right", bases := [⟨1, true, true, none⟩] },
        .insert
          { id := 4, name := "Bottom", bases := [⟨2, false, true, none⟩, ⟨3, false, true, none⟩],
            memberSize := 1 }]
    let m := reached .msvc 4 ops
    ∃ t c l, (m.offsetTable 4).1 = .ok t ∧ (m.buildLayout 4).value.1 = .ok l ∧ m.Realises 4 c t l ∧
      UndisturbedWithin (m.size + 1) 4 m := by
  intro ops m
  obtain ⟨t, ht⟩ : ∃ t, (m.offsetTable 4).1 = .ok t := by
    cases ht : (m.offsetTable 4).1 with
    | ok t => exact ⟨t, rfl⟩
    | error e =>
      have hok : (m.offsetTable 4).1.isOk = true := by decide +kernel
      rw [ht] at hok
      cases hok
  have hu : m.hierarchy.Unrecorded 4 := Hierarchy.unrecorded_of_forall (by decide +kernel)
  have hnone : m.types = {} := rfl
  have hrealises := buildLayout_realises .msvc 4 (by decide) ops 4 t ht hu
    (unmarked_of_forall (by decide +kernel)) fun d name _ _ => by
      change m.types.get? _ = _ ∧ m.types.get? _ = _
      rw [hnone]
      exact ⟨rfl, rfl⟩
  obtain ⟨c, l, hl⟩ := hrealises
  exact ⟨t, c, l, ht, hl⟩

end ClassModel

end ClassRecovery
