/-
  Building on top of genuine layouts.

  What is registered is genuine below a class if the names of all classes that the class leads to hold nothing but
  layouts of those very classes.  Building keeps it that way, one composition after the other (`Genuine.grows`).
  In such a model nothing can be told from what is registered: building the class gives the layout, or
  fails with the error, that it does in a model where any layouts of the same classes are registered, or
  none (`Genuine.buildLayout_eq`).
-/
import ClassRecovery.Proofs.Model.Evictions

namespace ClassRecovery

namespace ClassModel

/-- Below `root`, only layouts of the classes themselves are registered under their names. -/
def Genuine (h : Hierarchy) (names : OrderedMap ClassId String) (root : ClassId) (types : TypeDatabase) : Prop :=
  ∀ d, h.Reaches root d → GenuineAt h names types d

section
variable {h : Hierarchy} {names : OrderedMap ClassId String} {types : TypeDatabase}

/-- What is registered under other names does not matter. -/
theorem GenuineAt.of_get?_eq {types' : TypeDatabase} {id : ClassId} (hgen : GenuineAt h names types id)
    (heq : ∀ name, names.get? id = some name →
      types'.get? name = types.get? name ∧
        types'.get? (nonVirtualName name) = types.get? (nonVirtualName name)) :
    GenuineAt h names types' id := by
  intro name l hname
  obtain ⟨hfull, hpart⟩ := heq name hname
  rw [hfull, hpart]
  exact hgen name l hname

theorem Genuine.base {root b : ClassId} (hgen : Genuine h names root types) (hb : h.Reaches root b) :
    Genuine h names b types :=
  fun d hd => hgen d (hb.trans hd)

/-! ## Composing -/

section
variable {id : ClassId} {comp : Composition} (hgen : Genuine h names id types)
  (hcomp : ComposesOn h names types id comp)
include hgen hcomp

/-- What is composed on top of genuine layouts is composed on top of nothing. -/
theorem ComposesOn.composes_of_genuine :
    LaysOut h names id ∧ ∃ typeName, Composes h names id typeName comp := by
  obtain @⟨c, typeName, table, direct, shared, _, hc, hname, htable, hdirect, hshared, hlayouts,
    hcomposed⟩ := hcomp
  rw [(hgen id .refl).compose_eq rfl rfl hc hname htable hdirect hshared] at hcomposed
  have hcomposes : Composes h names id typeName comp := .mk hc hname htable hdirect hshared hcomposed
  have hbases (s : BaseSubobject) (hs : s ∈ table.outermost) : LaysOut h names s.base := by
    obtain ⟨name, hname, hcontains⟩ := hlayouts s hs
    obtain ⟨l, hl⟩ := Option.isSome_iff_exists.mp hcontains
    have hinherits := htable.inherits_of_mem s (BaseOffsetTable.mem_entries_of_outermost hs)
    exact ((hgen s.base hinherits.to_reflTransGen name l hname).1 hl).1
  obtain ⟨hdirect', hshared'⟩ := List.forall_mem_append.mp hbases
  exact ⟨.mk htable hdirect' hshared' hcomposes, typeName, hcomposes⟩

/-- Under the names of the class are its layouts, once they are registered. -/
theorem ComposesOn.genuineAt_register (hkeyed : types.Keyed) :
    GenuineAt h names (comp.register types) id := by
  obtain ⟨hlays, typeName, hcomposes⟩ := hcomp.composes_of_genuine hgen
  obtain ⟨-, hname', -, -, -, -, hcomposed⟩ := hcomp
  obtain rfl := Option.some.inj (hcomposes.typeName.symm.trans hname')
  obtain ⟨hfull, hnv⟩ := names_of_compose_on hkeyed hcomposed
  intro name l hname
  obtain rfl := Option.some.inj (hcomposes.typeName.symm.trans hname)
  rw [Composition.get?_register hfull hnv, Composition.get?_register hfull hnv, if_pos rfl,
    if_neg (nonVirtualName_ne _)]
  refine ⟨fun hl => ⟨hlays, comp, hcomposes, (Option.some.inj hl).symm⟩, fun hl => ?_⟩
  split at hl
  · exact ⟨hlays, comp, hcomposes, hl⟩
  · exact ((hgen id .refl) _ l hname).2 hl

end

/-! ## Growing -/

section
variable (hnames : Distinct names) {root : ClassId} (hkeyed : types.Keyed)
include hnames hkeyed

/-- **Registering the layouts of any class keeps what is registered genuine.** -/
theorem Genuine.register (hgen : Genuine h names root types) {e : ClassId} {comp : Composition}
    (hcomp : ComposesOn h names types e comp) : Genuine h names root (comp.register types) := by
  intro d hd
  by_cases hde : d = e
  · subst hde
    exact hcomp.genuineAt_register (hgen.base hd) hkeyed
  · exact (hgen d hd).of_get?_eq fun name hname => hcomp.get?_register_of_ne hnames hkeyed hde hname

theorem Genuine.grows (hgen : Genuine h names root types) {a : ClassId} {types' : TypeDatabase}
    (hgrows : Grows h names a types types') : Genuine h names root types' := by
  induction hgrows with
  | refl => exact hgen
  | step hgrows _ _ hcomp ih => exact ih.register hnames (hgrows.keyed hkeyed) hcomp

/-- **Building any class keeps what is registered genuine.** -/
theorem Genuine.built (hgen : Genuine h names root types) {a : ClassId} {r : Except ModelError Layout}
    {types' : TypeDatabase} (hresult : BuildResult h names a types r types') :
    Genuine h names root types' := by
  cases hresult with
  | error hgrows => exact hgen.grows hnames hkeyed hgrows
  | ok hgrows hcomp => exact (hgen.grows hnames hkeyed hgrows).register hnames (hgrows.keyed hkeyed) hcomp

end

/-- What is built on top of genuine layouts is the layout of the class. -/
theorem Genuine.composes_of_ok (hnames : Distinct names) {id : ClassId} {m : ClassModel} {fuel : Nat} {l : Layout}
    (hgen : Genuine h names id m.types) (hm : Shows h names m)
    (hl : (buildWithin fuel id m).value.1 = .ok l) :
    LaysOut h names id ∧ ∃ typeName comp, Composes h names id typeName comp ∧ l = comp.full := by
  have hresult := (buildWithin_result fuel id m hm).result
  rw [hl] at hresult
  generalize (buildWithin fuel id m).value.2.types = types at hresult
  cases hresult with
  | ok hgrows hcomp =>
    obtain ⟨hlays, typeName, hcomposes⟩ := hcomp.composes_of_genuine (hgen.grows hnames hm.keyed hgrows)
    exact ⟨hlays, typeName, _, hcomposes, rfl⟩

/-! ## Failing alike -/

/-- The results are the same where one of them is an error. -/
def SameError {α : Type} (r r' : Except ModelError α) : Prop := ∀ e, r = .error e ↔ r' = .error e

theorem SameError.of_eq {α : Type} {r r' : Except ModelError α} (heq : r = r') : SameError r r' :=
  fun _ => by rw [heq]

theorem SameError.map {α β : Type} {r r' : Except ModelError α} (hsame : SameError r r') (f f' : α → β) :
    SameError (r.map f) (r'.map f') := by
  intro e
  have herror {γ : Type} (g : α → γ) (r : Except ModelError α) : r.map g = .error e ↔ r = .error e := by
    cases r <;> simp [Except.map]
  rw [herror, herror]
  exact hsame e

/-- One step after another fails alike if both steps do. -/
theorem SameError.andThen {α β : Type} {x x' : Except ModelError α × ClassModel}
    {f f' : α → ClassModel → Except ModelError β × ClassModel} (hx : SameError x.1 x'.1)
    (hf : ∀ a a' m m', x = (.ok a, m) → x' = (.ok a', m') → SameError (f a m).1 (f' a' m').1) :
    SameError (ClassModel.andThen x f).1 (ClassModel.andThen x' f').1 := by
  obtain ⟨r, m⟩ := x
  obtain ⟨r', m'⟩ := x'
  cases r with
  | error e =>
    obtain rfl : r' = .error e := (hx e).mp rfl
    exact .of_eq rfl
  | ok a =>
    cases r' with
    | error e => exact absurd ((hx e).mpr rfl) (by simp)
    | ok a' => exact hf a a' m m' rfl rfl

/-- Results with the same errors are the same, if there is one thing only that they can give. -/
theorem SameError.eq {α : Type} {r r' : Except ModelError α} (hsame : SameError r r')
    (hok : ∀ a a', r = .ok a → r' = .ok a' → a = a') : r = r' := by
  cases r with
  | error e => exact ((hsame e).mp rfl).symm
  | ok a =>
    cases r' with
    | error e => exact (hsame e).mpr rfl
    | ok a' => rw [hok a a' rfl rfl]

end

/-! ## Building alike -/

section
variable (h : Hierarchy) (names : OrderedMap ClassId String) (root : ClassId)

/-- Two models of the same classes: what is registered in the first is genuine below `root`, and what is registered
    in the second are layouts of the classes. -/
structure Beside (m m' : ClassModel) : Prop where
  shows : Shows h names m
  genuine : Genuine h names root m.types
  describes : Describes h names m'

/-- The class `b` is a base of `root`, and is built alike in two models beside each other. -/
structure BuildsAlike (build : LayoutBuilder) (b : ClassId) : Prop where
  inherits : h.Inherits root b
  spec : ∀ m', Describes h names m' → Built h names b m' (build b m').value
  same : ∀ m m', Beside h names root m m' → SameError (build b m).value.1 (build b m').value.1

end

section
variable {h : Hierarchy} {names : OrderedMap ClassId String} (hnames : Distinct names) {root : ClassId}

theorem Describes.shows {m : ClassModel} (hm : Describes h names m) : Shows h names m := by
  refine ⟨hm.over, fun name l hl => ?_⟩
  obtain ⟨id, typeName, comp, -, hcomp, hlays⟩ := hm.registered.lays name l hl
  obtain ⟨-, -, -, -, -, hcomposed⟩ := hcomp
  obtain ⟨hfull, hnv⟩ := names_of_compose hcomposed
  obtain ⟨rfl, rfl⟩ | ⟨rfl, hpart⟩ := hlays
  · exact hfull
  · exact hnv l hpart

/-- A class that has a layout can be laid out. -/
theorem GenuineAt.laysOut {m : ClassModel} {id : ClassId} (hgen : GenuineAt h names m.types id)
    (hm : Over h names m) {l : Layout} (hl : m.layout? id = some l) : LaysOut h names id := by
  obtain ⟨name, hname, hget⟩ := Option.bind_eq_some_iff.mp hl
  rw [hm.typeName?_eq] at hname
  exact ((hgen name l hname).1 hget).1

/-- Taking the registered layout fails as building does, if a class with a layout can be built. -/
theorem ensureWith_sameError {build : LayoutBuilder} {id : ClassId} {m : ClassModel}
    (hok : ∀ l, m.layout? id = some l → ∀ e, (build id m).value.1 ≠ .error e) :
    SameError (ensureWith build id m).value.1 (build id m).value.1 := by
  unfold ensureWith
  cases hl : m.layout? id with
  | none => exact .of_eq rfl
  | some l =>
    intro e
    constructor
    · rintro ⟨⟩
    · exact fun he => absurd he (hok l hl e)

section
variable {m m' : ClassModel} (hm : Beside h names root m m')
include hm

theorem Beside.offsetTable_eq (id : ClassId) : (m.offsetTable id).1 = (m'.offsetTable id).1 := by
  have hsame : m.hierarchy = m'.hierarchy := hm.shows.hierarchy.trans hm.describes.hierarchy.symm
  exact hm.shows.coherent.offsetTable_congr hm.describes.coherent (congrArg Hierarchy.abi hsame)
    (congrArg Hierarchy.pointerSize hsame) fun d _ => congrArg (·.classes.get? d) hsame

theorem Beside.offsetTable (id : ClassId) :
    Beside h names root (m.offsetTable id).2 (m'.offsetTable id).2 :=
  ⟨hm.shows.offsetTable id, hm.genuine, hm.describes.offsetTable id⟩

include hnames

/-- The models stay beside each other while bases are built. -/
theorem Beside.advance {α β : Type} {Good : α → TypeDatabase → Prop} {Good' : β → TypeDatabase → Prop}
    {Bad : Prop} {r : Except ModelError α × ClassModel} {r' : Except ModelError β × ClassModel}
    (hr : Advances h names root m.types Good r) (hr' : Yields h names m' Good' Bad r') :
    Beside h names root r.2 r'.2 :=
  ⟨hr.shows, hm.genuine.grows hnames hm.shows.keyed hr.grows, hr'.describes⟩

section
variable {build : LayoutBuilder}

theorem Beside.ensureWith_same {b : ClassId} (hb : BuildsAlike h names root build b) :
    SameError (ensureWith build b m).value.1 (ensureWith build b m').value.1 := by
  have hsame := hb.same m m' hm
  -- a class with a layout in one of the models can be laid out, so it is built in both
  have hok (hlays : LaysOut h names b) (e : ModelError) : (build b m').value.1 ≠ .error e := fun he =>
    (hb.spec m' hm.describes).error e he hlays
  have hleft : SameError (ensureWith build b m).value.1 (build b m).value.1 :=
    ensureWith_sameError fun l hl e he =>
      hok ((hm.genuine b hb.inherits.to_reflTransGen).laysOut hm.shows.toOver hl) e ((hsame e).mp he)
  have hright : SameError (ensureWith build b m').value.1 (build b m').value.1 :=
    ensureWith_sameError fun l hl =>
      hok ((hm.describes.registered.genuineAt hnames b).laysOut hm.describes.over hl)
  exact fun e => (hleft e).trans ((hsame e).trans (hright e).symm)

variable (hbuild : Builds h names build)
include hbuild

theorem Beside.embedBase_same {s : BaseSubobject} (hs : BuildsAlike h names root build s.base) :
    SameError (embedBase build s m).value.1 (embedBase build s m').value.1 := by
  rw [value_embedBase, value_embedBase]
  refine (hm.ensureWith_same hnames hs).andThen fun l l' m₁ m₁' heq heq' => ?_
  have hm₁ : Beside h names root m₁ m₁' := by
    have hadvance := hm.advance hnames (ensureWith_advances hbuild hm.shows hs.inherits)
      (ensureWith_spec hnames hm.describes (hs.spec m' hm.describes))
    rwa [heq, heq'] at hadvance
  rw [hm₁.shows.typeName?_eq, hm₁.describes.over.typeName?_eq]
  cases names.get? s.base with
  | none => exact .of_eq rfl
  | some typeName =>
    refine (SameError.of_eq (hm₁.offsetTable_eq s.base)).andThen fun t t' m₂ m₂' _ _ e => ?_
    simp

end

end

include hnames

theorem Beside.embedBases_same {build : LayoutBuilder} (hbuild : Builds h names build) :
    ∀ (l : List BaseSubobject) {m m' : ClassModel}, Beside h names root m m' →
      (∀ s ∈ l, BuildsAlike h names root build s.base) →
      SameError (embedBases build l m).value.1 (embedBases build l m').value.1
  | [], _, _, _, _ => .of_eq rfl
  | s :: rest, m, m', hm, hl => by
    simp only [List.mem_cons, forall_eq_or_imp] at hl
    rw [value_embedBases_cons, value_embedBases_cons]
    refine (hm.embedBase_same hnames hbuild hl.1).andThen fun b b' m₁ m₁' heq heq' => ?_
    have hm₁ : Beside h names root m₁ m₁' := by
      have hadvance := hm.advance hnames (embedBase_advances hbuild hm.shows hl.1.inherits)
        (embedBase_spec hnames hm.describes (hl.1.spec m' hm.describes))
      rwa [heq, heq'] at hadvance
    exact (Beside.embedBases_same hbuild rest hm₁ hl.2).map _ _

/-- How bases are embedded in the one and in the other model, and what the models are then. -/
theorem Beside.embedBases {build : LayoutBuilder} (hbuild : Builds h names build) {l : List BaseSubobject}
    {m m' m₁ m₁' : ClassModel} {bases bases' : List EmbeddedBase} (hm : Beside h names root m m')
    (hl : ∀ s ∈ l, BuildsAlike h names root build s.base)
    (heq : (embedBases build l m).value = (.ok bases, m₁))
    (heq' : (embedBases build l m').value = (.ok bases', m₁')) :
    Beside h names root m₁ m₁' ∧ List.Forall₂ (Embeds h names) l bases ∧ bases' = bases := by
  have hadvances := embedBases_advances hbuild l hm.shows fun s hs => (hl s hs).inherits
  have hyields := embedBases_spec hnames l hm.describes fun s hs => (hl s hs).spec
  have hm₁ := hm.advance hnames hadvances hyields
  rw [heq, heq'] at hm₁
  rw [heq] at hadvances
  rw [heq'] at hyields
  have hbases := (hadvances.ok bases rfl).1
  exact ⟨hm₁, hbases, embeds_unique (hyields.ok bases' rfl).1 hbases⟩

/-- **Building a class fails alike** in models beside each other, while classes that inherit from it are being
    built. -/
theorem Beside.buildWithin_same {fuel : Nat} {pending : List ClassId} {id : ClassId} {m m' : ClassModel}
    (hm : Beside h names id m m') (hunderway : Underway h pending id fuel) :
    SameError (buildWithin fuel id m).value.1 (buildWithin fuel id m').value.1 := by
  induction fuel generalizing pending id m m' with
  | zero => exact absurd rfl hunderway.ne_zero
  | succ fuel ih =>
    have hbuild : Builds h names (buildWithin fuel) := buildWithin_result fuel
    rw [value_buildWithin_succ, value_buildWithin_succ]
    refine (SameError.of_eq (hm.offsetTable_eq id)).andThen fun t t' m₁ m₁' heq heq' => ?_
    have ht := hm.shows.resolves (congrArg Prod.fst heq)
    obtain rfl := ht.unique (hm.describes.over.resolves (congrArg Prod.fst heq'))
    have hm₁ : Beside h names id m₁ m₁' := by
      have hresolved := hm.offsetTable id
      rwa [heq, heq'] at hresolved
    have hbases : ∀ s ∈ t.outermost, BuildsAlike h names id (buildWithin fuel) s.base := by
      intro s hs
      have hinherits := ht.inherits_of_mem s (BaseOffsetTable.mem_entries_of_outermost hs)
      have hunder := hunderway.base ht hinherits
      refine ⟨hinherits, fun n hn => buildWithin_spec hnames hn hunder, fun n n' hn => ih ?_ hunder⟩
      exact ⟨hn.shows, hn.genuine.base hinherits.to_reflTransGen, hn.describes⟩
    obtain ⟨hdirect, hshared⟩ := List.forall_mem_append.mp hbases
    rw [hm₁.shows.get?_eq, hm₁.shows.typeName?_eq, hm₁.describes.over.get?_eq,
      hm₁.describes.over.typeName?_eq]
    split
    · next c typeName hc hname =>
      refine (hm₁.embedBases_same hnames hbuild _ hdirect).andThen ?_
      intro direct direct' m₂ m₂' heq₂ heq₂'
      obtain ⟨hm₂, hembed, rfl⟩ := hm₁.embedBases hnames hbuild hdirect heq₂ heq₂'
      refine (hm₂.embedBases_same hnames hbuild _ hshared).andThen ?_
      intro shared shared' m₃ m₃' heq₃ heq₃'
      obtain ⟨hm₃, hembed', rfl⟩ := hm₂.embedBases hnames hbuild hshared heq₃ heq₃'
      have hcompose := (hm₃.genuine id .refl).compose_eq hm₃.shows.abi_eq hm₃.shows.pointerSize_eq hc hname ht
        hembed hembed'
      have hcompose' := (hm₃.describes.registered.genuineAt hnames id).compose_eq hm₃.describes.over.abi_eq
        hm₃.describes.over.pointerSize_eq hc hname ht hembed hembed'
      rw [hcompose, hcompose']
      refine .of_eq ?_
      split <;> rfl
    · exact .of_eq rfl

/-- **What is registered does not show when a class is built**, if it is genuine below the class. -/
theorem Genuine.buildLayout_eq {id : ClassId} {m m' : ClassModel} (hm : Shows h names m)
    (hgen : Genuine h names id m.types) (hm' : Describes h names m') :
    (m.buildLayout id).value.1 = (m'.buildLayout id).value.1 := by
  have hbeside : Beside h names id m m' := ⟨hm, hgen, hm'⟩
  have hsize : m.size = h.classes.size := by
    rw [← hm.hierarchy]
    rfl
  have hsize' : m'.size = h.classes.size := by
    rw [← hm'.hierarchy]
    rfl
  rw [buildLayout, buildLayout, hsize, hsize']
  refine (hbeside.buildWithin_same hnames (underway_nil h id)).eq fun l l' hl hl' => ?_
  obtain ⟨-, typeName, comp, hcomp, rfl⟩ := hgen.composes_of_ok hnames hm hl
  obtain ⟨-, typeName', comp', hcomp', rfl⟩ :=
    Genuine.composes_of_ok hnames (fun d _ => hm'.registered.genuineAt hnames d) hm'.shows hl'
  rw [(hcomp.unique hcomp').2]

end

end ClassModel

end ClassRecovery
