/-
  What building does to the registered layouts.

  Building a class registers the layouts of some of its bases, one base after the other, and last those of the
  class itself; each of them are composed on top of what is registered by then (`buildWithin_result`).  A base is
  built only if it had no layout before.  This holds of every model, whatever its classes are called and
  whatever is registered.
-/
import ClassRecovery.Proofs.Model.Names
import ClassRecovery.Proofs.Offsets.Outermost

namespace ClassRecovery

namespace TypeDatabase

/-- Every layout is stored under its own name. -/
def Keyed (types : TypeDatabase) : Prop := ∀ name l, types.get? name = some l → l.name = name

theorem Keyed.register {types : TypeDatabase} (hkeyed : types.Keyed) (l : Layout) :
    (types.register l).Keyed := by
  intro name l' hl'
  rw [ClassModel.get?_register] at hl'
  split at hl'
  · next heq => rw [heq, ← Option.some.inj hl']
  · exact hkeyed name l' hl'

theorem contains_register {types : TypeDatabase} {name : String}
    (h : types.contains name = true ∨ name = l.name) : (types.register l).contains name = true := by
  have hget := ClassModel.get?_register types l name
  refine Option.isSome_iff_exists.mpr ?_
  change ∃ l', (types.register l).get? name = some l'
  rw [hget]
  split
  · exact ⟨l, rfl⟩
  · next hne => exact Option.isSome_iff_exists.mp (h.resolve_right hne)

end TypeDatabase

namespace ClassModel

/-! ## Composing on top of what is registered -/

theorem Composition.keyed_register {comp : Composition} {types : TypeDatabase} (hkeyed : types.Keyed) :
    (comp.register types).Keyed := by
  refine TypeDatabase.Keyed.register ?_ _
  cases comp.nonVirtual with
  | none => exact hkeyed
  | some nv => exact hkeyed.register nv

theorem Composition.contains_register {comp : Composition} {types : TypeDatabase} {name : String}
    (h : types.contains name = true ∨ name = comp.full.name) :
    (comp.register types).contains name = true := by
  refine TypeDatabase.contains_register (h.imp_left fun hname => ?_)
  cases comp.nonVirtual with
  | none => exact hname
  | some nv => exact TypeDatabase.contains_register (.inl hname)

section
variable (h : Hierarchy) (names : OrderedMap ClassId String)

/-- A layout is registered under the type name of the class. -/
def HasLayout (types : TypeDatabase) (id : ClassId) : Prop :=
  ∃ typeName, names.get? id = some typeName ∧ types.contains typeName = true

/-- The model of the given classes in which the given layouts are registered. -/
def holding (types : TypeDatabase) : ClassModel :=
  { abi := h.abi, pointerSize := h.pointerSize, classes := h.classes, typeNames := names, types }

/-- The bases of the class `id` have layouts, and composing those of the class gives `comp`. -/
inductive ComposesOn (types : TypeDatabase) (id : ClassId) : Composition → Prop
  | mk {c : ClassType} {typeName : String} {table : BaseOffsetTable}
      {direct shared : List EmbeddedBase} {comp : Composition} :
      h.classes.get? id = some c → names.get? id = some typeName → Resolves h id table →
      List.Forall₂ (Embeds h names) (table.direct.filter (!·.isVirtual)) direct →
      List.Forall₂ (Embeds h names) table.virtualBases shared →
      (∀ s ∈ table.outermost, HasLayout names types s.base) →
      (holding h names types).compose c typeName table direct shared = .ok comp →
      ComposesOn types id comp

/-- From `start` on, the layouts of bases of `root` that had none are registered, one base after the
    other. -/
inductive Grows (root : ClassId) (start : TypeDatabase) : TypeDatabase → Prop
  | refl : Grows root start start
  | step {types : TypeDatabase} {e : ClassId} {comp : Composition} :
      Grows root start types → h.Inherits root e → ¬ HasLayout names start e →
      ComposesOn h names types e comp → Grows root start (comp.register types)

/-- What comes of building the class `id`: its layouts are registered last, unless the building fails before. -/
inductive BuildResult (id : ClassId) (start : TypeDatabase) :
    Except ModelError Layout → TypeDatabase → Prop
  | error {e : ModelError} {types : TypeDatabase} :
      Grows h names id start types → BuildResult id start (.error e) types
  | ok {types : TypeDatabase} {comp : Composition} :
      Grows h names id start types → ComposesOn h names types id comp →
      BuildResult id start (.ok comp.full) (comp.register types)

/-- The model has the given classes and type names, and its layouts are stored under their names. -/
structure Shows (m : ClassModel) : Prop extends Over h names m where
  keyed : m.types.Keyed

/-- A model of the same classes comes of building the class `id` on top of `start`. -/
structure BuildsTo (id : ClassId) (start : TypeDatabase) (r : Except ModelError Layout × ClassModel) :
    Prop where
  shows : Shows h names r.2
  result : BuildResult h names id start r.1 r.2.types

/-- While `root` is being built on top of `start`, a step gives what is `Good`, or else an error. -/
structure Advances {α : Type} (root : ClassId) (start : TypeDatabase) (Good : α → TypeDatabase → Prop)
    (r : Except ModelError α × ClassModel) : Prop where
  shows : Shows h names r.2
  grows : Grows h names root start r.2.types
  ok : ∀ a, r.1 = .ok a → Good a r.2.types

end

section
variable {h : Hierarchy} {names : OrderedMap ClassId String}

theorem HasLayout.register {types : TypeDatabase} {id : ClassId} (hl : HasLayout names types id)
    (comp : Composition) : HasLayout names (comp.register types) id := by
  obtain ⟨typeName, hname, hcontains⟩ := hl
  exact ⟨typeName, hname, Composition.contains_register (.inl hcontains)⟩

/-- The layouts of a class are composed under its names. -/
theorem names_of_compose_on {m : ClassModel} (hkeyed : m.types.Keyed) {c : ClassType}
    {typeName : String} {table : BaseOffsetTable} {direct shared : List EmbeddedBase}
    {comp : Composition} (hcomp : m.compose c typeName table direct shared = .ok comp) :
    comp.full.name = typeName ∧
      ∀ nv, comp.nonVirtual = some nv → nv.name = nonVirtualName typeName := by
  have hstart (name : String) (size align : Word) : (m.startLayout name size align).name = name := by
    unfold startLayout
    cases hl : m.types.get? name with
    | none => rfl
    | some l => exact hkeyed name l hl
  obtain ⟨away, hcomposed, hrest⟩ := compose_ok_iff.mp hcomp
  refine ⟨(ClassType.compose_keeps hcomposed).1.trans (hstart ..), fun nv hnv => ?_⟩
  rcases hrest with ⟨-, hnone, -⟩ | ⟨more, nv', -, hnv', -, hcomposed'⟩
  · rw [hnone] at hnv
    cases hnv
  · obtain rfl := Option.some.inj (hnv.symm.trans hnv')
    exact (ClassType.compose_keeps hcomposed').1.trans (hstart ..)

theorem ComposesOn.hasLayout {types : TypeDatabase} (hkeyed : types.Keyed) {id : ClassId}
    {comp : Composition} (hcomp : ComposesOn h names types id comp) :
    HasLayout names (comp.register types) id := by
  obtain ⟨-, hname, -, -, -, -, hcomposed⟩ := hcomp
  have hfull : comp.full.name = _ := (names_of_compose_on hkeyed hcomposed).1
  exact ⟨_, hname, Composition.contains_register (.inr hfull.symm)⟩

/-! ## Growing -/

namespace Grows

variable {root : ClassId} {start types : TypeDatabase} (hgrows : Grows h names root start types)
include hgrows

theorem keyed (hkeyed : start.Keyed) : types.Keyed := by
  induction hgrows with
  | refl => exact hkeyed
  | step _ _ _ _ ih => exact Composition.keyed_register ih

/-- A class keeps having a layout. -/
theorem hasLayout {id : ClassId} (hl : HasLayout names start id) : HasLayout names types id := by
  induction hgrows with
  | refl => exact hl
  | step _ _ _ _ ih => exact ih.register _

/-- What is built for a base is built for the class. -/
theorem trans {b : ClassId} (hb : h.Reaches root b) {types' : TypeDatabase}
    (hgrows' : Grows h names b types types') : Grows h names root start types' := by
  induction hgrows' with
  | refl => exact hgrows
  | step _ he hnone hcomp ih =>
    exact .step ih (.trans_right hb he) (fun hl => hnone (hgrows.hasLayout hl)) hcomp

end Grows

/-! ## Steps of building -/

namespace Shows

variable {m : ClassModel} (hm : Shows h names m)
include hm

theorem of_keeps {m' : ClassModel} (hkeeps : Keeps m m') (hkeyed : m'.types.Keyed) : Shows h names m' :=
  ⟨hm.toOver.of_keeps hkeeps, hkeyed⟩

theorem offsetTable (id : ClassId) : Shows h names (m.offsetTable id).2 :=
  hm.of_keeps (keeps_offsetTable m id) hm.keyed

theorem isSome_layout?_iff {id : ClassId} :
    (m.layout? id).isSome = true ↔ HasLayout names m.types id := by
  simp only [layout?, hm.typeName?_eq, Option.isSome_bind, HasLayout, Option.any_eq_true]
  rfl

theorem compose_eq {c : ClassType} {typeName : String} {table : BaseOffsetTable}
    {direct shared : List EmbeddedBase} :
    m.compose c typeName table direct shared =
      (holding h names m.types).compose c typeName table direct shared := by
  rw [← hm.hierarchy]
  rfl

end Shows

section
variable {root : ClassId} {m : ClassModel}

/-- One step after another: what holds of an error, and of the second step after the first, holds of
    both. -/
theorem Advances.andThen {α β : Type} {Good : α → TypeDatabase → Prop}
    {P : Except ModelError β × ClassModel → Prop} {x : Except ModelError α × ClassModel}
    {f : α → ClassModel → Except ModelError β × ClassModel}
    (hx : Advances h names root m.types Good x)
    (herror : ∀ e m', Shows h names m' → Grows h names root m.types m'.types → P (.error e, m'))
    (hok : ∀ a m', Shows h names m' → Grows h names root m.types m'.types → Good a m'.types →
      P (f a m')) : P (ClassModel.andThen x f) := by
  rcases x with ⟨e | a, m'⟩
  · exact herror e m' hx.shows hx.grows
  · exact hok a m' hx.shows hx.grows (hx.ok a rfl)

theorem Advances.of_error {α : Type} {Good : α → TypeDatabase → Prop} (e : ModelError)
    {m' : ClassModel} (hm' : Shows h names m') (hgrows : Grows h names root m.types m'.types) :
    Advances h names root m.types Good (.error e, m') :=
  ⟨hm', hgrows, by simp⟩

theorem Advances.after {α : Type} {Good : α → TypeDatabase → Prop} {m' : ClassModel}
    {r : Except ModelError α × ClassModel} (hr : Advances h names root m'.types Good r)
    (hgrows : Grows h names root m.types m'.types) : Advances h names root m.types Good r :=
  ⟨hr.shows, hgrows.trans .refl hr.grows, hr.ok⟩

theorem Shows.advances_offsetTable (hm : Shows h names m) (id : ClassId) :
    Advances h names root m.types (fun table types => Resolves h id table ∧ types = m.types)
      (m.offsetTable id) :=
  ⟨hm.offsetTable id, .refl, fun _ ht => ⟨hm.resolves ht, rfl⟩⟩

/-- What has to be known of a builder. -/
def Builds (h : Hierarchy) (names : OrderedMap ClassId String) (build : LayoutBuilder) : Prop :=
  ∀ id m, Shows h names m → BuildsTo h names id m.types (build id m).value

section
variable {build : LayoutBuilder} (hbuild : Builds h names build)
include hbuild

theorem ensureWith_advances (hm : Shows h names m) {id : ClassId} (hid : h.Inherits root id) :
    Advances h names root m.types (fun _ types => HasLayout names types id)
      (ensureWith build id m).value := by
  unfold ensureWith
  split
  · next l hl =>
    refine ⟨hm, .refl, fun _ _ => hm.isSome_layout?_iff.mp ?_⟩
    rw [hl]
    rfl
  · next hl =>
    have hnone : ¬ HasLayout names m.types id := fun hlayout => by
      have := hm.isSome_layout?_iff.mpr hlayout
      rw [hl] at this
      cases this
    obtain ⟨hshows, hresult⟩ := hbuild id m hm
    generalize (build id m).value = r at hshows hresult
    obtain ⟨r, m'⟩ := r
    dsimp only at hshows hresult
    refine ⟨hshows, ?_, ?_⟩
    · dsimp only
      generalize m'.types = types at hresult
      cases hresult with
      | error hgrows => exact Grows.refl.trans hid.to_reflTransGen hgrows
      | ok hgrows hcomp =>
        exact .step (Grows.refl.trans hid.to_reflTransGen hgrows) hid hnone hcomp
    · rintro l rfl
      dsimp only
      generalize m'.types = types at hresult
      cases hresult with
      | ok hgrows hcomp => exact hcomp.hasLayout (hgrows.keyed hm.keyed)

theorem embedBase_advances (hm : Shows h names m) {s : BaseSubobject} (hs : h.Inherits root s.base) :
    Advances h names root m.types
      (fun b types => Embeds h names s b ∧ HasLayout names types s.base)
      (embedBase build s m).value := by
  rw [value_embedBase]
  refine (ensureWith_advances hbuild hm hs).andThen (fun e m' => .of_error e) ?_
  intro _ m₁ hm₁ hgrows₁ hlayout
  rw [hm₁.typeName?_eq]
  cases hname : names.get? s.base with
  | none => exact .of_error _ hm₁ hgrows₁
  | some typeName =>
    refine .after ((hm₁.advances_offsetTable s.base).andThen (fun e m' => .of_error e) ?_) hgrows₁
    rintro table m₂ hm₂ hgrows₂ ⟨htable, htypes⟩
    refine ⟨hm₂, hgrows₂, ?_⟩
    rintro _ ⟨⟩
    exact ⟨⟨typeName, table, hname, htable, rfl⟩, htypes ▸ hlayout⟩

theorem embedBases_advances :
    ∀ (l : List BaseSubobject) {m : ClassModel}, Shows h names m →
      (∀ s ∈ l, h.Inherits root s.base) →
      Advances h names root m.types
        (fun bases types => List.Forall₂ (Embeds h names) l bases ∧
          ∀ s ∈ l, HasLayout names types s.base)
        (embedBases build l m).value
  | [], m, hm, _ => by
    refine ⟨hm, .refl, ?_⟩
    rintro _ ⟨⟩
    exact ⟨.nil, by simp⟩
  | s :: rest, m, hm, hl => by
    simp only [List.mem_cons, forall_eq_or_imp] at hl
    rw [value_embedBases_cons]
    refine (embedBase_advances hbuild hm hl.1).andThen (fun e m' => .of_error e) ?_
    rintro b m₁ hm₁ hgrows₁ ⟨hb, hlayout⟩
    have hrest := embedBases_advances rest hm₁ hl.2
    refine .after ⟨hrest.shows, hrest.grows, fun bases hbases => ?_⟩ hgrows₁
    cases hr : (embedBases build rest m₁).value.1 with
    | error e =>
      rw [hr] at hbases
      cases hbases
    | ok more =>
      rw [hr] at hbases
      cases hbases
      obtain ⟨hmore, hlayouts⟩ := hrest.ok more hr
      exact ⟨.cons hb hmore, by simpa using ⟨hrest.grows.hasLayout hlayout, hlayouts⟩⟩

end

/-! ## Building -/

/-- **Building a class** registers layouts of bases that had none, and last those of the class. -/
theorem buildWithin_result (fuel : Nat) : Builds h names (buildWithin fuel) := by
  induction fuel with
  | zero => exact fun id m hm => ⟨hm, .error .refl⟩
  | succ fuel ih =>
    intro id m hm
    rw [value_buildWithin_succ]
    have failed (e : ModelError) (m' : ClassModel) (hm' : Shows h names m')
        (hgrows : Grows h names id m.types m'.types) :
        BuildsTo h names id m.types (.error e, m') := ⟨hm', .error hgrows⟩
    refine (hm.advances_offsetTable id).andThen failed ?_
    rintro table m₁ hm₁ hgrows₁ ⟨htable, -⟩
    rw [hm₁.get?_eq, hm₁.typeName?_eq]
    split
    · next c typeName hc hname =>
      have hbases : ∀ s ∈ table.outermost, h.Inherits id s.base := fun s hs =>
        htable.inherits_of_mem s (BaseOffsetTable.mem_entries_of_outermost hs)
      obtain ⟨hdirect, hshared⟩ := List.forall_mem_append.mp hbases
      refine ((embedBases_advances ih _ hm₁ hdirect).after hgrows₁).andThen failed ?_
      rintro direct m₂ hm₂ hgrows₂ ⟨hdirect', hlayouts⟩
      refine (embedBases_advances ih _ hm₂ hshared).andThen
        (fun e m' hm' hgrows => failed e m' hm' (hgrows₂.trans .refl hgrows)) ?_
      rintro shared m₃ hm₃ hgrows₃ ⟨hshared', hlayouts'⟩
      have hgrown := hgrows₂.trans .refl hgrows₃
      cases hcomp : m₃.compose c typeName table direct shared with
      | error e => exact failed _ m₃ hm₃ hgrown
      | ok comp =>
        have htypes := types_registerComposition m₃ id comp
        refine ⟨hm₃.of_keeps (keeps_registerComposition m₃ id comp) ?_, ?_⟩
        · rw [htypes]
          exact Composition.keyed_register hm₃.keyed
        · dsimp only
          rw [htypes]
          refine .ok hgrown (.mk hc hname htable hdirect' hshared' ?_ (hm₃.compose_eq ▸ hcomp))
          exact List.forall_mem_append.mpr ⟨fun s hs => hgrows₃.hasLayout (hlayouts s hs), hlayouts'⟩
    · exact failed _ m₁ hm₁ hgrows₁

end

end

/-! ## Any sequence of operations -/

theorem Coherent.shows {m : ClassModel} (hm : m.Coherent) (hkeyed : m.types.Keyed) :
    Shows m.hierarchy m.typeNames m :=
  ⟨⟨hm, rfl, rfl⟩, hkeyed⟩

/-- **Every operation keeps layouts under their own names.** -/
theorem Coherent.keyed_apply {m : ClassModel} (hm : m.Coherent) (hkeyed : m.types.Keyed)
    (op : Operation) : (m.apply op).types.Keyed := by
  have built (fuel : Nat) (id : ClassId) : (buildWithin fuel id m).value.2.types.Keyed :=
    (buildWithin_result fuel id m (hm.shows hkeyed)).shows.keyed
  cases op with
  | buildLayout id => exact built _ id
  | ensureLayout id =>
    change (ensureWith (buildWithin (m.size + 1)) id m).value.2.types.Keyed
    unfold ensureWith
    split
    · exact hkeyed
    · exact built _ id
  | registerLayout l => exact hkeyed.register l
  | insert | offsetTable | setState | setInterrupted | markAnalyzed | record => exact hkeyed

theorem shows_reached (abi : Abi) (pointerSize : Word) (ops : List Operation) :
    let m := reached abi pointerSize ops
    Shows m.hierarchy m.typeNames m := by
  refine (coherent_reached abi pointerSize ops).shows ?_
  suffices ∀ m : ClassModel, m.Coherent → m.types.Keyed → (m.applyAll ops).types.Keyed from
    this _ (coherent_new abi pointerSize) fun _ _ hl => nomatch hl
  induction ops with
  | nil => exact fun m _ hkeyed => hkeyed
  | cons op ops ih => exact fun m hm hkeyed => ih _ (hm.apply op) (hm.keyed_apply hkeyed op)

end ClassModel

end ClassRecovery
