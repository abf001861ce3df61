/-
  Building layouts.

  Building the layout of a class succeeds if and only if the class can be laid out; then its layouts are
  registered.  Whether it succeeds or fails, registered layouts stay, and all of them are layouts of
  classes that can be laid out (`buildWithin_spec`).
-/
import ClassRecovery.Proofs.Model.Layouts

namespace ClassRecovery

namespace ClassModel

/-! ## Models of certain classes -/

/-- The model has the given classes and type names. -/
structure Over (h : Hierarchy) (names : OrderedMap ClassId String) (m : ClassModel) : Prop where
  coherent : m.Coherent
  hierarchy : m.hierarchy = h
  typeNames : m.typeNames = names

namespace Over

variable {h : Hierarchy} {names : OrderedMap ClassId String} {m : ClassModel} (hm : Over h names m)
include hm

theorem offsetTable_eq {id : ClassId} {t : BaseOffsetTable} (hr : Resolves h id t) :
    (m.offsetTable id).1 = .ok t :=
  hm.coherent.offsetTable_eq (hm.hierarchy.symm ▸ hr)

theorem resolves {id : ClassId} {t : BaseOffsetTable} (ht : (m.offsetTable id).1 = .ok t) :
    Resolves h id t :=
  hm.hierarchy ▸ hm.coherent.resolves ht

theorem of_keeps {m' : ClassModel} (hkeeps : Keeps m m') : Over h names m' :=
  ⟨hkeeps.2 hm.coherent, hkeeps.1.hierarchy.trans hm.hierarchy, hkeeps.1.typeNames.trans hm.typeNames⟩

theorem abi_eq : m.abi = h.abi := congrArg Hierarchy.abi hm.hierarchy

theorem pointerSize_eq : m.pointerSize = h.pointerSize := congrArg Hierarchy.pointerSize hm.hierarchy

theorem typeName?_eq (id : ClassId) : m.typeName? id = names.get? id := by
  rw [typeName?, hm.typeNames]

theorem get?_eq (id : ClassId) : m.get? id = h.classes.get? id := by
  rw [← hm.hierarchy]
  rfl

end Over

/-- The model has the given classes and type names, and what is registered are layouts of these. -/
structure Describes (h : Hierarchy) (names : OrderedMap ClassId String) (m : ClassModel) : Prop where
  coherent : m.Coherent
  hierarchy : m.hierarchy = h
  typeNames : m.typeNames = names
  registered : Registered h names m.types

/-- Nothing that is registered is lost. -/
def Extends (types types' : TypeDatabase) : Prop :=
  ∀ name l, types.get? name = some l → types'.get? name = some l

theorem Extends.contains {types types' : TypeDatabase} (h : Extends types types') {name : String}
    (hname : types.contains name = true) : types'.contains name = true := by
  obtain ⟨l, hl⟩ := Option.isSome_iff_exists.mp hname
  exact Option.isSome_iff_exists.mpr ⟨l, h name l hl⟩

/-- A step on a model gives what is `Good`, or else there is something `Bad`; either way the model describes
    the same classes, and nothing that is registered is lost. -/
structure Yields {α : Type} (h : Hierarchy) (names : OrderedMap ClassId String) (m : ClassModel)
    (Good : α → TypeDatabase → Prop) (Bad : Prop) (r : Except ModelError α × ClassModel) : Prop where
  describes : Describes h names r.2
  grows : Extends m.types r.2.types
  ok : ∀ a, r.1 = .ok a → Good a r.2.types
  error : ∀ e, r.1 = .error e → Bad

/-- What building the layout of a class gives. -/
abbrev Built (h : Hierarchy) (names : OrderedMap ClassId String) (id : ClassId) (m : ClassModel)
    (r : Except ModelError Layout × ClassModel) : Prop :=
  Yields h names m
    (fun _ types => LaysOut h names id ∧
      ∃ typeName, names.get? id = some typeName ∧ types.contains typeName = true)
    (¬ LaysOut h names id) r

section
variable {h : Hierarchy} {names : OrderedMap ClassId String} {m : ClassModel}

/-- One step after another: the second is taken if the first gives something. -/
theorem Yields.andThen {α β : Type} {Good : α → TypeDatabase → Prop}
    {Good' : β → TypeDatabase → Prop} {Bad Bad' : Prop} {x : Except ModelError α × ClassModel}
    {f : α → ClassModel → Except ModelError β × ClassModel} (hx : Yields h names m Good Bad x)
    (hbad : Bad → Bad')
    (hf : ∀ a m', Describes h names m' → Good a m'.types → Yields h names m' Good' Bad' (f a m')) :
    Yields h names m Good' Bad' (ClassModel.andThen x f) := by
  rcases x with ⟨e | a, m'⟩
  · exact ⟨hx.describes, hx.grows, by simp [ClassModel.andThen],
      fun _ _ => hbad (hx.error e rfl)⟩
  · have hrest := hf a m' hx.describes (hx.ok a rfl)
    exact ⟨hrest.describes, fun name l hl => hrest.grows name l (hx.grows name l hl), hrest.ok,
      hrest.error⟩

/-- A step that does nothing. -/
theorem Describes.yields {α : Type} {Good : α → TypeDatabase → Prop} {Bad : Prop}
    (hm : Describes h names m) {r : Except ModelError α} (hok : ∀ a, r = .ok a → Good a m.types)
    (herror : ∀ e, r = .error e → Bad) : Yields h names m Good Bad (r, m) :=
  ⟨hm, fun _ _ hl => hl, hok, herror⟩

theorem Describes.offsetTable (hm : Describes h names m) (id : ClassId) :
    Describes h names (m.offsetTable id).2 :=
  ⟨hm.coherent.offsetTable id, hm.hierarchy, hm.typeNames, hm.registered⟩

theorem Describes.over (hm : Describes h names m) : Over h names m :=
  ⟨hm.coherent, hm.hierarchy, hm.typeNames⟩

theorem LaysOut.resolves {id : ClassId} (hl : LaysOut h names id) :
    ∃ table, Resolves h id table := by
  obtain ⟨htable, -⟩ := hl
  exact ⟨_, htable⟩

/-- A class that can be laid out has a registered layout once it was built. -/
theorem Yields.contains {id : ClassId} {r : Except ModelError Layout × ClassModel}
    (hbuilt : Built h names id m r) (hlays : LaysOut h names id) {typeName : String}
    (hname : names.get? id = some typeName) : r.2.types.contains typeName = true := by
  rcases hr : r.1 with e | l
  · exact absurd hlays (hbuilt.error e hr)
  · obtain ⟨-, typeName', hname', hcontains⟩ := hbuilt.ok l hr
    rwa [Option.some.inj (hname.symm.trans hname')]

/-- The bases that the layout of a class embeds can be laid out. -/
theorem LaysOut.bases {id : ClassId} {table : BaseOffsetTable} (hl : LaysOut h names id)
    (htable : Resolves h id table) :
    (∀ s ∈ table.direct.filter (!·.isVirtual), LaysOut h names s.base) ∧
      ∀ s ∈ table.virtualBases, LaysOut h names s.base := by
  obtain ⟨htable', hdirect, hshared, -⟩ := hl
  obtain rfl := htable.unique htable'
  exact ⟨hdirect, hshared⟩

/-! ## Registering what was composed -/

theorem get?_register (types : TypeDatabase) (l : Layout) (name : String) :
    (types.register l).get? name = if name = l.name then some l else types.get? name :=
  OrderedMap.get?_insert types.layouts l.name name l

/-- The registered layouts, with those of one class. -/
def Composition.register (comp : Composition) (types : TypeDatabase) : TypeDatabase :=
  (comp.nonVirtual.elim types types.register).register comp.full

theorem types_registerComposition (m : ClassModel) (id : ClassId) (comp : Composition) :
    (m.registerComposition id comp).value.types = comp.register m.types := by
  rw [value_registerComposition, Composition.register]
  cases comp.nonVirtual <;> rfl

theorem Composition.get?_register {comp : Composition} {typeName : String}
    (hfull : comp.full.name = typeName)
    (hnv : ∀ nv, comp.nonVirtual = some nv → nv.name = nonVirtualName typeName)
    (types : TypeDatabase) (name : String) :
    (comp.register types).get? name =
      if name = typeName then some comp.full
      else if name = nonVirtualName typeName ∧ comp.nonVirtual.isSome = true then comp.nonVirtual
      else types.get? name := by
  refine (ClassModel.get?_register _ _ _).trans ?_
  rw [hfull]
  cases hsome : comp.nonVirtual with
  | none => simp
  | some nv =>
    refine if_congr Iff.rfl rfl ((ClassModel.get?_register _ _ _).trans ?_)
    simp [hnv nv hsome]

/-- The layouts of a class are composed in one way. -/
theorem Composes.compose_eq {id : ClassId} {typeName : String} {comp : Composition} {c : ClassType}
    {table : BaseOffsetTable} {direct shared : List EmbeddedBase}
    (hcomp : Composes h names id typeName comp) (hc : h.classes.get? id = some c)
    (htable : Resolves h id table)
    (hdirect : List.Forall₂ (Embeds h names) (table.direct.filter (!·.isVirtual)) direct)
    (hshared : List.Forall₂ (Embeds h names) table.virtualBases shared) :
    (new h.abi h.pointerSize).compose c typeName table direct shared = .ok comp := by
  obtain ⟨hc', -, htable', hdirect', hshared', hcomposed⟩ := hcomp
  obtain rfl := Option.some.inj (hc.symm.trans hc')
  obtain rfl := htable.unique htable'
  obtain rfl := embeds_unique hdirect hdirect'
  obtain rfl := embeds_unique hshared hshared'
  exact hcomposed

/-- What is registered after the layouts of a class are. -/
theorem Composes.get?_registered {id : ClassId} {typeName : String} {comp : Composition}
    (hcomp : Composes h names id typeName comp) (m : ClassModel) (name : String) :
    (m.registerComposition id comp).value.types.get? name =
      if name = typeName then some comp.full
      else if name = nonVirtualName typeName ∧ comp.nonVirtual.isSome = true then comp.nonVirtual
      else m.types.get? name := by
  obtain ⟨hfull, hnv⟩ : comp.full.name = typeName ∧
      ∀ nv, comp.nonVirtual = some nv → nv.name = nonVirtualName typeName := by
    obtain ⟨-, -, -, -, -, hcomposed⟩ := hcomp
    exact names_of_compose hcomposed
  rw [types_registerComposition]
  exact Composition.get?_register hfull hnv m.types name

/-- Under the names of a class nothing but its own layouts is registered. -/
theorem GenuineAt.get?_eq_none_or {types : TypeDatabase} {id : ClassId} {typeName : String} {comp : Composition}
    (hgen : GenuineAt h names types id) (hcomp : Composes h names id typeName comp) :
    (types.get? typeName = none ∨ types.get? typeName = some comp.full) ∧
      (types.get? (nonVirtualName typeName) = none ∨
        types.get? (nonVirtualName typeName) = comp.nonVirtual) := by
  constructor
  · cases hl : types.get? typeName with
    | none => exact .inl rfl
    | some l =>
      obtain ⟨-, comp', hcomp', rfl⟩ := (hgen _ _ hcomp.typeName).1 hl
      rw [(hcomp.unique hcomp').2]
      exact .inr rfl
  · cases hl : types.get? (nonVirtualName typeName) with
    | none => exact .inl rfl
    | some l =>
      obtain ⟨-, comp', hcomp', hnv⟩ := (hgen _ l hcomp.typeName).2 hl
      rw [(hcomp.unique hcomp').2, hnv]
      exact .inr rfl

/-- Composing on top of the layouts of the class itself is composing on top of nothing. -/
theorem GenuineAt.compose_eq {m : ClassModel} (habi : m.abi = h.abi) (hptr : m.pointerSize = h.pointerSize)
    {id : ClassId} {c : ClassType} {typeName : String} {table : BaseOffsetTable} {direct shared : List EmbeddedBase}
    (hgen : GenuineAt h names m.types id) (hc : h.classes.get? id = some c)
    (hname : names.get? id = some typeName) (htable : Resolves h id table)
    (hdirect : List.Forall₂ (Embeds h names) (table.direct.filter (!·.isVirtual)) direct)
    (hshared : List.Forall₂ (Embeds h names) table.virtualBases shared) :
    m.compose c typeName table direct shared =
      (new h.abi h.pointerSize).compose c typeName table direct shared := by
  have of_composes {comp : Composition} (hcomp : Composes h names id typeName comp) :
      m.compose c typeName table direct shared =
        (new h.abi h.pointerSize).compose c typeName table direct shared := by
    have hregistered := hgen.get?_eq_none_or hcomp
    have hcomposed := hcomp.compose_eq hc htable hdirect hshared
    rw [hcomposed]
    rw [← habi, ← hptr] at hcomposed
    exact compose_of_registered hcomposed hregistered.1 hregistered.2
  cases hfull : m.types.get? typeName with
  | some l =>
    obtain ⟨-, comp, hcomp, -⟩ := (hgen _ _ hname).1 hfull
    exact of_composes hcomp
  | none =>
    cases hnv : m.types.get? (nonVirtualName typeName) with
    | some l =>
      obtain ⟨-, comp, hcomp, -⟩ := (hgen _ _ hname).2 hnv
      exact of_composes hcomp
    | none => rw [compose_of_none hfull hnv, habi, hptr]

section
variable (hnames : Distinct names) (hm : Describes h names m) {id : ClassId} {typeName : String}
variable {comp : Composition} (hcomp : Composes h names id typeName comp)
include hnames hm hcomp

theorem Describes.extends_registerComposition :
    Extends m.types (m.registerComposition id comp).value.types := by
  obtain ⟨hfull, hnv⟩ := (hm.registered.genuineAt hnames id).get?_eq_none_or hcomp
  intro name l hl
  rw [hcomp.get?_registered]
  split
  · next heq =>
    rw [← heq, hl] at hfull
    exact (hfull.resolve_left (by simp)).symm
  · split
    · next heq =>
      rw [← heq.1, hl] at hnv
      exact (hnv.resolve_left (by simp)).symm
    · exact hl

theorem Describes.registered_registerComposition (hlays : LaysOut h names id) :
    Registered h names (m.registerComposition id comp).value.types where
  lays name l hl := by
    rw [hcomp.get?_registered] at hl
    split at hl
    · next heq => exact ⟨id, typeName, comp, hlays, hcomp, .inl ⟨heq, (Option.some.inj hl).symm⟩⟩
    · split at hl
      · next heq => exact ⟨id, typeName, comp, hlays, hcomp, .inr ⟨heq.1, hl⟩⟩
      · exact hm.registered.lays name l hl
  paired id' typeName' comp' hcomp' hcontains nv' hnv' := by
    have hmarked : ∀ name, nonVirtualName name = typeName → names.get? id' ≠ some name :=
      fun name heq h => hnames.unmarked _ _ _ h (heq ▸ hcomp.typeName)
    by_cases hsame : typeName' = typeName
    · subst hsame
      obtain rfl := hnames.injective _ _ _ hcomp.typeName hcomp'.typeName
      obtain ⟨-, rfl⟩ := hcomp.unique hcomp'
      rw [hcomp.get?_registered, if_neg fun heq => hmarked _ heq hcomp'.typeName, hnv']
      simp
    · refine hm.extends_registerComposition hnames hcomp _ _
        (hm.registered.paired id' typeName' comp' hcomp' ?_ nv' hnv')
      rw [TypeDatabase.contains, OrderedMap.contains] at hcontains ⊢
      have hget := hcomp.get?_registered m typeName'
      rw [if_neg hsame, if_neg fun heq => hnames.unmarked _ _ _ hcomp.typeName
        (heq.1 ▸ hcomp'.typeName)] at hget
      exact (congrArg Option.isSome hget).symm.trans hcontains

/-- **Registering the layouts of a class** that can be laid out. -/
theorem Describes.registerComposition (hlays : LaysOut h names id) :
    Built h names id m (.ok comp.full, (m.registerComposition id comp).value) := by
  have hkeeps := keeps_registerComposition m id comp
  refine ⟨⟨hkeeps.2 hm.coherent, hkeeps.1.hierarchy.trans hm.hierarchy,
    hkeeps.1.typeNames.trans hm.typeNames, hm.registered_registerComposition hnames hcomp hlays⟩,
    hm.extends_registerComposition hnames hcomp, fun _ _ => ⟨hlays, typeName, hcomp.typeName, ?_⟩,
    by simp⟩
  have hfull := (hcomp.get?_registered m typeName).trans (if_pos rfl)
  exact Option.isSome_iff_exists.mpr ⟨_, hfull⟩

end

/-- The offset table of a class that can be laid out is resolved. -/
theorem Describes.offsetTable_spec (hm : Describes h names m) (id : ClassId) :
    Yields h names m (fun table _ => Resolves h id table) (∀ table, ¬ Resolves h id table)
      (m.offsetTable id) where
  describes := hm.offsetTable id
  grows _ _ hl := hl
  ok _ htable := hm.over.resolves htable
  error e he table htable := by
    rw [hm.over.offsetTable_eq htable] at he
    cases he

/-! ## While bases are built -/

/-- The class `id` is being built while those in `pending` are, which inherit from it; and the fuel lasts for all
    other classes. -/
structure Underway (h : Hierarchy) (pending : List ClassId) (id : ClassId) (fuel : Nat) : Prop where
  inherits : Pending h pending id
  nodup : pending.Nodup
  known : ∀ p ∈ pending, (h.classes.get? p).isSome = true
  lasts : h.classes.size < pending.length + fuel

theorem underway_nil (h : Hierarchy) (id : ClassId) : Underway h [] id (h.classes.size + 1) :=
  ⟨.nil id, List.nodup_nil, by simp, by simp⟩

/-- There are no more pending classes than classes. -/
theorem Underway.ne_zero {pending : List ClassId} {id : ClassId} {fuel : Nat}
    (hu : Underway h pending id fuel) : fuel ≠ 0 := by
  have hle := OrderedMap.length_le_size hu.nodup hu.known
  have hlt := hu.lasts
  omega

/-- A base is built while the class is. -/
theorem Underway.base {pending : List ClassId} {id b : ClassId} {fuel : Nat} {t : BaseOffsetTable}
    (hu : Underway h pending id (fuel + 1)) (hr : Resolves h id t) (hb : h.Inherits id b) :
    Underway h (id :: pending) b fuel := by
  obtain ⟨c, hc⟩ := hr.exists_class
  have hlasts := hu.lasts
  have hnot : id ∉ pending := fun hmem => hr.not_inherits_self (hu.inherits id hmem)
  refine ⟨hu.inherits.cons_of_inherits hb, List.nodup_cons.mpr ⟨hnot, hu.nodup⟩, ?_, ?_⟩
  · simpa [hc] using hu.known
  · rw [List.length_cons]
    omega

/-! ## Embedding bases -/

section
variable (hnames : Distinct names)
include hnames

theorem ensureWith_spec {build : LayoutBuilder} {id : ClassId} (hm : Describes h names m)
    (hbuild : Built h names id m (build id m).value) :
    Built h names id m (ensureWith build id m).value := by
  unfold ensureWith
  split
  · next l hl =>
    obtain ⟨typeName, hname, hget⟩ := Option.bind_eq_some_iff.mp hl
    rw [hm.over.typeName?_eq] at hname
    refine hm.yields (fun _ _ => ⟨(hm.registered.full hnames hname hget).1, typeName, hname, ?_⟩)
      (by simp)
    exact Option.isSome_iff_exists.mpr ⟨l, hget⟩
  · exact hbuild

theorem embedBase_spec {build : LayoutBuilder} {s : BaseSubobject} (hm : Describes h names m)
    (hbuild : Built h names s.base m (build s.base m).value) :
    Yields h names m (fun b _ => Embeds h names s b ∧ LaysOut h names s.base)
      (¬ LaysOut h names s.base) (embedBase build s m).value := by
  rw [value_embedBase]
  refine (ensureWith_spec hnames hm hbuild).andThen id fun _ m₁ hm₁ hgood => ?_
  obtain ⟨hlays, typeName, hname, -⟩ := hgood
  rw [hm₁.over.typeName?_eq, hname]
  refine (hm₁.offsetTable_spec s.base).andThen (fun hnone _ => ?_) fun table m₂ hm₂ htable => ?_
  · obtain ⟨table, htable⟩ := hlays.resolves
    exact hnone table htable
  · refine hm₂.yields ?_ (by simp)
    rintro _ ⟨⟩
    exact ⟨⟨typeName, table, hname, htable, rfl⟩, hlays⟩

theorem embedBases_spec {build : LayoutBuilder} :
    ∀ (l : List BaseSubobject) {m : ClassModel}, Describes h names m →
      (∀ s ∈ l, ∀ m', Describes h names m' → Built h names s.base m' (build s.base m').value) →
      Yields h names m
        (fun bases _ => List.Forall₂ (Embeds h names) l bases ∧ ∀ s ∈ l, LaysOut h names s.base)
        (∃ s ∈ l, ¬ LaysOut h names s.base) (embedBases build l m).value
  | [], m, hm, _ => by
    refine hm.yields ?_ (by simp)
    rintro _ ⟨⟩
    exact ⟨.nil, by simp⟩
  | s :: rest, m, hm, hbuild => by
    simp only [List.mem_cons, forall_eq_or_imp] at hbuild
    rw [value_embedBases_cons]
    refine (embedBase_spec hnames hm (hbuild.1 m hm)).andThen ?_ fun b m₁ hm₁ hb => ?_
    · exact fun hnot => ⟨s, List.mem_cons_self, hnot⟩
    · have hrest := embedBases_spec rest hm₁ hbuild.2
      generalize (embedBases build rest m₁).value = r at hrest ⊢
      rcases r with ⟨e | bases, m₂⟩
      · refine ⟨hrest.describes, hrest.grows, by rintro _ ⟨⟩, fun _ _ => ?_⟩
        obtain ⟨s', hs', hnot⟩ := hrest.error e rfl
        exact ⟨s', List.mem_cons_of_mem _ hs', hnot⟩
      · refine ⟨hrest.describes, hrest.grows, ?_, by rintro _ ⟨⟩⟩
        rintro _ ⟨⟩
        obtain ⟨hbases, hall⟩ := hrest.ok bases rfl
        exact ⟨.cons hb.1 hbases, by simpa using ⟨hb.2, hall⟩⟩

/-! ## Building one layout -/

section
variable {id : ClassId} {c : ClassType} {typeName : String} {table : BaseOffsetTable}
variable {direct shared : List EmbeddedBase}

/-- The last step of building: the bases have layouts, and are embedded. -/
theorem Describes.compose_spec (hm : Describes h names m) (hc : h.classes.get? id = some c)
    (hname : names.get? id = some typeName) (htable : Resolves h id table)
    (hdirect : List.Forall₂ (Embeds h names) (table.direct.filter (!·.isVirtual)) direct ∧
      ∀ s ∈ table.direct.filter (!·.isVirtual), LaysOut h names s.base)
    (hshared : List.Forall₂ (Embeds h names) table.virtualBases shared ∧
      ∀ s ∈ table.virtualBases, LaysOut h names s.base) :
    Built h names id m
      (match m.compose c typeName table direct shared with
        | .error e => (.error (.layout id e), m)
        | .ok comp => (.ok comp.full, (m.registerComposition id comp).value)) := by
  have hcompose := (hm.registered.genuineAt hnames id).compose_eq hm.over.abi_eq hm.over.pointerSize_eq hc hname
    htable hdirect.1 hshared.1
  cases hcomp : m.compose c typeName table direct shared with
  | error e =>
    refine hm.yields (by simp) fun _ _ hlays => ?_
    obtain ⟨_, _, hcomposes⟩ := hlays.composes
    obtain rfl := Option.some.inj (hname.symm.trans hcomposes.typeName)
    rw [hcompose, hcomposes.compose_eq hc htable hdirect.1 hshared.1] at hcomp
    cases hcomp
  | ok comp =>
    have hcomposes : Composes h names id typeName comp :=
      .mk hc hname htable hdirect.1 hshared.1 (hcompose ▸ hcomp)
    exact hm.registerComposition hnames hcomposes (.mk htable hdirect.2 hshared.2 hcomposes)

end

/-- **Building the layout of a class**, while the layouts of classes that inherit from it are being
    built. -/
theorem buildWithin_spec {fuel : Nat} {pending : List ClassId} {id : ClassId}
    (hm : Describes h names m) (hunderway : Underway h pending id fuel) :
    Built h names id m (buildWithin fuel id m).value := by
  induction fuel generalizing pending id m with
  | zero => exact absurd rfl hunderway.ne_zero
  | succ fuel ih =>
    rw [value_buildWithin_succ]
    refine (hm.offsetTable_spec id).andThen (fun hnone hlays => ?_) fun table m₁ hm₁ htable => ?_
    · obtain ⟨table, htable⟩ := hlays.resolves
      exact hnone table htable
    obtain ⟨c, hc⟩ := htable.exists_class
    have hbases : ∀ s ∈ table.entries, ∀ m', Describes h names m' →
        Built h names s.base m' (buildWithin fuel s.base m').value := fun s hs _ hm' =>
      ih hm' (hunderway.base htable (htable.inherits_of_mem s hs))
    change Built h names id m₁ _
    rw [hm₁.over.get?_eq, hm₁.over.typeName?_eq, hc]
    rcases Option.eq_none_or_eq_some (names.get? id) with hname | ⟨typeName, hname⟩
    · rw [hname]
      refine hm₁.yields (by simp) fun _ _ hlays => ?_
      obtain ⟨_, _, hcomp⟩ := hlays.composes
      rw [hcomp.typeName] at hname
      cases hname
    · rw [hname]
      have hdirect := embedBases_spec hnames (table.direct.filter (!·.isVirtual)) hm₁ fun s hs =>
        hbases s (List.mem_of_mem_filter (List.mem_of_mem_filter hs))
      refine hdirect.andThen ?_ fun direct m₂ hm₂ hdirect => ?_
      · rintro ⟨s, hs, hnot⟩ hlays
        exact hnot ((hlays.bases htable).1 s hs)
      have hshared := embedBases_spec hnames table.virtualBases hm₂ fun s hs =>
        hbases s (List.mem_of_mem_filter hs)
      refine hshared.andThen ?_ fun shared m₃ hm₃ hshared => ?_
      · rintro ⟨s, hs, hnot⟩ hlays
        exact hnot ((hlays.bases htable).2 s hs)
      exact hm₃.compose_spec hnames hc hname htable hdirect hshared

/-- **Building the layout of a class** succeeds if and only if the class can be laid out. -/
theorem buildLayout_spec (hm : Describes h names m) (id : ClassId) :
    Built h names id m (m.buildLayout id).value := by
  have hsize : m.size = h.classes.size := by
    rw [← hm.hierarchy]
    rfl
  rw [buildLayout, hsize]
  exact buildWithin_spec hnames hm (underway_nil h id)

end

end

end ClassModel

end ClassRecovery
