/-
  What comes of building a layout.

  Building a class fails if and only if the class has no offset table, for the same reason and before anything is
  registered; else there are layouts for the class and for all bases that are embedded in it
  (`ClassModel.buildLayout_outcome`).  The bound on the depth of building never shows: a class that is built within
  some depth is built alike within any larger one (`ClassModel.buildWithin_persists`).
-/
import ClassRecovery.Proofs.Model.Success
import ClassRecovery.Proofs.Offsets.Soundness

namespace ClassRecovery

namespace ClassModel

/-! ## Larger depths -/

/-- If the first step succeeds, the second is the same. -/
def Persists {α : Type} (x x' : Except ModelError α × ClassModel) : Prop :=
  ∀ a, x.1 = .ok a → x' = x

theorem Persists.refl {α : Type} (x : Except ModelError α × ClassModel) : Persists x x :=
  fun _ _ => rfl

theorem Persists.andThen {α β : Type} {x x' : Except ModelError α × ClassModel}
    {f f' : α → ClassModel → Except ModelError β × ClassModel} (hx : Persists x x')
    (hf : ∀ a m, Persists (f a m) (f' a m)) : Persists (andThen x f) (andThen x' f') := by
  intro b hb
  rcases x with ⟨e | a, m⟩
  · cases hb
  · obtain rfl := hx a rfl
    exact hf a m b hb

section
variable {build build' : LayoutBuilder}
  (hbuild : ∀ id m, Persists (build id m).value (build' id m).value)
include hbuild

theorem ensureWith_persists (id : ClassId) (m : ClassModel) :
    Persists (ensureWith build id m).value (ensureWith build' id m).value := by
  unfold ensureWith
  cases m.layout? id with
  | some l => exact .refl _
  | none => exact hbuild id m

theorem embedBase_persists (s : BaseSubobject) (m : ClassModel) :
    Persists (embedBase build s m).value (embedBase build' s m).value := by
  rw [value_embedBase, value_embedBase]
  exact (ensureWith_persists hbuild s.base m).andThen fun _ m₁ => .refl _

theorem embedBases_persists : ∀ (l : List BaseSubobject) (m : ClassModel),
    Persists (embedBases build l m).value (embedBases build' l m).value
  | [], _ => .refl _
  | s :: rest, m => by
    rw [value_embedBases_cons, value_embedBases_cons]
    refine (embedBase_persists hbuild s m).andThen fun b m₁ bases hbases => ?_
    cases hrest : (embedBases build rest m₁).value.1 with
    | error e =>
      rw [hrest] at hbases
      cases hbases
    | ok more => rw [embedBases_persists rest m₁ more hrest, hrest]

end

/-- **A class that is built within some depth** is built alike within any larger one. -/
theorem buildWithin_persists {fuel depth : ℕ} (hle : fuel ≤ depth) (id : ClassId) (m : ClassModel) :
    Persists (buildWithin fuel id m).value (buildWithin depth id m).value := by
  induction fuel generalizing depth id m with
  | zero =>
    intro l hl
    cases hl
  | succ fuel ih =>
    obtain ⟨depth, rfl⟩ : ∃ d, depth = d + 1 := ⟨depth - 1, by omega⟩
    have hbuild := fun id m => ih (Nat.le_of_succ_le_succ hle) id m
    rw [value_buildWithin_succ, value_buildWithin_succ]
    refine Persists.andThen (.refl _) fun table m₁ => ?_
    cases m₁.get? id with
    | none => exact .refl _
    | some c =>
      cases m₁.typeName? id with
      | none => exact .refl _
      | some typeName =>
        refine (embedBases_persists hbuild _ m₁).andThen fun direct m₂ => ?_
        exact (embedBases_persists hbuild _ m₂).andThen fun shared m₃ => .refl _

/-- A class without an offset table is not built. -/
theorem value_buildWithin_of_error {m : ClassModel} {id : ClassId} {e : ModelError}
    (he : (m.offsetTable id).1 = .error e) (fuel : ℕ) :
    (buildWithin (fuel + 1) id m).value = (.error e, (m.offsetTable id).2) := by
  have hpair : m.offsetTable id = (.error e, (m.offsetTable id).2) := Prod.ext he rfl
  rw [value_buildWithin_succ, hpair]
  rfl

/-! ## Outcomes -/

/-- With `l` as the layout of the class `id`, the model `m'` has all layouts that the class needs. -/
structure Furnishes (m : ClassModel) (id : ClassId) (l : Layout) (m' : ClassModel) : Prop where
  known : (m.get? id).isSome = true
  /-- Unless layouts are stored under other names than their own. -/
  own : m.types.Keyed → m'.layout? id = some l
  full : (m'.layout? id).isSome = true
  nonVirtual : (∃ v, m.hierarchy.VirtualBase id v) →
    ∃ typeName, m.typeName? id = some typeName ∧ m'.types.contains (nonVirtualName typeName) = true
  direct : ∀ c, m.get? id = some c → ∀ spec ∈ c.bases, spec.isVirtual = false →
    (m'.layout? spec.base).isSome = true
  shared : ∀ v, m.hierarchy.VirtualBase id v → (m'.layout? v).isSome = true

/-- What comes of building the class `id`: a layout, or else the error in place of its offset table. -/
structure Outcome (m : ClassModel) (id : ClassId) (r : Except ModelError Layout × ClassModel) :
    Prop where
  /-- The depth was no bound. -/
  ends : ∀ depth, m.size < depth → (buildWithin depth id m).value = r
  fails_iff : ∀ e, r.1 = .error e ↔ (m.offsetTable id).1 = .error e
  composes : ∀ d cause, r.1 ≠ .error (.layout d cause)
  unchanged : ∀ e, r.1 = .error e → r.2.types = m.types
  furnished : ∀ l, r.1 = .ok l → m.Furnishes id l r.2

section
variable {m : ClassModel} {id : ClassId}

theorem Coherent.outcome_of_error (hm : m.Coherent) {e : ModelError}
    (he : (m.offsetTable id).1 = .error e) : m.Outcome id (m.buildLayout id).value := by
  have hvalue : (m.buildLayout id).value = (.error e, (m.offsetTable id).2) :=
    value_buildWithin_of_error he m.size
  have hblames := (hm.decides id).blames e he
  rw [hvalue]
  refine ⟨fun depth hdepth => ?_, fun e' => ?_, ?_, fun _ _ => rfl, by rintro l ⟨⟩⟩
  · obtain ⟨d, rfl⟩ : ∃ d, depth = d + 1 := ⟨depth - 1, by omega⟩
    exact value_buildWithin_of_error he d
  · rw [he, Except.error.injEq, Except.error.injEq]
  · rintro d cause hlayout
    cases hlayout
    exact hblames

/-- The layout that building gives is that of the class, if layouts are stored under their own names. -/
theorem Coherent.layout?_of_built (hm : m.Coherent) (hkeyed : m.types.Keyed) {l : Layout} {m' : ClassModel}
    (hbuilt : (m.buildLayout id).value = (.ok l, m')) : m'.layout? id = some l := by
  have hbuilds : BuildsTo m.hierarchy m.typeNames id m.types (m.buildLayout id).value :=
    buildWithin_result (m.size + 1) id m (hm.shows hkeyed)
  rw [hbuilt] at hbuilds
  obtain ⟨hshows, hresult⟩ := hbuilds
  dsimp only at hshows hresult
  rw [layout?, hshows.typeName?_eq]
  generalize m'.types = types at hresult ⊢
  cases hresult with
  | ok hgrows hcomp =>
    obtain ⟨-, hname, -, -, -, -, hcomposed⟩ := hcomp
    obtain ⟨hfull, hnv⟩ := names_of_compose_on (hgrows.keyed hkeyed) hcomposed
    rw [hname]
    exact (Composition.get?_register hfull hnv _ _).trans (if_pos rfl)

/-- What the table of the class asks for is what the class does: its bases that are not virtual are those of the
    table, and so are its virtual bases at any depth. -/
theorem Supplied.furnishes {t : BaseOffsetTable} {l : Layout} {m' : ClassModel}
    (hsupplied : Supplied m.typeNames id t m'.types) (hm' : Over m.hierarchy m.typeNames m')
    (hr : Resolves m.hierarchy id t) (hown : m.types.Keyed → m'.layout? id = some l) :
    m.Furnishes id l m' := by
  have hlayout {b : ClassId} (hb : HasLayout m.typeNames m'.types b) : (m'.layout? b).isSome = true := by
    obtain ⟨typeName, hname, hcontains⟩ := hb
    rw [layout?, hm'.typeName?_eq, hname]
    exact hcontains
  obtain ⟨hdirect, hshared⟩ := List.forall_mem_append.mp hsupplied.bases
  have hvirtual {v : ClassId} (hv : m.hierarchy.VirtualBase id v) : ∃ s ∈ t.virtualBases, s.base = v :=
    List.mem_map.mp ((hr.mem_virtualBases_iff.2 v).mpr hv)
  refine ⟨Option.isSome_iff_exists.mpr hr.exists_class, hown, hlayout hsupplied.full, ?_, ?_, ?_⟩
  · rintro ⟨v, hv⟩
    obtain ⟨s, hs, -⟩ := hvirtual hv
    obtain ⟨hs, hmarked⟩ := List.mem_filter.mp hs
    obtain ⟨typeName, hname, -⟩ := hsupplied.full
    exact ⟨typeName, hname, hsupplied.nonVirtual (List.any_eq_true.mpr ⟨s, hs, hmarked⟩) typeName hname⟩
  · intro c hc spec hspec hplain
    have hmem : spec.base ∈ (c.bases.filter (!·.isVirtual)).map (·.base) :=
      List.mem_map_of_mem (List.mem_filter.mpr ⟨hspec, by rw [hplain]; rfl⟩)
    rw [← hr.map_ownBases hc] at hmem
    obtain ⟨s, hs, heq⟩ := List.mem_map.mp hmem
    exact heq ▸ hlayout (hdirect s hs)
  · intro v hv
    obtain ⟨s, hs, rfl⟩ := hvirtual hv
    exact hlayout (hshared s hs)

theorem Coherent.outcome_of_ok (hm : m.Coherent) (htitled : m.Titled) (hptr : 0 < m.pointerSize)
    {t : BaseOffsetTable} (ht : (m.offsetTable id).1 = .ok t) :
    m.Outcome id (m.buildLayout id).value := by
  have hr : Resolves m.hierarchy id t := hm.resolves ht
  have hnamed : ∀ d c, m.hierarchy.classes.get? d = some c → (m.typeNames.get? d).isSome = true := htitled
  obtain ⟨l, m', hbuilt, hm', -, hsupplied⟩ :=
    buildWithin_succeeds hptr hnamed ⟨hm, rfl, rfl⟩ hr (underway_nil m.hierarchy id)
  have hbuilt : (m.buildLayout id).value = (.ok l, m') := hbuilt
  rw [hbuilt]
  refine ⟨fun depth hdepth => ?_, fun e => ?_, ?_, ?_, ?_⟩
  · have hvalue := buildWithin_persists (Nat.succ_le_of_lt hdepth) id m l (congrArg Prod.fst hbuilt)
    exact hvalue.trans hbuilt
  · rw [ht]
    constructor <;> rintro ⟨⟩
  · rintro d cause ⟨⟩
  · rintro e ⟨⟩
  · rintro _ ⟨⟩
    exact hsupplied.furnishes hm' hr fun hkeyed => hm.layout?_of_built hkeyed hbuilt

end

/-- **Building fails exactly where the class has no offset table**, and then changes nothing; else there are
    layouts of the class and of its bases.  This holds of every model and whatever is registered in it. -/
theorem buildLayout_outcome (abi : Abi) (pointerSize : Word) (hptr : pointerSize = 4 ∨ pointerSize = 8)
    (ops : List Operation) (types : TypeDatabase) (id : ClassId) :
    let m := { reached abi pointerSize ops with types }
    m.Outcome id (m.buildLayout id).value := by
  intro m
  have hreached := coherent_reached abi pointerSize ops
  have hm : m.Coherent := hreached.of_hierarchy rfl hreached.tables
  have htitled : m.Titled := titled_reached abi pointerSize ops
  have hpointer : 0 < m.pointerSize := by
    change 0 < (reached abi pointerSize ops).pointerSize
    rw [(parameters_reached abi pointerSize ops).2]
    rcases hptr with rfl | rfl <;> decide
  cases ht : (m.offsetTable id).1 with
  | error e => exact hm.outcome_of_error ht
  | ok t => exact hm.outcome_of_ok htitled hpointer ht

/-- A diamond, and a class with a base that is fine and another that is missing.  Under the name of the diamond's
    bottom, a layout of another name is stored. -/
theorem buildLayout_outcome_diamond :
    let ops : List Operation :=
      [.insert { id := 1, name := "Top", vtable := some (.ofTargets 4096 1 4 [8192]), memberSize := 4 },
        .insert { id := 2, name := "Left", bases := [⟨1, true, true, none⟩], memberSize := 8 },
        .insert { id := 3, name := "Right", bases := [⟨1, true, true, none⟩] },
        .insert { id := 4, name := "Bottom", bases := [⟨2, false, true, none⟩, ⟨3, false, true, none⟩] },
        .insert { id := 5, name := "Torn", bases := [⟨1, false, true, none⟩, ⟨9, false, true, none⟩] }]
    let types : TypeDatabase := ⟨.ofList [("Bottom", .empty "Foreign" 4 4)]⟩
    let m := { reached .itanium 8 ops with types }
    (∃ l m', (m.buildLayout 4).value = (.ok l, m') ∧ (m'.layout? 1).isSome = true ∧
      (m'.layout? 2).isSome = true) ∧
    (m.buildLayout 5).value.1 = .error (.unknownClass 9) ∧ (m.buildLayout 5).value.2.types = m.types := by
  intro ops types m
  have houtcome (id : ClassId) : m.Outcome id (m.buildLayout id).value :=
    buildLayout_outcome .itanium 8 (.inr rfl) ops types id
  constructor
  · have hok : (m.offsetTable 4).1.isOk = true := by decide +kernel
    rcases hbuilt : (m.buildLayout 4).value with ⟨e | l, m'⟩
    · have htable := ((houtcome 4).fails_iff e).mp (congrArg Prod.fst hbuilt)
      rw [htable] at hok
      cases hok
    · have hfurnished := (houtcome 4).furnished l (congrArg Prod.fst hbuilt)
      rw [hbuilt] at hfurnished
      have hbases : (m.get? 4).map (·.bases) = some [⟨2, false, true, none⟩, ⟨3, false, true, none⟩] := by
        decide +kernel
      have hbases' : (m.get? 2).map (·.bases) = some [⟨1, true, true, none⟩] := by decide +kernel
      obtain ⟨c, hc, hspecs⟩ := Option.map_eq_some_iff.mp hbases
      obtain ⟨c', hc', hspecs'⟩ := Option.map_eq_some_iff.mp hbases'
      have hleft : (⟨2, false, true, none⟩ : BaseSpec) ∈ c.bases := hspecs ▸ List.mem_cons_self
      have htop : (⟨1, true, true, none⟩ : BaseSpec) ∈ c'.bases := hspecs' ▸ List.mem_cons_self
      have hvirtual : m.hierarchy.VirtualBase 4 1 :=
        ⟨2, c', .single ⟨c, hc, _, hleft, rfl⟩, hc', _, htop, rfl, rfl⟩
      exact ⟨l, m', rfl, hfurnished.shared 1 hvirtual, hfurnished.direct c hc _ hleft rfl⟩
  · have hfails : (m.buildLayout 5).value.1 = .error (.unknownClass 9) :=
      ((houtcome 5).fails_iff _).mpr (by decide +kernel)
    exact ⟨hfails, (houtcome 5).unchanged _ hfails⟩

end ClassModel

end ClassRecovery
