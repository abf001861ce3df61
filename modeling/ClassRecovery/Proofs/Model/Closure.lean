/-
  Registered layouts name registered layouts.

  In a model to which classes are only inserted, whatever is built, in whatever order and whether it succeeds or
  fails: with the layout of a class those of the bases that it embeds are registered (`Closed`), and each has the
  size that it takes where it is embedded (`Laid.exists_embedded`).  This needs type names of which none
  is another one with the mark of non-virtual parts.
-/
import ClassRecovery.Proofs.Model.Compositions
import ClassRecovery.Proofs.Model.Steps

namespace ClassRecovery

namespace ClassModel

/-! ## Closed databases -/

/-- With a class, the bases that its layout embeds have layouts, and with the layout of a non-virtual part that of the
    whole class is registered. -/
structure Closed (h : Hierarchy) (names : OrderedMap ClassId String) (types : TypeDatabase) : Prop where
  bases : ∀ id t, HasLayout names types id → Resolves h id t →
    ∀ s ∈ t.outermost, HasLayout names types s.base
  whole : ∀ id name, names.get? id = some name → types.contains (nonVirtualName name) = true →
    types.contains name = true

section
variable {h : Hierarchy} {names : OrderedMap ClassId String} {types : TypeDatabase} {e : ClassId}
  {comp : Composition}

/-- After the layouts of a class are registered there are layouts of its names, and those of before. -/
theorem ComposesOn.of_contains (hkeyed : types.Keyed) (hcomp : ComposesOn h names types e comp)
    {n : String} (hn : (comp.register types).contains n = true) :
    ∃ name, names.get? e = some name ∧
      (n = name ∨ n = nonVirtualName name ∨ types.contains n = true) := by
  obtain ⟨-, hname, -, -, -, -, hcomposed⟩ := hcomp
  obtain ⟨hfull, hnv⟩ := names_of_compose_on hkeyed hcomposed
  refine ⟨_, hname, ?_⟩
  obtain ⟨l, hl⟩ := Option.isSome_iff_exists.mp hn
  change (comp.register types).get? n = some l at hl
  rw [Composition.get?_register hfull hnv] at hl
  split at hl
  · next heq => exact .inl heq
  · split at hl
    · next heq => exact .inr (.inl heq.1)
    · exact .inr (.inr (Option.isSome_iff_exists.mpr ⟨l, hl⟩))

section
variable (hnames : Distinct names)
include hnames

/-- Registering the layouts of a class gives no other class a layout. -/
theorem ComposesOn.of_hasLayout (hkeyed : types.Keyed) (hcomp : ComposesOn h names types e comp)
    {id : ClassId} (hl : HasLayout names (comp.register types) id) :
    id = e ∨ HasLayout names types id := by
  obtain ⟨n, hn, hcontains⟩ := hl
  obtain ⟨name, hname, rfl | rfl | hbefore⟩ := hcomp.of_contains hkeyed hcontains
  · exact .inl (hnames.injective _ _ _ hn hname)
  · exact absurd hn (hnames.unmarked _ _ _ hname)
  · exact .inr ⟨n, hn, hbefore⟩

/-- **Registering the layouts of a class keeps a database closed.** -/
theorem Closed.register (hclosed : Closed h names types) (hkeyed : types.Keyed)
    (hcomp : ComposesOn h names types e comp) : Closed h names (comp.register types) where
  bases id t hl ht s hs := by
    rcases hcomp.of_hasLayout hnames hkeyed hl with rfl | hl
    · obtain ⟨-, -, htable, -, -, hlayouts, -⟩ := hcomp
      obtain rfl := htable.unique ht
      exact (hlayouts s hs).register comp
    · exact (hclosed.bases id t hl ht s hs).register comp
  whole id n hn hcontains := by
    obtain ⟨n', hn', hown⟩ := hcomp.hasLayout hkeyed
    obtain ⟨name, hname, heq | heq | hbefore⟩ := hcomp.of_contains hkeyed hcontains
    · exact absurd (heq ▸ hname) (hnames.unmarked _ _ _ hn)
    · obtain rfl := nonVirtualName_injective heq
      rwa [Option.some.inj (hname.symm.trans hn')]
    · exact Composition.contains_register (.inl (hclosed.whole id n hn hbefore))

theorem Closed.grows {root : ClassId} {start : TypeDatabase} (hclosed : Closed h names start)
    (hkeyed : start.Keyed) (hgrows : Grows h names root start types) : Closed h names types := by
  induction hgrows with
  | refl => exact hclosed
  | step hgrows _ _ hcomp ih => exact ih.register hnames (hgrows.keyed hkeyed) hcomp

/-- **Building keeps a database closed**, whether it succeeds or fails. -/
theorem Closed.built {root : ClassId} {start : TypeDatabase} (hclosed : Closed h names start)
    (hkeyed : start.Keyed) {r : Except ModelError Layout}
    (hresult : BuildResult h names root start r types) : Closed h names types := by
  cases hresult with
  | error hgrows => exact hclosed.grows hnames hkeyed hgrows
  | ok hgrows hcomp =>
    exact (hclosed.grows hnames hkeyed hgrows).register hnames (hgrows.keyed hkeyed) hcomp

end

end

/-! ## Models that are only built -/

/-- Whether the operation brings in a class, or a layout made by hand. -/
def Operation.isInput : Operation → Bool
  | .insert _ | .registerLayout _ => true
  | _ => false

/-- What is registered are layouts of the given classes and all that they embed, under their names. -/
structure Laid (h : Hierarchy) (names : OrderedMap ClassId String) (m : ClassModel) : Prop where
  describes : Describes h names m
  keyed : m.types.Keyed
  closed : Closed h names m.types

theorem laid_of_untouched {m : ClassModel} (hm : m.Coherent) (h : m.Untouched) :
    Laid m.hierarchy m.typeNames m := by
  refine ⟨describes_of_untouched hm h, ?_, ?_, ?_⟩
  · intro name l hl
    rw [h.types] at hl
    cases hl
  · rintro id t ⟨name, -, hcontains⟩
    rw [h.types] at hcontains
    cases hcontains
  · intro id name _ hcontains
    rw [h.types] at hcontains
    cases hcontains

section
variable {h : Hierarchy} {names : OrderedMap ClassId String} (hnames : Distinct names)
  {m : ClassModel}

theorem Laid.shows (hm : Laid h names m) : Shows h names m :=
  ⟨hm.describes.over, hm.keyed⟩

include hnames

theorem Laid.buildLayout (hm : Laid h names m) (id : ClassId) :
    Laid h names (m.buildLayout id).value.2 := by
  obtain ⟨hshows, hresult⟩ := buildWithin_result (m.size + 1) id m hm.shows
  exact ⟨(buildLayout_spec hnames hm.describes id).describes, hshows.keyed,
    hm.closed.built hnames hm.keyed hresult⟩

/-- **Every operation but inputs** keeps such a model. -/
theorem Laid.apply (hm : Laid h names m) {op : Operation} (hop : op.isInput = false) :
    Laid h names (m.apply op) := by
  cases op with
  | insert | registerLayout => cases hop
  | offsetTable id => exact ⟨hm.describes.offsetTable id, hm.keyed, hm.closed⟩
  | buildLayout id => exact hm.buildLayout hnames id
  | ensureLayout id =>
    change Laid h names (ensureWith (buildWithin (m.size + 1)) id m).value.2
    unfold ensureWith
    split
    · exact hm
    · exact hm.buildLayout hnames id
  | setState | setInterrupted | markAnalyzed | record =>
    obtain ⟨⟨hcoherent, hhierarchy, htypeNames, hregistered⟩, hkeyed, hclosed⟩ := hm
    exact ⟨⟨hcoherent.apply _, hhierarchy, htypeNames, hregistered⟩, hkeyed, hclosed⟩

theorem Laid.applyAll (hm : Laid h names m) {ops : List Operation}
    (hops : ∀ op ∈ ops, op.isInput = false) : Laid h names (m.applyAll ops) := by
  induction ops generalizing m with
  | nil => exact hm
  | cons op ops ih =>
    simp only [List.mem_cons, forall_eq_or_imp] at hops
    exact ih (hm.apply hnames hops.1) hops.2

/-! ## Embedded layouts are registered -/

/-- The layouts of a class that has one. -/
theorem Laid.composes (hm : Laid h names m) {id : ClassId} {typeName : String}
    (hname : names.get? id = some typeName) (hcontains : m.types.contains typeName = true) :
    ∃ t comp, Resolves h id t ∧ Composes h names id typeName comp ∧
      m.types.get? typeName = some comp.full ∧
      m.types.get? (partName typeName t) = some comp.part := by
  obtain ⟨l, hl⟩ := Option.isSome_iff_exists.mp hcontains
  obtain ⟨hlays, comp, hcomp, rfl⟩ := hm.describes.registered.full hnames hname hl
  obtain ⟨t, ht⟩ := hlays.resolves
  refine ⟨t, comp, ht, hcomp, hl, ?_⟩
  obtain ⟨-, -, -, -, -, -, -, -, ⟨hplain, hnone⟩ | ⟨-, nv, hvirtual, hnv, -⟩⟩ := hcomp.composed ht
  · rw [partName, hplain, Composition.part, hnone]
    exact hl
  · rw [partName, hvirtual, Composition.part, hnv]
    exact hm.describes.registered.paired id typeName comp hcomp hcontains nv hnv

/-- **A registered layout embeds registered layouts**, each with its own size. -/
theorem Laid.exists_embedded (hm : Laid h names m) {name : String} {l : Layout}
    (hl : m.types.get? name = some l) {f : Field} (hf : f ∈ l.fields) {layout : String}
    (hkind : f.kind = .base layout) :
    ∃ l', m.types.get? layout = some l' ∧ l'.size = f.size := by
  obtain ⟨id, typeName, comp, hlays, hcomp, hcase⟩ := hm.describes.registered.lays name l hl
  have hcontains : m.types.contains name = true := Option.isSome_iff_exists.mpr ⟨l, hl⟩
  have hlayout : HasLayout names m.types id := by
    refine ⟨typeName, hcomp.typeName, ?_⟩
    rcases hcase with ⟨rfl, -⟩ | ⟨rfl, -⟩
    · exact hcontains
    · exact hm.closed.whole id typeName hcomp.typeName hcontains
  obtain ⟨t, ht⟩ := hlays.resolves
  have hbase : f.isBase = true := by
    rw [Field.isBase, hkind]
  obtain ⟨s, hs, _, ⟨baseName, table, hname, htable, rfl⟩, rfl⟩ :=
    hcomp.embeds_of_isBase ht (hcase.imp And.right And.right) hf hbase
  obtain ⟨n, hn, hcontains'⟩ := hm.closed.bases id t hlayout ht s hs
  obtain rfl := Option.some.inj (hname.symm.trans hn)
  obtain ⟨table', comp', htable', hcomp', -, hpart⟩ := hm.composes hnames hname hcontains'
  obtain rfl := htable.unique htable'
  obtain rfl : partName baseName table = layout := FieldKind.base.inj hkind
  exact ⟨comp'.part, hpart, (hcomp'.sizes htable).2⟩

end

end ClassModel

end ClassRecovery
