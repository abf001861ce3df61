/-
  Names that classes share.

  A class with virtual bases has a second name, its type name with a mark, and nothing keeps another class from
  having that name as its type name: then the two share a layout (`ClassModel.buildLayout_overwrites`).  In no
  other way do classes share a name, and in no other way does building a class change the layout of
  another one that has a layout already (`ClassModel.buildLayout_frame`).
-/
import ClassRecovery.Proofs.Model.Steps

namespace ClassRecovery

/-- A class has one base, if its only direct base has none. -/
theorem Hierarchy.eq_of_inherits {h : Hierarchy} {a b d : ClassId}
    (ha : (h.classes.get? a).map (·.bases.map (·.base)) = some [b])
    (hb : (h.classes.get? b).map (·.bases.map (·.base)) = some []) (hd : h.Inherits a d) : d = b := by
  have step {a d : ClassId} {l : List ClassId}
      (ha : (h.classes.get? a).map (·.bases.map (·.base)) = some l) (hstep : h.DirectBase a d) :
      d ∈ l := by
    obtain ⟨c, hc, spec, hspec, rfl⟩ := hstep
    rw [hc] at ha
    exact Option.some.inj ha ▸ List.mem_map_of_mem hspec
  induction hd with
  | single hstep => simpa using step ha hstep
  | tail _ hstep ih =>
    subst ih
    simpa using step hb hstep

namespace ClassModel

/-- The names under which building a class registers layouts: its type name and, if it has virtual bases, that name
    with a mark. -/
def layoutNames (m : ClassModel) (id : ClassId) : List String :=
  match m.typeName? id, (m.offsetTable id).1 with
  | some name, .ok t => if t.hasVirtualBases then [name, nonVirtualName name] else [name]
  | _, _ => []

/-- The type name of `d` is the name of the non-virtual part of `e`. -/
def Shadows (m : ClassModel) (e d : ClassId) : Prop :=
  ∃ name, m.typeName? e = some name ∧ nonVirtualName name ∈ m.layoutNames e ∧
    m.typeName? d = some (nonVirtualName name)

/-! ## The names of a class -/

section
variable {h : Hierarchy} {names : OrderedMap ClassId String} {m : ClassModel} (hm : Shows h names m)

theorem mem_layoutNames_iff {id : ClassId} {n : String} :
    n ∈ m.layoutNames id ↔ ∃ name t, m.typeName? id = some name ∧ (m.offsetTable id).1 = .ok t ∧
      (n = name ∨ n = nonVirtualName name ∧ t.hasVirtualBases = true) := by
  unfold layoutNames
  cases m.typeName? id with
  | none => simp
  | some name =>
    cases (m.offsetTable id).1 with
    | error e => simp
    | ok t => cases hv : t.hasVirtualBases <;> simp [hv]

/-- Different classes share a name only if one shadows the other. -/
theorem shadows_of_mem_layoutNames (hnamed : m.Named) {c d : ClassId} (hne : c ≠ d) {n : String}
    (hc : n ∈ m.layoutNames c) (hd : n ∈ m.layoutNames d) : m.Shadows c d ∨ m.Shadows d c := by
  obtain ⟨name, t, hname, -, rfl | ⟨rfl, -⟩⟩ := mem_layoutNames_iff.mp hc <;>
    obtain ⟨name', t', hname', -, heq | ⟨heq, -⟩⟩ := mem_layoutNames_iff.mp hd
  · subst heq
    exact absurd (hnamed.injective hname hname') hne
  · subst heq
    exact .inr ⟨name', hname', hd, hname⟩
  · subst heq
    exact .inl ⟨name, hname, hc, hname'⟩
  · obtain rfl := nonVirtualName_injective heq
    exact absurd (hnamed.injective hname hname') hne

/-! ## What changes -/

include hm

/-- Only under the names of a class are its layouts registered. -/
theorem ComposesOn.mem_layoutNames {types : TypeDatabase} (hkeyed : types.Keyed) {e : ClassId}
    {comp : Composition} (hcomp : ComposesOn h names types e comp) {n : String}
    (hn : (comp.register types).get? n ≠ types.get? n) : n ∈ m.layoutNames e := by
  obtain ⟨-, hname, htable, -, -, -, hcomposed⟩ := hcomp
  obtain ⟨hfull, hnv⟩ := names_of_compose_on hkeyed hcomposed
  refine mem_layoutNames_iff.mpr
    ⟨_, _, (hm.typeName?_eq e).trans hname, hm.offsetTable_eq htable, ?_⟩
  rw [Composition.get?_register hfull hnv] at hn
  split at hn
  · next heq => exact .inl heq
  · split at hn
    · next heq =>
      refine .inr ⟨heq.1, ?_⟩
      obtain ⟨-, -, ⟨-, hnone, -⟩ | ⟨-, -, hvirtual, -⟩⟩ := compose_ok_iff.mp hcomposed
      · simp [hnone] at heq
      · exact hvirtual
    · exact absurd rfl hn

/-- What is registered changes only under the names of bases that had no layout. -/
theorem Grows.exists_of_get?_ne {root : ClassId} {start types : TypeDatabase} (hkeyed : start.Keyed)
    (hgrows : Grows h names root start types) {n : String} (hn : types.get? n ≠ start.get? n) :
    ∃ e, h.Inherits root e ∧ ¬ HasLayout names start e ∧ n ∈ m.layoutNames e := by
  induction hgrows with
  | refl => exact absurd rfl hn
  | @step types e comp hgrows he hnone hcomp ih =>
    by_cases hlast : (comp.register types).get? n = types.get? n
    · exact ih (hlast ▸ hn)
    · exact ⟨e, he, hnone, hcomp.mem_layoutNames hm (hgrows.keyed hkeyed) hlast⟩

/-- What building a class changes is registered under its own names, or those of bases that had no
    layout. -/
theorem BuildResult.exists_of_get?_ne {root : ClassId} {start types : TypeDatabase}
    (hkeyed : start.Keyed) {r : Except ModelError Layout}
    (hresult : BuildResult h names root start r types) {n : String}
    (hn : types.get? n ≠ start.get? n) :
    ∃ e, (e = root ∨ h.Inherits root e ∧ ¬ HasLayout names start e) ∧ n ∈ m.layoutNames e := by
  have of_grows {types : TypeDatabase} (hgrows : Grows h names root start types)
      (hn : types.get? n ≠ start.get? n) :
      ∃ e, (e = root ∨ h.Inherits root e ∧ ¬ HasLayout names start e) ∧ n ∈ m.layoutNames e := by
    obtain ⟨e, he, hnone, hmem⟩ := hgrows.exists_of_get?_ne hm hkeyed hn
    exact ⟨e, .inr ⟨he, hnone⟩, hmem⟩
  cases hresult with
  | error hgrows => exact of_grows hgrows hn
  | @ok types comp hgrows hcomp =>
    by_cases hlast : (comp.register types).get? n = types.get? n
    · exact of_grows hgrows (hlast ▸ hn)
    · exact ⟨root, .inl rfl, hcomp.mem_layoutNames hm (hgrows.keyed hkeyed) hlast⟩

end

/-! ## Every model -/

/-- **In every model, classes and type names determine each other.** -/
theorem named_reached (abi : Abi) (pointerSize : Word) (ops : List Operation) :
    (reached abi pointerSize ops).Named := by
  refine reached_induction (named_new abi pointerSize) (fun m c hm => hm.insert c)
    (fun m m' _ htypeNames hbyTypeName hm id name => ?_) ops
  rw [hbyTypeName, typeName?, htypeNames]
  exact hm id name

/-- **Different classes share a name only if the type name of one is the marked name of the other**, which has
    virtual bases.  Building a class changes the layout of another one only if that one is a base without a
    layout, or its type name is the marked name of the class or of such a base. -/
theorem buildLayout_frame (abi : Abi) (pointerSize : Word) (ops : List Operation) (c d : ClassId)
    (hne : c ≠ d) :
    let m := reached abi pointerSize ops
    let m' := (m.buildLayout c).value.2
    (∀ name ∈ m.layoutNames c, name ∈ m.layoutNames d → m.Shadows c d ∨ m.Shadows d c) ∧
      (m'.layout? d ≠ m.layout? d →
        (m.hierarchy.Inherits c d ∧ m.layout? d = none) ∨
          ∃ e, (e = c ∨ m.hierarchy.Inherits c e ∧ m.layout? e = none) ∧ m.Shadows e d) := by
  intro m m'
  have hnamed : m.Named := named_reached abi pointerSize ops
  have hm : Shows m.hierarchy m.typeNames m := shows_reached abi pointerSize ops
  have hnone {e : ClassId} (he : ¬ HasLayout m.typeNames m.types e) : m.layout? e = none := by
    rwa [← hm.isSome_layout?_iff, Bool.not_eq_true, Option.isSome_eq_false_iff,
      Option.isNone_iff_eq_none] at he
  refine ⟨fun name hc hd => shadows_of_mem_layoutNames hnamed hne hc hd, fun hchanged => ?_⟩
  obtain ⟨hm', hresult⟩ := buildWithin_result (m.size + 1) c m hm
  change Shows m.hierarchy m.typeNames m' at hm'
  change BuildResult m.hierarchy m.typeNames c m.types _ m'.types at hresult
  rw [layout?, layout?, hm'.typeName?_eq, hm.typeName?_eq] at hchanged
  cases hname : m.typeNames.get? d with
  | none =>
    rw [hname] at hchanged
    exact absurd rfl hchanged
  | some n =>
    rw [hname] at hchanged
    obtain ⟨e, he, hmem⟩ := hresult.exists_of_get?_ne hm hm.keyed hchanged
    obtain ⟨name, t, hname', -, rfl | ⟨rfl, -⟩⟩ := mem_layoutNames_iff.mp hmem
    · obtain rfl := hnamed.injective hname' hname
      obtain rfl | ⟨hinherits, hlayout⟩ := he
      · exact absurd rfl hne
      · exact .inl ⟨hinherits, hnone hlayout⟩
    · exact .inr ⟨e, he.imp_right (And.imp_right hnone), name, hname', hmem, hname⟩

/-- Building a class gives its base a layout. -/
theorem buildLayout_frame_base :
    let ops : List Operation :=
      [.insert { id := 1, name := "Base", memberSize := 4 },
        .insert { id := 2, name := "Derived", bases := [⟨1, false, true, none⟩] }]
    let m := reached .itanium 8 ops
    (m.buildLayout 2).value.2.layout? 1 ≠ m.layout? 1 ∧
      ((m.hierarchy.Inherits 2 1 ∧ m.layout? 1 = none) ∨
        ∃ e, (e = 2 ∨ m.hierarchy.Inherits 2 e ∧ m.layout? e = none) ∧ m.Shadows e 1) := by
  intro ops m
  have hchanged : (m.buildLayout 2).value.2.layout? 1 ≠ m.layout? 1 := by decide +kernel
  have hframe := buildLayout_frame .itanium 8 ops 2 1 (by decide)
  exact ⟨hchanged, hframe.2 hchanged⟩

/-- The non-virtual part of `Foo` is registered as `Foo_nv`, in place of the layout of the class of that name. -/
theorem buildLayout_overwrites :
    let m := reached .itanium 8
      [.insert { id := 1, name := "Base", memberSize := 4, memberAlign := 4 },
        .insert { id := 2, name := "Foo", bases := [⟨1, true, true, none⟩] },
        .insert { id := 3, name := "Foo_nv", memberSize := 16 }, .buildLayout 3]
    ("Foo_nv" ∈ m.layoutNames 2 ∧ "Foo_nv" ∈ m.layoutNames 3) ∧ ¬ m.hierarchy.Inherits 2 3 ∧
      (m.layout? 3).isSome = true ∧ (m.buildLayout 2).value.2.layout? 3 ≠ m.layout? 3 := by
  intro m
  refine ⟨by decide +kernel, fun hinherits => ?_, by decide +kernel, by decide +kernel⟩
  have heq : (3 : ClassId) = 1 :=
    Hierarchy.eq_of_inherits (by decide +kernel) (by decide +kernel) hinherits
  exact absurd heq (by decide)

end ClassModel

end ClassRecovery
