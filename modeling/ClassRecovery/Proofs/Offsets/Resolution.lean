/-
  Which classes have an offset table, and why the others have none.

  `Resolves h id t` says that `t` is the table of the class `id`: its direct bases have tables, and placing
  them gives `t`.  `Fails h pending id e` says that the class has no table because of `e`, found while the
  classes in `pending` are being resolved.  Neither mentions the tables that are known already.

  * `Resolves.unique`, `Fails.unique`, `Fails.not_resolves`: a class has one table or one error.
  * `Resolves.transfer`, `Fails.transfer`: they depend on the classes that can be reached only, and on where
    the bases of these are placed.
  * `Hierarchy.resolve_answers`: resolving with any sound memo finds that table or that error, and
    leaves a sound memo behind.
-/
import ClassRecovery.Proofs.Offsets.Placement
import ClassRecovery.Proofs.OrderedMap
import Mathlib.Logic.Relation

namespace ClassRecovery

/-! ## Reaching bases -/

namespace Hierarchy

/-- Every class is stored under its own identity. -/
def Keyed (h : Hierarchy) : Prop := ∀ id c, h.classes.get? id = some c → c.id = id

/-- `b` is a direct base of `a`. -/
def DirectBase (h : Hierarchy) (a b : ClassId) : Prop :=
  ∃ c, h.classes.get? a = some c ∧ ∃ spec ∈ c.bases, spec.base = b

/-- `b` is `a`, or a base of `a` at some depth. -/
def Reaches (h : Hierarchy) : ClassId → ClassId → Prop := Relation.ReflTransGen h.DirectBase

/-- `b` is a base of `a`, at some depth. -/
def Inherits (h : Hierarchy) : ClassId → ClassId → Prop := Relation.TransGen h.DirectBase

/-- The classes that can be reached from `id` are the same in both hierarchies. -/
def AgreeFrom (h h' : Hierarchy) (id : ClassId) : Prop :=
  ∀ d, h.Reaches id d → h.classes.get? d = h'.classes.get? d

theorem AgreeFrom.base {h h' : Hierarchy} {a b : ClassId} (hagree : h.AgreeFrom h' a)
    (hb : h.Reaches a b) : h.AgreeFrom h' b :=
  fun d hd => hagree d (hb.trans hd)

/-- `P` holds of all classes that can be reached from `id`. -/
def Throughout (h : Hierarchy) (P : ClassType → Prop) (id : ClassId) : Prop :=
  ∀ d c, h.Reaches id d → h.classes.get? d = some c → P c

theorem Throughout.base {h : Hierarchy} {P : ClassType → Prop} {a b : ClassId} (hp : h.Throughout P a)
    (hb : h.Reaches a b) : h.Throughout P b :=
  fun d c hd hc => hp d c (hb.trans hd) hc

theorem throughout_of_forall {h : Hierarchy} {P : ClassType → Prop} {a : ClassId}
    (hall : ∀ c ∈ h.classes.values, P c) : h.Throughout P a :=
  fun d c _ hc => hall c (List.mem_map.mpr ⟨(d, c), OrderedMap.get?_eq_some_iff.mp hc, rfl⟩)

end Hierarchy

/-! ## Judgements -/

/-- `t` is the offset table of the class `id`. -/
inductive Resolves (h : Hierarchy) : ClassId → BaseOffsetTable → Prop
  | mk {id : ClassId} {c : ClassType} {parts : List BasePart}
      {tableOf : ClassId → Option BaseOffsetTable} {t : BaseOffsetTable} :
      h.classes.get? id = some c →
      parts.map (·.spec) = c.bases →
      (∀ p ∈ parts, Resolves h p.spec.base p.table) →
      (∀ v ∈ (VirtualPaths.ofParts parts).map (·.1), (tableOf v).isSome = true) →
      (∀ v ∈ (VirtualPaths.ofParts parts).map (·.1), ∀ tv, tableOf v = some tv → Resolves h v tv) →
      c.offsetTable h.abi h.pointerSize parts tableOf = .ok t →
      Resolves h id t

/-- The class `id` has no offset table because of `e`, while the classes in `pending` are being
    resolved. -/
inductive Fails (h : Hierarchy) : List ClassId → ClassId → ModelError → Prop
  | cyclic {pending : List ClassId} {id : ClassId} :
      id ∈ pending → Fails h pending id (.cyclicInheritance id)
  | unknown {pending : List ClassId} {id : ClassId} :
      id ∉ pending → h.classes.get? id = none → Fails h pending id (.unknownClass id)
  /-- The first direct base that fails. -/
  | base {pending : List ClassId} {id : ClassId} {c : ClassType} {front rest : List BaseSpec}
      {spec : BaseSpec} {e : ModelError} :
      id ∉ pending → h.classes.get? id = some c → c.bases = front ++ spec :: rest →
      (∀ s ∈ front, ∃ t, Resolves h s.base t) → Fails h (id :: pending) spec.base e →
      Fails h pending id e
  | placement {pending : List ClassId} {id : ClassId} {c : ClassType} {parts : List BasePart}
      {tableOf : ClassId → Option BaseOffsetTable} {e : ModelError} :
      id ∉ pending → h.classes.get? id = some c → parts.map (·.spec) = c.bases →
      (∀ p ∈ parts, Resolves h p.spec.base p.table) →
      (∀ v ∈ (VirtualPaths.ofParts parts).map (·.1), (tableOf v).isSome = true) →
      (∀ v ∈ (VirtualPaths.ofParts parts).map (·.1), ∀ tv, tableOf v = some tv → Resolves h v tv) →
      c.offsetTable h.abi h.pointerSize parts tableOf = .error e →
      Fails h pending id e

/-! ## One table for each class -/

theorem parts_unique {h : Hierarchy} {parts parts' : List BasePart}
    (hspecs : parts.map (·.spec) = parts'.map (·.spec))
    (huniq : ∀ p ∈ parts, ∀ t, Resolves h p.spec.base t → p.table = t)
    (hparts' : ∀ p ∈ parts', Resolves h p.spec.base p.table) : parts = parts' := by
  induction parts generalizing parts' with
  | nil => simpa using hspecs.symm
  | cons p rest ih =>
    cases parts' with
    | nil => simp at hspecs
    | cons p' rest' =>
      simp only [List.map_cons, List.cons.injEq] at hspecs
      simp only [List.mem_cons, forall_eq_or_imp] at huniq hparts'
      have htable : p.table = p'.table := huniq.1 _ (hspecs.1 ▸ hparts'.1)
      have hp : p = p' := by
        obtain ⟨spec, table⟩ := p
        obtain ⟨spec', table'⟩ := p'
        simp_all
      rw [hp, ih hspecs.2 huniq.2 hparts'.2]

theorem tables_agree {keys : List ClassId} {tableOf tableOf' : ClassId → Option BaseOffsetTable}
    (hknown : ∀ v ∈ keys, (tableOf v).isSome = true)
    (hknown' : ∀ v ∈ keys, (tableOf' v).isSome = true)
    (huniq : ∀ v ∈ keys, ∀ t t', tableOf v = some t → tableOf' v = some t' → t = t') :
    ∀ v ∈ keys, tableOf v = tableOf' v := by
  intro v hv
  obtain ⟨t, ht⟩ := Option.isSome_iff_exists.mp (hknown v hv)
  obtain ⟨t', ht'⟩ := Option.isSome_iff_exists.mp (hknown' v hv)
  rw [ht, ht', huniq v hv t t' ht ht']

/-- **A class has one table at most.** -/
theorem Resolves.unique {h : Hierarchy} {id : ClassId} {t t' : BaseOffsetTable}
    (hr : Resolves h id t) (hr' : Resolves h id t') : t = t' := by
  induction hr generalizing t' with
  | @mk id c parts tableOf t hc hspecs hparts hknown hvirtual ht ihparts ihvirtual =>
    obtain ⟨hc', hspecs', hparts', hknown', hvirtual', ht'⟩ := hr'
    rename_i c' parts' tableOf'
    obtain rfl : c = c' := by simpa [hc] using hc'
    obtain rfl : parts = parts' :=
      parts_unique (hspecs.trans hspecs'.symm) (fun p hp _ => ihparts p hp) hparts'
    have hsame := tables_agree hknown hknown' fun v hv tv tv' htv htv' =>
      ihvirtual v hv tv htv (hvirtual' v hv tv' htv')
    rw [ClassType.offsetTable_congr hsame, ht'] at ht
    exact (Except.ok.inj ht).symm

/-! ## Bases of resolved classes -/

section
variable {h : Hierarchy} {id : ClassId} {c : ClassType} {parts : List BasePart}

theorem directBase_of_part (hc : h.classes.get? id = some c) (hspecs : parts.map (·.spec) = c.bases)
    {p : BasePart} (hp : p ∈ parts) : h.DirectBase id p.spec.base :=
  ⟨c, hc, p.spec, hspecs ▸ List.mem_map_of_mem hp, rfl⟩

theorem part_of_directBase (hc : h.classes.get? id = some c) (hspecs : parts.map (·.spec) = c.bases)
    {b : ClassId} (hb : h.DirectBase id b) : ∃ p ∈ parts, p.spec.base = b := by
  obtain ⟨c', hc', spec, hspec, rfl⟩ := hb
  obtain rfl : c = c' := by simpa [hc] using hc'
  rw [← hspecs] at hspec
  obtain ⟨p, hp, rfl⟩ := List.mem_map.mp hspec
  exact ⟨p, hp, rfl⟩

theorem Resolves.exists_class {t : BaseOffsetTable} (hr : Resolves h id t) :
    ∃ c, h.classes.get? id = some c := by
  obtain ⟨hc, -⟩ := hr
  exact ⟨_, hc⟩

/-- **A class with a table does not inherit from itself.** -/
theorem Resolves.not_inherits_self {t : BaseOffsetTable} (hr : Resolves h id t) :
    ¬ h.Inherits id id := by
  induction hr with
  | mk hc hspecs _ _ _ _ ihparts _ =>
    intro hcycle
    obtain ⟨b, hstep, hback⟩ := Relation.TransGen.head'_iff.mp hcycle
    obtain ⟨p, hp, rfl⟩ := part_of_directBase hc hspecs hstep
    exact ihparts p hp (Relation.TransGen.tail' hback hstep)

theorem Resolves.of_directBase {t : BaseOffsetTable} (hr : Resolves h id t) {b : ClassId}
    (hb : h.DirectBase id b) : ∃ tb, Resolves h b tb := by
  cases hr with
  | mk hc hspecs hparts _ _ _ =>
    obtain ⟨p, hp, rfl⟩ := part_of_directBase hc hspecs hb
    exact ⟨p.table, hparts p hp⟩

/-- Every class that can be reached from a class with a table has one itself. -/
theorem Resolves.of_reaches {t : BaseOffsetTable} (hr : Resolves h id t) {b : ClassId}
    (hb : h.Reaches id b) : ∃ tb, Resolves h b tb := by
  induction hb with
  | refl => exact ⟨t, hr⟩
  | tail _ hstep ih =>
    obtain ⟨_, hd⟩ := ih
    exact hd.of_directBase hstep

/-- A part whose own entries are bases of its class leads to bases only. -/
theorem inherits_of_leadsTo (hc : h.classes.get? id = some c) (hspecs : parts.map (·.spec) = c.bases)
    (hentries : ∀ p ∈ parts, ∀ s ∈ p.table.entries, h.Inherits p.spec.base s.base) {p : BasePart}
    (hp : p ∈ parts) {v : ClassId} {path : BasePath} (hlead : p.LeadsTo v path) :
    h.Inherits id v := by
  have hstep := directBase_of_part hc hspecs hp
  rcases hlead with ⟨-, rfl, -⟩ | ⟨s, hs, rfl, -⟩
  · exact .single hstep
  · exact .head hstep (hentries p hp s (List.mem_of_mem_filter hs))

/-- **Every entry of a table is a base of its class.** -/
theorem Resolves.inherits_of_mem {t : BaseOffsetTable} (hr : Resolves h id t) :
    ∀ s ∈ t.entries, h.Inherits id s.base := by
  induction hr with
  | @mk id c parts tableOf t hc hspecs _ hknown _ ht ihparts ihvirtual =>
    intro s hs
    obtain ⟨own, shared, hentries, hown, hshared⟩ := ClassType.offsetTable_entries ht
    rw [hentries, List.mem_append, List.mem_flatten, List.mem_flatten] at hs
    rcases hs with ⟨block, hblock, hs⟩ | ⟨block, hblock, hs⟩
    · obtain ⟨p, hp, hp'⟩ := forall₂_mem_right hown hblock
      have hpart : p ∈ parts := List.mem_of_mem_filter hp
      have hstep := directBase_of_part hc hspecs hpart
      rcases hp'.base_eq hs with hbase | ⟨s', hs', hbase⟩
      · exact hbase ▸ .single hstep
      · exact hbase ▸ .head hstep (ihparts p hpart s' hs')
    · obtain ⟨v, hv, table, htable, hv'⟩ := forall₂_mem_right hshared hblock
      have hkey : v.1 ∈ (VirtualPaths.ofParts parts).map (·.1) := List.mem_map_of_mem hv
      obtain ⟨p, hp, path, hlead⟩ := VirtualPaths.mem_keys_ofParts hkey
      have hreach := inherits_of_leadsTo hc hspecs ihparts hp hlead
      rcases hv'.base_eq hs with hbase | ⟨s', hs', hbase⟩
      · exact hbase ▸ hreach
      · exact hbase ▸ hreach.trans (ihvirtual v.1 hkey table htable s' hs')

/-- The virtual bases of a class are bases of it. -/
theorem inherits_of_key (hc : h.classes.get? id = some c) (hspecs : parts.map (·.spec) = c.bases)
    (hparts : ∀ p ∈ parts, Resolves h p.spec.base p.table) {v : ClassId}
    (hv : v ∈ (VirtualPaths.ofParts parts).map (·.1)) : h.Inherits id v := by
  obtain ⟨p, hp, path, hlead⟩ := VirtualPaths.mem_keys_ofParts hv
  exact inherits_of_leadsTo hc hspecs (fun p hp => (hparts p hp).inherits_of_mem) hp hlead

end

/-! ## One error for each class without a table -/

section
variable {h : Hierarchy}

/-- The classes in `pending` are being resolved, and inherit from `id`. -/
def Pending (h : Hierarchy) (pending : List ClassId) (id : ClassId) : Prop :=
  ∀ p ∈ pending, h.Inherits p id

theorem Pending.nil (id : ClassId) : Pending h [] id := by simp [Pending]

theorem Pending.cons_of_inherits {pending : List ClassId} {a b : ClassId} (hp : Pending h pending a)
    (hb : h.Inherits a b) : Pending h (a :: pending) b := by
  intro p hmem
  rcases List.mem_cons.mp hmem with rfl | hmem
  · exact hb
  · exact (hp p hmem).trans hb

theorem Pending.cons {pending : List ClassId} {a b : ClassId} (hp : Pending h pending a)
    (hb : h.DirectBase a b) : Pending h (a :: pending) b :=
  hp.cons_of_inherits (.single hb)

theorem directBase_of_split {id : ClassId} {c : ClassType} {front rest : List BaseSpec}
    {spec : BaseSpec} (hc : h.classes.get? id = some c) (hbases : c.bases = front ++ spec :: rest) :
    h.DirectBase id spec.base :=
  ⟨c, hc, spec, by simp [hbases], rfl⟩

/-- **A class that fails has no table.** -/
theorem Fails.not_resolves {pending : List ClassId} {id : ClassId} {e : ModelError}
    (hf : Fails h pending id e) (hp : Pending h pending id) {t : BaseOffsetTable} :
    ¬ Resolves h id t := by
  induction hf generalizing t with
  | cyclic hmem => exact fun hr => hr.not_inherits_self (hp _ hmem)
  | unknown _ hnone =>
    rintro ⟨hc, -⟩
    simp [hnone] at hc
  | base _ hc hbases _ _ ih =>
    intro hr
    have hstep := directBase_of_split hc hbases
    obtain ⟨_, hb⟩ := hr.of_directBase hstep
    exact ih (hp.cons hstep) hb
  | @placement pending id c parts tableOf e _ hc hspecs hparts hknown hvirtual hplace =>
    rintro ⟨hc', hspecs', hparts', hknown', hvirtual', ht'⟩
    rename_i c' parts' tableOf'
    obtain rfl : c = c' := by simpa [hc] using hc'
    obtain rfl : parts = parts' :=
      parts_unique (hspecs.trans hspecs'.symm) (fun p hp _ => (hparts p hp).unique) hparts'
    have hsame := tables_agree hknown hknown' fun v hv tv tv' htv htv' =>
      (hvirtual v hv tv htv).unique (hvirtual' v hv tv' htv')
    rw [ClassType.offsetTable_congr hsame, ht'] at hplace
    cases hplace

/-- The first base that fails is the same, however it is found. -/
theorem split_unique {front front' rest rest' : List BaseSpec} {spec spec' : BaseSpec}
    (heq : front ++ spec :: rest = front' ++ spec' :: rest')
    (hfront : ∀ s ∈ front, ∃ t, Resolves h s.base t)
    (hfront' : ∀ s ∈ front', ∃ t, Resolves h s.base t)
    (hspec : ∀ t, ¬ Resolves h spec.base t) (hspec' : ∀ t, ¬ Resolves h spec'.base t) :
    spec = spec' := by
  rcases List.append_eq_append_iff.mp heq with ⟨l, hl, hl'⟩ | ⟨l, hl, hl'⟩
  · cases l with
    | nil => simp_all
    | cons s l =>
      obtain rfl : s = spec := by simp_all
      obtain ⟨t, ht⟩ := hfront' s (by simp [hl])
      exact absurd ht (hspec t)
  · cases l with
    | nil => simp_all
    | cons s l =>
      obtain rfl : s = spec' := by simp_all
      obtain ⟨t, ht⟩ := hfront s (by simp [hl])
      exact absurd ht (hspec' t)

/-- **A class fails for one reason at most.** -/
theorem Fails.unique {pending : List ClassId} {id : ClassId} {e e' : ModelError}
    (hf : Fails h pending id e) (hp : Pending h pending id) (hf' : Fails h pending id e') :
    e = e' := by
  induction hf generalizing e' with
  | cyclic hmem =>
    cases hf' with
    | cyclic => rfl
    | unknown hnot | base hnot | placement hnot => exact absurd hmem hnot
  | unknown hnot hnone =>
    cases hf' with
    | cyclic hmem => exact absurd hmem hnot
    | unknown => rfl
    | base _ hc | placement _ hc => simp [hnone] at hc
  | base hnot hc hbases hfront hspec ih =>
    have hstep := directBase_of_split hc hbases
    cases hf' with
    | cyclic hmem => exact absurd hmem hnot
    | unknown _ hnone => simp [hnone] at hc
    | base _ hc' hbases' hfront' hspec' =>
      obtain rfl := Option.some.inj (hc.symm.trans hc')
      have hstep' := directBase_of_split hc hbases'
      obtain rfl := split_unique (hbases.symm.trans hbases') hfront hfront'
        (fun _ => hspec.not_resolves (hp.cons hstep))
        (fun _ => hspec'.not_resolves (hp.cons hstep'))
      exact ih (hp.cons hstep) hspec'
    | placement _ hc' hspecs hparts =>
      obtain rfl := Option.some.inj (hc.symm.trans hc')
      obtain ⟨p, hpart, hbase⟩ := part_of_directBase hc hspecs hstep
      exact absurd (hbase ▸ hparts p hpart) (hspec.not_resolves (hp.cons hstep))
  | placement hnot hc hspecs hparts hknown hvirtual hplace =>
    cases hf' with
    | cyclic hmem => exact absurd hmem hnot
    | unknown _ hnone => simp [hnone] at hc
    | base _ hc' hbases' _ hspec' =>
      obtain rfl := Option.some.inj (hc.symm.trans hc')
      have hstep' := directBase_of_split hc hbases'
      obtain ⟨p, hpart, hbase⟩ := part_of_directBase hc hspecs hstep'
      exact absurd (hbase ▸ hparts p hpart) (hspec'.not_resolves (hp.cons hstep'))
    | placement _ hc' hspecs' hparts' hknown' hvirtual' hplace' =>
      obtain rfl := Option.some.inj (hc.symm.trans hc')
      obtain rfl :=
        parts_unique (hspecs.trans hspecs'.symm) (fun p hp _ => (hparts p hp).unique) hparts'
      have hsame := tables_agree hknown hknown' fun v hv tv tv' htv htv' =>
        (hvirtual v hv tv htv).unique (hvirtual' v hv tv' htv')
      rw [ClassType.offsetTable_congr hsame, hplace'] at hplace
      exact (Except.error.inj hplace).symm

end

/-! ## Only the classes that can be reached count -/

/-- The classes that can be reached from `id` are the same in both hierarchies, and placing their bases
    gives the same tables and errors. -/
structure Hierarchy.PlacesAlike (h h' : Hierarchy) (id : ClassId) : Prop where
  agree : h.AgreeFrom h' id
  place : ∀ {d : ClassId} {c : ClassType} {parts : List BasePart} (tableOf : ClassId → Option BaseOffsetTable),
    h.Reaches id d → h.classes.get? d = some c → parts.map (·.spec) = c.bases →
    (∀ p ∈ parts, Resolves h p.spec.base p.table) →
    c.offsetTable h.abi h.pointerSize parts tableOf = c.offsetTable h'.abi h'.pointerSize parts tableOf

section
variable {h h' : Hierarchy}

theorem Hierarchy.PlacesAlike.base {a b : ClassId} (hsame : h.PlacesAlike h' a) (hb : h.Reaches a b) :
    h.PlacesAlike h' b :=
  ⟨hsame.agree.base hb, fun tableOf hd => hsame.place tableOf (hb.trans hd)⟩

/-- For the same target, it is enough that the classes are the same. -/
theorem Hierarchy.AgreeFrom.placesAlike {id : ClassId} (hagree : h.AgreeFrom h' id) (habi : h.abi = h'.abi)
    (hptr : h.pointerSize = h'.pointerSize) : h.PlacesAlike h' id :=
  ⟨hagree, fun _ _ _ _ _ => by rw [habi, hptr]⟩

theorem Resolves.transfer {id : ClassId} {t : BaseOffsetTable} (hr : Resolves h id t)
    (hsame : h.PlacesAlike h' id) : Resolves h' id t := by
  induction hr with
  | mk hc hspecs hparts hknown hvirtual ht ihparts ihvirtual =>
    refine .mk (hsame.agree _ .refl ▸ hc) hspecs (fun p hp => ihparts p hp ?_) hknown
      (fun v hv tv htv => ihvirtual v hv tv htv ?_) (hsame.place _ .refl hc hspecs hparts ▸ ht)
    · exact hsame.base (.single (directBase_of_part hc hspecs hp))
    · exact hsame.base (inherits_of_key hc hspecs hparts hv).to_reflTransGen

theorem Fails.transfer {pending : List ClassId} {id : ClassId} {e : ModelError}
    (hf : Fails h pending id e) (hsame : h.PlacesAlike h' id) : Fails h' pending id e := by
  induction hf with
  | cyclic hmem => exact .cyclic hmem
  | unknown hnot hnone => exact .unknown hnot (hsame.agree _ .refl ▸ hnone)
  | base hnot hc hbases hfront _ ih =>
    refine .base hnot (hsame.agree _ .refl ▸ hc) hbases (fun s hs => ?_) (ih ?_)
    · obtain ⟨t, ht⟩ := hfront s hs
      have hstep : h.DirectBase _ s.base := ⟨_, hc, s, by simp [hbases, hs], rfl⟩
      exact ⟨t, ht.transfer (hsame.base (.single hstep))⟩
    · exact hsame.base (.single (directBase_of_split hc hbases))
  | placement hnot hc hspecs hparts hknown hvirtual hplace =>
    refine .placement hnot (hsame.agree _ .refl ▸ hc) hspecs (fun p hp => ?_) hknown
      (fun v hv tv htv => ?_) (hsame.place _ .refl hc hspecs hparts ▸ hplace)
    · exact (hparts p hp).transfer (hsame.base (.single (directBase_of_part hc hspecs hp)))
    · exact (hvirtual v hv tv htv).transfer
        (hsame.base (inherits_of_key hc hspecs hparts hv).to_reflTransGen)

/-- A table depends on the classes that can be reached only. -/
theorem Resolves.congr (habi : h.abi = h'.abi) (hptr : h.pointerSize = h'.pointerSize) {id : ClassId}
    {t : BaseOffsetTable} (hr : Resolves h id t) (hagree : h.AgreeFrom h' id) : Resolves h' id t :=
  hr.transfer (hagree.placesAlike habi hptr)

end

/-! ## Sound memos -/

namespace OffsetMemo

theorem find?_eq_some {memo : OffsetMemo} {id : ClassId} {t : BaseOffsetTable}
    (h : memo.find? id = some t) : t ∈ memo ∧ t.owner = id :=
  ⟨List.mem_of_find?_eq_some h, by simpa using List.find?_some h⟩

theorem isSome_find?_iff {memo : OffsetMemo} {id : ClassId} :
    (memo.find? id).isSome = true ↔ ∃ t ∈ memo, t.owner = id := by
  simp [find?, List.find?_isSome]

theorem isSome_find?_mono {memo memo' : OffsetMemo} (hsub : memo ⊆ memo') {id : ClassId}
    (h : (memo.find? id).isSome = true) : (memo'.find? id).isSome = true := by
  obtain ⟨t, ht, hid⟩ := isSome_find?_iff.mp h
  exact isSome_find?_iff.mpr ⟨t, hsub ht, hid⟩

/-- Tables of classes, together with those of all their bases. -/
structure Sound (h : Hierarchy) (memo : OffsetMemo) : Prop where
  resolves : ∀ t ∈ memo, Resolves h t.owner t
  closed : ∀ t ∈ memo, ∀ b, h.DirectBase t.owner b → (memo.find? b).isSome = true

namespace Sound

variable {h : Hierarchy} {memo : OffsetMemo}

theorem nil (h : Hierarchy) : Sound h [] := ⟨by simp, by simp⟩

theorem resolves_of_find? (hs : memo.Sound h) {id : ClassId} {t : BaseOffsetTable}
    (hf : memo.find? id = some t) : Resolves h id t := by
  obtain ⟨hmem, rfl⟩ := find?_eq_some hf
  exact hs.resolves t hmem

theorem isSome_of_reaches (hs : memo.Sound h) {a b : ClassId}
    (ha : (memo.find? a).isSome = true) (hab : h.Reaches a b) : (memo.find? b).isSome = true := by
  induction hab with
  | refl => exact ha
  | tail _ hstep ih =>
    obtain ⟨t, ht, rfl⟩ := isSome_find?_iff.mp ih
    exact hs.closed t ht _ hstep

theorem cons (hs : memo.Sound h) {t : BaseOffsetTable} (ht : Resolves h t.owner t)
    (hbases : ∀ b, h.DirectBase t.owner b → (memo.find? b).isSome = true) :
    Sound h (t :: memo) where
  resolves t' ht' := by
    rcases List.mem_cons.mp ht' with rfl | ht'
    · exact ht
    · exact hs.resolves t' ht'
  closed t' ht' b hb := by
    refine isSome_find?_mono (List.subset_cons_self t memo) ?_
    rcases List.mem_cons.mp ht' with rfl | ht'
    · exact hbases b hb
    · exact hs.closed t' ht' b hb

/-- The tables in a sound memo are those of any hierarchy with the same classes below their
    owners. -/
theorem congr {h' : Hierarchy} (hs : memo.Sound h) (habi : h.abi = h'.abi)
    (hptr : h.pointerSize = h'.pointerSize) (hagree : ∀ t ∈ memo, h.AgreeFrom h' t.owner) :
    memo.Sound h' where
  resolves t ht := (hs.resolves t ht).congr habi hptr (hagree t ht)
  closed t ht b hb := by
    obtain ⟨c, hc, spec, hspec, rfl⟩ := hb
    exact hs.closed t ht spec.base ⟨c, hagree t ht _ .refl ▸ hc, spec, hspec, rfl⟩

end Sound

end OffsetMemo

/-! ## Resolving -/

/-- The right answer for a class while those in `pending` are being resolved. -/
def Answers (h : Hierarchy) (pending : List ClassId) (id : ClassId) :
    Except ModelError BaseOffsetTable → Prop
  | .ok t => Resolves h id t
  | .error e => Fails h pending id e

/-- What resolving a class gives: the right answer, and a sound memo in which it is kept and nothing
    is lost. -/
structure ResolvedWith (h : Hierarchy) (pending : List ClassId) (id : ClassId) (memo : OffsetMemo)
    (r : Except ModelError BaseOffsetTable × OffsetMemo) : Prop where
  answers : Answers h pending id r.1
  sound : r.2.Sound h
  grows : memo ⊆ r.2
  kept : ∀ t, r.1 = .ok t → r.2.find? id = some t

/-- The right answer for direct bases: all their tables, or the error of the first that fails. -/
def BasesAnswer (h : Hierarchy) (pending : List ClassId) (specs : List BaseSpec)
    (memo : OffsetMemo) : Except ModelError (List BasePart) → Prop
  | .ok parts => parts.map (·.spec) = specs ∧
      ∀ p ∈ parts, Resolves h p.spec.base p.table ∧ (memo.find? p.spec.base).isSome = true
  | .error e => ∃ front spec rest, specs = front ++ spec :: rest ∧
      (∀ s ∈ front, ∃ t, Resolves h s.base t) ∧ Fails h pending spec.base e

section
variable {h : Hierarchy} {pending : List ClassId}

theorem resolveBases_spec {resolve : Resolver}
    (hresolve : ∀ id memo, memo.Sound h → ResolvedWith h pending id memo (resolve id memo)) :
    ∀ (specs : List BaseSpec) {memo : OffsetMemo}, memo.Sound h →
      let r := resolveBases resolve specs memo
      BasesAnswer h pending specs r.2 r.1 ∧ r.2.Sound h ∧ memo ⊆ r.2
  | [], memo, hs => ⟨⟨rfl, by simp⟩, hs, List.Subset.refl _⟩
  | spec :: rest, memo, hs => by
    have hfirst := hresolve spec.base memo hs
    rcases hr : resolve spec.base memo with ⟨e | table, memo₁⟩
    · rw [hr] at hfirst
      simp only [resolveBases, hr]
      exact ⟨⟨[], spec, rest, rfl, by simp, hfirst.answers⟩, hfirst.sound, hfirst.grows⟩
    · rw [hr] at hfirst
      obtain ⟨hrest, hsound, hgrows⟩ := resolveBases_spec hresolve rest hfirst.sound
      rcases hr' : resolveBases resolve rest memo₁ with ⟨e | parts, memo₂⟩
      all_goals
        rw [hr'] at hrest hsound hgrows
        simp only [resolveBases, hr, hr', Except.map]
        refine ⟨?_, hsound, List.Subset.trans hfirst.grows hgrows⟩
      · obtain ⟨front, spec', rest', rfl, hfront, hfails⟩ := hrest
        refine ⟨spec :: front, spec', rest', rfl, ?_, hfails⟩
        simp only [List.mem_cons, forall_eq_or_imp]
        exact ⟨⟨table, hfirst.answers⟩, hfront⟩
      · have hkept : (memo₁.find? spec.base).isSome = true := by
          rw [hfirst.kept table rfl]
          rfl
        refine ⟨by simp [hrest.1], ?_⟩
        simp only [List.mem_cons, forall_eq_or_imp]
        exact ⟨⟨hfirst.answers, OffsetMemo.isSome_find?_mono hgrows hkept⟩, hrest.2⟩

theorem ResolvedWith.of_fails {id : ClassId} {memo memo' : OffsetMemo} {e : ModelError}
    (hfails : Fails h pending id e) (hsound : memo'.Sound h) (hgrows : memo ⊆ memo') :
    ResolvedWith h pending id memo (.error e, memo') :=
  ⟨hfails, hsound, hgrows, by simp⟩

/-- What is behind the direct bases of a class is known once they are resolved. -/
theorem isSome_of_inherits {id : ClassId} {c : ClassType} {parts : List BasePart}
    {memo : OffsetMemo} (hsound : memo.Sound h) (hc : h.classes.get? id = some c)
    (hspecs : parts.map (·.spec) = c.bases)
    (hparts : ∀ p ∈ parts, (memo.find? p.spec.base).isSome = true) {b : ClassId}
    (hb : h.Inherits id b) : (memo.find? b).isSome = true := by
  obtain ⟨d, hstep, hreach⟩ := Relation.TransGen.head'_iff.mp hb
  obtain ⟨p, hp, rfl⟩ := part_of_directBase hc hspecs hstep
  exact hsound.isSome_of_reaches (hparts p hp) hreach

/-- Placing the bases of a class, once they are resolved, gives its table or its error. -/
theorem ResolvedWith.of_bases (hkeyed : h.Keyed) {id : ClassId} {c : ClassType}
    {parts : List BasePart} {memo memo' : OffsetMemo} (hmem : id ∉ pending)
    (hc : h.classes.get? id = some c)
    (hbases : BasesAnswer h (id :: pending) c.bases memo' (.ok parts)) (hsound : memo'.Sound h)
    (hgrows : memo ⊆ memo') :
    ResolvedWith h pending id memo
      (match c.offsetTable h.abi h.pointerSize parts memo'.find? with
        | .error e => (.error e, memo')
        | .ok table => (.ok table, table :: memo')) := by
  obtain ⟨hspecs, hparts⟩ := hbases
  have hresolves : ∀ p ∈ parts, Resolves h p.spec.base p.table := fun p hp => (hparts p hp).1
  have hbehind : ∀ b, h.Inherits id b → (memo'.find? b).isSome = true :=
    fun b => isSome_of_inherits hsound hc hspecs fun p hp => (hparts p hp).2
  have hkeys : ∀ v ∈ (VirtualPaths.ofParts parts).map (·.1), (memo'.find? v).isSome = true :=
    fun v hv => hbehind v (inherits_of_key hc hspecs hresolves hv)
  have hvirtual : ∀ v ∈ (VirtualPaths.ofParts parts).map (·.1), ∀ tv,
      memo'.find? v = some tv → Resolves h v tv :=
    fun v _ tv htv => hsound.resolves_of_find? htv
  cases hplace : c.offsetTable h.abi h.pointerSize parts memo'.find? with
  | error e =>
    exact .of_fails (Fails.placement hmem hc hspecs hresolves hkeys hvirtual hplace) hsound hgrows
  | ok t =>
    have howner : t.owner = id := (ClassType.offsetTable_owner hplace).trans (hkeyed id c hc)
    have ht : Resolves h id t := .mk hc hspecs hresolves hkeys hvirtual hplace
    refine ⟨ht, hsound.cons (howner ▸ ht) fun b hb => hbehind b (.single (howner ▸ hb)),
      List.subset_cons_of_subset t hgrows, ?_⟩
    rintro _ ⟨⟩
    simp [OffsetMemo.find?, howner]

theorem resolveWithin_spec (hkeyed : h.Keyed) {fuel : Nat} {id : ClassId} {memo : OffsetMemo}
    (hs : memo.Sound h) (hnodup : pending.Nodup)
    (hknown : ∀ p ∈ pending, (h.classes.get? p).isSome = true)
    (hfuel : h.classes.size < pending.length + fuel) :
    ResolvedWith h pending id memo (h.resolveWithin fuel pending id memo) := by
  induction fuel generalizing pending id memo with
  | zero =>
    -- there are no more pending classes than classes
    have := OrderedMap.length_le_size hnodup hknown
    omega
  | succ fuel ih =>
    cases hfind : memo.find? id with
    | some t =>
      simp only [Hierarchy.resolveWithin, hfind]
      exact ⟨hs.resolves_of_find? hfind, hs, List.Subset.refl _, by rintro _ ⟨⟩; exact hfind⟩
    | none =>
      by_cases hmem : id ∈ pending
      · simp only [Hierarchy.resolveWithin, hfind, List.contains_iff_mem, hmem, if_true]
        exact .of_fails (Fails.cyclic hmem) hs (List.Subset.refl _)
      · cases hc : h.classes.get? id with
        | none =>
          simp only [Hierarchy.resolveWithin, hfind, List.contains_iff_mem, hmem, hc, if_false]
          exact .of_fails (Fails.unknown hmem hc) hs (List.Subset.refl _)
        | some c =>
          have hresolve : ∀ id' memo', memo'.Sound h → ResolvedWith h (id :: pending) id' memo'
              (h.resolveWithin fuel (id :: pending) id' memo') := fun id' memo' hs' =>
            ih hs' (List.nodup_cons.mpr ⟨hmem, hnodup⟩) (by simpa [hc] using hknown)
              (by simp only [List.length_cons]; omega)
          obtain ⟨hbases, hsound, hgrows⟩ := resolveBases_spec hresolve c.bases hs
          rcases hr : resolveBases (h.resolveWithin fuel (id :: pending)) c.bases memo with
            ⟨e | parts, memo'⟩
          all_goals
            rw [hr] at hbases hsound hgrows
            simp only [Hierarchy.resolveWithin, hfind, List.contains_iff_mem, hmem, hc, hr, if_false]
            obtain rfl := hkeyed id c hc
          · obtain ⟨front, spec, rest, hsplit, hfront, hfails⟩ := hbases
            exact .of_fails (Fails.base hmem hc hsplit hfront hfails) hsound hgrows
          · exact .of_bases hkeyed hmem hc hbases hsound hgrows

/-- **Resolving a class with a sound memo** gives its table or its error, and a sound memo. -/
theorem Hierarchy.resolve_answers (hkeyed : h.Keyed) {id : ClassId} {memo : OffsetMemo}
    (hs : memo.Sound h) : ResolvedWith h [] id memo (h.resolve id memo) :=
  resolveWithin_spec hkeyed hs List.nodup_nil (by simp) (by simp)

/-- A class has one right answer. -/
theorem Answers.unique {id : ClassId} {r r' : Except ModelError BaseOffsetTable}
    (hr : Answers h [] id r) (hr' : Answers h [] id r') : r = r' := by
  cases r with
  | ok t =>
    cases r' with
    | ok t' => rw [Resolves.unique hr hr']
    | error e => exact absurd hr (Fails.not_resolves hr' (.nil id))
  | error e =>
    cases r' with
    | ok t' => exact absurd hr' (Fails.not_resolves hr (.nil id))
    | error e' => rw [Fails.unique hr (.nil id) hr']

theorem Answers.transfer {h' : Hierarchy} {id : ClassId} {r : Except ModelError BaseOffsetTable}
    (hr : Answers h [] id r) (hsame : h.PlacesAlike h' id) : Answers h' [] id r := by
  cases r with
  | ok t => exact Resolves.transfer hr hsame
  | error e => exact Fails.transfer hr hsame

/-- The right answer for a class depends on the classes that can be reached only. -/
theorem Answers.congr {h' : Hierarchy} {id : ClassId} {r : Except ModelError BaseOffsetTable}
    (hr : Answers h [] id r) (habi : h.abi = h'.abi) (hptr : h.pointerSize = h'.pointerSize)
    (hagree : h.AgreeFrom h' id) : Answers h' [] id r :=
  hr.transfer (hagree.placesAlike habi hptr)

end

end ClassRecovery
