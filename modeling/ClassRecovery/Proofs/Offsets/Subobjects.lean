/-
  The sub-objects that a table lists.

  An entry lists the paths of one locus, all of them and each once (`Hierarchy.Lists`); the entries of a
  table have different loci, and no path is left out (`Hierarchy.Tabulated`).  The blocks of a table carry
  this from the tables of the bases to the table of the class (`Resolves.tabulated`).
-/
import ClassRecovery.Proofs.Offsets.Paths
import Mathlib.Data.List.Pairwise

namespace ClassRecovery

namespace Hierarchy

variable {h : Hierarchy} {id : ClassId}

/-! ## What an entry lists -/

/-- `paths` are the paths from `id` with the locus `k`, each once. -/
structure Covers (h : Hierarchy) (id : ClassId) (paths : List BasePath) (k : Locus) : Prop where
  nodup : paths.Nodup
  ne_nil : paths ≠ []
  mem_iff : ∀ path, path ∈ paths ↔ h.IsPath id path ∧ h.locus id path = k

/-- The entry `s` of a table of `id` is the sub-object with the locus `k`. -/
structure Lists (h : Hierarchy) (id : ClassId) (s : BaseSubobject) (k : Locus) : Prop
    extends Covers h id s.paths k where
  base : k.path.getLast? = some s.base
  isShared : s.inVirtualBase = k.isShared
  isVirtual : s.isVirtual = (k.isShared && k.path.length == 1)

/-- `loci` are those of the entries of a table of `id`: they are different, and no path has another. -/
structure Tabulated (h : Hierarchy) (id : ClassId) (t : BaseOffsetTable) (loci : List Locus) :
    Prop where
  nodup : loci.Nodup
  lists : List.Forall₂ (h.Lists id) t.entries loci
  complete : ∀ path, h.IsPath id path → h.locus id path ∈ loci

namespace Lists

variable {s : BaseSubobject} {k : Locus}

theorem path_ne_nil (hl : h.Lists id s k) : k.path ≠ [] := by
  intro hnil
  have hbase := hl.base
  simp [hnil] at hbase

/-- An entry outside of virtual bases lists one path, its locus. -/
theorem paths_eq (hl : h.Lists id s k) (hk : k.isShared = false) : s.paths = [k.path] := by
  have hall : ∀ path ∈ s.paths, path = k.path := by
    intro path hpath
    have hlocus := ((hl.mem_iff path).mp hpath).2
    rw [← hlocus, locus_of_not_shared (hlocus ▸ hk)]
  rw [List.eq_replicate_of_mem hall]
  have hle : s.paths.length ≤ 1 :=
    List.nodup_replicate.mp (List.eq_replicate_of_mem hall ▸ hl.nodup)
  have hpos : 0 < s.paths.length := List.length_pos_of_ne_nil hl.ne_nil
  rw [show s.paths.length = 1 by omega]
  rfl

theorem locus_eq_of_isVirtual (hl : h.Lists id s k) (hv : s.isVirtual = true) :
    k = ⟨true, [s.base]⟩ := by
  obtain ⟨shared, path⟩ := k
  have hvirtual := hl.isVirtual
  have hbase := hl.base
  simp only [hv, Bool.true_eq, Bool.and_eq_true, beq_iff_eq] at hvirtual
  obtain ⟨rfl, hlength⟩ := hvirtual
  obtain ⟨b, rfl⟩ := List.length_eq_one_iff.mp hlength
  simpa using hbase

theorem isVirtual_of_locus_eq {b : ClassId} (hl : h.Lists id s ⟨true, [b]⟩) :
    s.isVirtual = true ∧ s.base = b :=
  ⟨hl.isVirtual, (Option.some.inj hl.base).symm⟩

end Lists

namespace Tabulated

variable {t : BaseOffsetTable} {loci : List Locus}

theorem exists_lists (ht : h.Tabulated id t loci) {s : BaseSubobject} (hs : s ∈ t.entries) :
    ∃ k, h.Lists id s k := by
  obtain ⟨k, -, hk⟩ := forall₂_mem_left ht.lists hs
  exact ⟨k, hk⟩

/-- Every path is listed. -/
theorem exists_entry (ht : h.Tabulated id t loci) {path : BasePath} (hpath : h.IsPath id path) :
    ∃ s ∈ t.entries, path ∈ s.paths ∧ h.Lists id s (h.locus id path) := by
  obtain ⟨s, hs, hk⟩ := forall₂_mem_right ht.lists (ht.complete path hpath)
  exact ⟨s, hs, (hk.mem_iff path).mpr ⟨hpath, rfl⟩, hk⟩

/-- Different entries list different paths. -/
theorem pairwise_disjoint (ht : h.Tabulated id t loci) :
    t.entries.Pairwise fun s s' => s.paths.Disjoint s'.paths := by
  refine pairwise_of_forall₂ ht.lists ht.nodup fun s k s' k' hk hk' hne path hp hp' => hne ?_
  rw [← ((hk.mem_iff path).mp hp).2, ← ((hk'.mem_iff path).mp hp').2]

theorem entry_unique (ht : h.Tabulated id t loci) {s s' : BaseSubobject} (hs : s ∈ t.entries)
    (hs' : s' ∈ t.entries) {path : BasePath} (hp : path ∈ s.paths) (hp' : path ∈ s'.paths) :
    s = s' := by
  by_contra hne
  have : Std.Symm fun s s' : BaseSubobject => s.paths.Disjoint s'.paths :=
    ⟨fun _ _ hd _ hp hp' => hd hp' hp⟩
  exact ht.pairwise_disjoint.forall hs hs' hne hp hp'

theorem nodup_paths (ht : h.Tabulated id t loci) : (t.entries.flatMap (·.paths)).Nodup := by
  refine List.nodup_flatMap.mpr ⟨fun s hs => ?_, ht.pairwise_disjoint⟩
  obtain ⟨k, hk⟩ := ht.exists_lists hs
  exact hk.nodup

theorem offsetVia?_eq (ht : h.Tabulated id t loci) {s : BaseSubobject} (hs : s ∈ t.entries)
    {path : BasePath} (hp : path ∈ s.paths) : t.offsetVia? path = some s.offset := by
  cases hfind : t.entries.find? fun s => s.paths.contains path with
  | none =>
    have := List.find?_eq_none.mp hfind s hs
    simp [hp] at this
  | some s' =>
    have hp' : path ∈ s'.paths := by simpa using List.find?_some hfind
    obtain rfl := ht.entry_unique hs (List.mem_of_find?_eq_some hfind) hp hp'
    rw [BaseOffsetTable.offsetVia?, hfind]
    rfl

end Tabulated

/-! ## Blocks -/

/-- The loci of a block, from the loci of the base's table. -/
def blockLoci (shared : Bool) (base : ClassId) (loci : List Locus) : List Locus :=
  ⟨shared, [base]⟩ :: (loci.filter (!·.isShared)).map fun k => ⟨shared, base :: k.path⟩

theorem of_mem_blockLoci {shared : Bool} {base : ClassId} {loci : List Locus} {k : Locus}
    (hk : k ∈ blockLoci shared base loci) : k.isShared = shared ∧ k.path.head? = some base := by
  simp only [blockLoci, List.mem_cons, List.mem_map] at hk
  obtain rfl | ⟨k, -, rfl⟩ := hk <;> exact ⟨rfl, rfl⟩

theorem mem_blockLoci {shared : Bool} {base : ClassId} {loci : List Locus} {path : BasePath}
    (hpath : path = [] ∨ ⟨false, path⟩ ∈ loci) : ⟨shared, base :: path⟩ ∈ blockLoci shared base loci := by
  rcases hpath with rfl | hpath
  · exact List.mem_cons_self
  · refine List.mem_cons_of_mem _ (List.mem_map.mpr ⟨_, List.mem_filter.mpr ⟨hpath, rfl⟩, rfl⟩)

theorem nodup_blockLoci {shared : Bool} {base : ClassId} {loci : List Locus} (hnodup : loci.Nodup)
    (hne : ∀ k ∈ loci, k.path ≠ []) : (blockLoci shared base loci).Nodup := by
  refine List.nodup_cons.mpr ⟨fun hmem => ?_, (hnodup.filter _).map_on ?_⟩
  · obtain ⟨k, hk, heq⟩ := List.mem_map.mp hmem
    injection heq with _ hpath
    exact hne k (List.mem_of_mem_filter hk) (List.cons.inj hpath).2
  · rintro ⟨s, path⟩ hk ⟨s', path'⟩ hk' heq
    injection heq with _ hpath
    obtain rfl := (List.cons.inj hpath).2
    have hs := (List.mem_filter.mp hk).2
    have hs' := (List.mem_filter.mp hk').2
    simp only [Bool.not_eq_eq_eq_not, Bool.not_true] at hs hs'
    rw [hs, hs']

/-- **A block lists the paths through its base**, if its paths are those that end there and the table of the base
    lists the paths from the base on. -/
theorem lists_of_isBlock {base : ClassId} {table : BaseOffsetTable} {shared : Bool}
    {fronts : List BasePath} {block : List BaseSubobject} {loci : List Locus}
    (hblock : IsBlock base table shared fronts block) (hfronts : h.Covers id fronts ⟨shared, [base]⟩)
    (hlists : List.Forall₂ (h.Lists base) table.entries loci) :
    List.Forall₂ (h.Lists id) block (blockLoci shared base loci) := by
  obtain ⟨offset, hblock⟩ := hblock
  obtain ⟨inner, hinner, rfl⟩ := PlacedBase.subobjects_eq_some_iff.mp hblock
  refine .cons ⟨hfronts, rfl, rfl, by simp⟩ (List.forall₂_map_right_iff.mpr ?_)
  have houtside := forall₂_filter (f := fun s => !s.inVirtualBase) (g := fun k => !k.isShared)
    (fun s k hk => by rw [hk.isShared]) hlists
  refine forall₂_trans ?_ hinner.flip houtside
  rintro _ s k hwithin ⟨hs, hk⟩
  obtain ⟨o, -, rfl⟩ := BaseSubobject.within_eq_some_iff.mp hwithin
  have hk : k.isShared = false := by simpa using hk
  have hpaths : (fronts.flatMap fun front => s.paths.map fun back => front ++ back) =
      fronts.map (· ++ k.path) := by
    simp [hs.paths_eq hk, ← List.map_eq_flatMap]
  obtain ⟨⟨hkne, x, hkx⟩, hlocus⟩ := (hs.mem_iff k.path).mp (by simp [hs.paths_eq hk])
  have hback : h.locus base k.path = ⟨false, k.path⟩ :=
    locus_of_not_shared ((congrArg Locus.isShared hlocus).trans hk)
  refine ⟨⟨?_, ?_, fun path => ?_⟩, ?_, rfl, ?_⟩ <;> simp only [hpaths]
  · exact hfronts.nodup.map fun _ _ => List.append_cancel_right
  · simpa using hfronts.ne_nil
  · rw [List.mem_map]
    constructor
    · rintro ⟨front, hfront, rfl⟩
      obtain ⟨⟨_, y, hy⟩, hfl⟩ := (hfronts.mem_iff front).mp hfront
      obtain ⟨front', hfront', hleads, -⟩ := locus_split hy hfl
      obtain rfl : front = front' := by simpa using hfront'
      refine ⟨⟨by simp [hkne], x, hleads.append hkx⟩, ?_⟩
      rw [locus_append hleads hback, hfl]
      rfl
    · rintro ⟨⟨_, y, hy⟩, hpath⟩
      obtain ⟨front, rfl, hleads, hfne, hfl, -, -⟩ := locus_split hy hpath
      exact ⟨front, (hfronts.mem_iff front).mpr ⟨⟨hfne, base, hleads⟩, hfl⟩, rfl⟩
  · rw [List.getLast?_cons_of_ne_nil hkne]
    exact hs.base
  · have : k.path.length ≠ 0 := by simpa using hkne
    simp [this]

/-! ## Tables -/

section
variable {c : ClassType} {parts : List BasePart}

/-- A direct base leads to `v` along the paths whose last step goes to `v` and is virtual. -/
theorem exists_leadsTo_iff (hc : h.classes.get? id = some c)
    (hspecs : parts.map (·.spec) = c.bases)
    (hparts : ∀ p ∈ parts, ∃ loci, h.Tabulated p.spec.base p.table loci) {v : ClassId}
    {path : BasePath} :
    (∃ p ∈ parts, p.LeadsTo v path) ↔ h.IsPath id path ∧ h.locus id path = ⟨true, [v]⟩ := by
  constructor
  · rintro ⟨p, hp, ⟨hv, rfl, rfl⟩ | ⟨s, hs, rfl, back, hback, rfl⟩⟩
    · refine ⟨isPath_singleton_iff.mpr (directBase_of_part hc hspecs hp), ?_⟩
      rw [locus_singleton, isVirtualStep_of_part hc hspecs hp hv]
    · obtain ⟨loci, htab⟩ := hparts p hp
      obtain ⟨hs, hv⟩ := List.mem_filter.mp hs
      obtain ⟨k, -, hk⟩ := forall₂_mem_left htab.lists hs
      obtain rfl := hk.locus_eq_of_isVirtual hv
      obtain ⟨hpath, hlocus⟩ := (hk.mem_iff back).mp hback
      refine ⟨(isPath_cons_iff hpath.1).mpr ⟨directBase_of_part hc hspecs hp, hpath⟩, ?_⟩
      rw [locus_cons_shared (by rw [hlocus]), hlocus]
  · rintro ⟨⟨hne, x, hleads⟩, hlocus⟩
    cases hleads with
    | nil => exact absurd rfl hne
    | @cons _ b _ rest hstep hrest =>
      cases hs : (h.locus b rest).isShared with
      | true =>
        rw [locus_cons_shared hs] at hlocus
        obtain ⟨p, hp, rfl⟩ := part_of_directBase hc hspecs hstep
        obtain ⟨loci, htab⟩ := hparts p hp
        have hrne : rest ≠ [] := by
          rintro rfl
          simp [locus] at hs
        have hpath : h.IsPath p.spec.base rest := ⟨hrne, x, hrest⟩
        obtain ⟨s, hs, hk⟩ := forall₂_mem_right htab.lists (htab.complete rest hpath)
        have hmem := (hk.mem_iff rest).mpr ⟨hpath, rfl⟩
        obtain ⟨hv, rfl⟩ := (hlocus ▸ hk).isVirtual_of_locus_eq
        exact ⟨p, hp, .inr ⟨s, List.mem_filter.mpr ⟨hs, hv⟩, rfl, rest, hmem, rfl⟩⟩
      | false =>
        rw [locus_cons hs] at hlocus
        injection hlocus with hv hpath
        injection hpath with hb hrest
        subst hb hrest
        obtain ⟨p, hp, rfl, hvirtual⟩ := part_of_isVirtualStep hc hspecs hv
        exact ⟨p, hp, .inl ⟨hvirtual, rfl, rfl⟩⟩

end

/-- `block` is the block of the base that the paths with the locus `⟨head.1, [head.2]⟩` go to. -/
def IsBlockAt (h : Hierarchy) (id : ClassId) (head : Bool × ClassId) (block : List BaseSubobject) :
    Prop :=
  ∃ table fronts, h.Inherits id head.2 ∧ Resolves h head.2 table ∧
    IsBlock head.2 table head.1 fronts block ∧ h.Covers id fronts ⟨head.1, [head.2]⟩

/-- The table of a class is made of blocks, one for every locus of one step. -/
def Composed (h : Hierarchy) (id : ClassId) (t : BaseOffsetTable) : Prop :=
  ∃ (heads : List (Bool × ClassId)) (blocks : List (List BaseSubobject)),
    t.entries = blocks.flatten ∧ heads.Nodup ∧ List.Forall₂ (h.IsBlockAt id) heads blocks ∧
      ∀ path head, h.IsPath id path → h.locus id path = ⟨head.1, [head.2]⟩ → head ∈ heads

end Hierarchy

section
variable {h : Hierarchy} {id : ClassId}

open Hierarchy

/-- The loci of one step: the direct bases that are not virtual, and the virtual bases at any depth. -/
def heads (parts : List BasePart) : List (Bool × ClassId) :=
  (parts.filter fun p => !p.spec.isVirtual).map (fun p => (false, p.spec.base)) ++
    (VirtualPaths.ofParts parts).map fun v => (true, v.1)

theorem nodup_bases {c : ClassType} {parts : List BasePart} (hspecs : parts.map (·.spec) = c.bases)
    (hnodup : (parts.map (·.spec.base)).Nodup) : (c.bases.map (·.base)).Nodup := by
  rwa [← hspecs, List.map_map]

theorem nodup_heads {parts : List BasePart} (hnodup : (parts.map (·.spec.base)).Nodup) :
    (heads parts).Nodup := by
  refine List.nodup_append.mpr ⟨?_, ?_, ?_⟩
  · refine List.Nodup.of_map Prod.snd ?_
    rw [List.map_map]
    exact hnodup.sublist (List.filter_sublist.map _)
  · refine List.Nodup.of_map Prod.snd ?_
    rw [List.map_map]
    exact VirtualPaths.nodup_keys_ofParts parts
  · rintro _ hown _ hshared rfl
    obtain ⟨p, -, rfl⟩ := List.mem_map.mp hown
    obtain ⟨v, -, heq⟩ := List.mem_map.mp hshared
    cases heq

section
variable {c : ClassType} {parts : List BasePart} (hc : h.classes.get? id = some c)
variable (hspecs : parts.map (·.spec) = c.bases) (hnodup : (parts.map (·.spec.base)).Nodup)
include hc hspecs hnodup

/-- Only the path of one step goes to a direct base that is not virtual. -/
theorem covers_direct {p : BasePart} (hp : p ∈ parts) (hv : p.spec.isVirtual = false) :
    h.Covers id [[p.spec.base]] ⟨false, [p.spec.base]⟩ := by
  have hvstep : h.isVirtualStep id p.spec.base = false := by
    rwa [isVirtualStep_eq hc hspecs (nodup_bases hspecs hnodup) hp]
  refine ⟨List.nodup_singleton _, by simp, fun path => ?_⟩
  rw [List.mem_singleton]
  constructor
  · rintro rfl
    exact ⟨isPath_singleton_iff.mpr (directBase_of_part hc hspecs hp),
      by rw [locus_singleton, hvstep]⟩
  · rintro ⟨-, hlocus⟩
    exact eq_of_locus hlocus

variable (htab : ∀ p ∈ parts, ∃ loci, h.Tabulated p.spec.base p.table loci)
include htab

/-- The paths to a virtual base are those along which the direct bases lead to it. -/
theorem covers_virtual {v : ClassId} {paths : List BasePath}
    (hv : (v, paths) ∈ VirtualPaths.ofParts parts) : h.Covers id paths ⟨true, [v]⟩ := by
  refine ⟨VirtualPaths.nodup_paths_ofParts hnodup _ hv, VirtualPaths.ne_nil_of_mem_ofParts hv,
    fun path => ?_⟩
  rw [VirtualPaths.mem_paths_iff hv, exists_leadsTo_iff hc hspecs htab]

theorem mem_heads {path : BasePath} {head : Bool × ClassId} (hpath : h.IsPath id path)
    (hlocus : h.locus id path = ⟨head.1, [head.2]⟩) : head ∈ heads parts := by
  obtain ⟨shared, b⟩ := head
  cases shared with
  | true =>
    obtain ⟨p, hp, hlead⟩ := (exists_leadsTo_iff hc hspecs htab).mpr ⟨hpath, hlocus⟩
    obtain ⟨paths, hmem, -⟩ := VirtualPaths.has_ofParts.mpr ⟨p, hp, hlead⟩
    exact List.mem_append_right _ (List.mem_map.mpr ⟨_, hmem, rfl⟩)
  | false =>
    obtain rfl := eq_of_locus hlocus
    obtain ⟨p, hp, rfl⟩ := part_of_directBase hc hspecs (isPath_singleton_iff.mp hpath)
    rw [locus_singleton, isVirtualStep_eq hc hspecs (nodup_bases hspecs hnodup) hp] at hlocus
    have hv : p.spec.isVirtual = false := congrArg Locus.isShared hlocus
    exact List.mem_append_left _ (List.mem_map.mpr ⟨p, List.mem_filter.mpr ⟨hp, by simp [hv]⟩, rfl⟩)

end

/-- **A table is made of blocks.** -/
theorem Resolves.composed {t : BaseOffsetTable} (hr : Resolves h id t) (hd : h.DistinctBases id)
    (hbases : ∀ b tb, h.Inherits id b → Resolves h b tb → ∃ loci, h.Tabulated b tb loci) :
    h.Composed id t := by
  obtain @⟨_, c, parts, tableOf, _, hc, hspecs, hparts, hknown, hvirtual, ht⟩ := hr
  have hnodup : (parts.map (·.spec.base)).Nodup := by
    have hdistinct : (c.bases.map (·.base)).Nodup := hd id c .refl hc
    rw [← hspecs, List.map_map] at hdistinct
    exact hdistinct
  have htab : ∀ p ∈ parts, ∃ loci, h.Tabulated p.spec.base p.table loci := fun p hp =>
    hbases _ _ (.single (directBase_of_part hc hspecs hp)) (hparts p hp)
  obtain ⟨own, shared, hentries, hown, hshared⟩ := ClassType.offsetTable_entries ht
  refine ⟨heads parts, own ++ shared, ?_, nodup_heads hnodup, ?_,
    fun path head => mem_heads hc hspecs hnodup htab⟩
  · rw [hentries, List.flatten_append]
  · refine List.rel_append (List.forall₂_map_left_iff.mpr (forall₂_imp_mem hown ?_))
      (List.forall₂_map_left_iff.mpr (forall₂_imp_mem hshared ?_))
    · intro p hp block hblock
      obtain ⟨hp, hv⟩ := List.mem_filter.mp hp
      exact ⟨p.table, _, .single (directBase_of_part hc hspecs hp), hparts p hp, hblock,
        covers_direct hc hspecs hnodup hp (by simpa using hv)⟩
    · rintro ⟨v, paths⟩ hv block ⟨table, htable, hblock⟩
      have hkey : v ∈ (VirtualPaths.ofParts parts).map (·.1) := List.mem_map_of_mem hv
      exact ⟨table, paths, inherits_of_key hc hspecs hparts hkey, hvirtual v hkey table htable,
        hblock, covers_virtual hc hspecs hnodup htab hv⟩

/-- Induction on what a class is derived from. -/
theorem Resolves.inherits_induction {P : ClassId → BaseOffsetTable → Prop}
    (step : ∀ id t, Resolves h id t → (∀ b tb, h.Inherits id b → Resolves h b tb → P b tb) → P id t)
    {t : BaseOffsetTable} (hr : Resolves h id t) : P id t := by
  suffices ∀ b tb, h.Reaches id b → Resolves h b tb → P b tb from this id t .refl hr
  induction hr with
  | @mk id c parts tableOf t hc hspecs hparts hknown hvirtual ht ihparts _ =>
    have below : ∀ b tb, h.Inherits id b → Resolves h b tb → P b tb := by
      intro b tb hb hrb
      obtain ⟨d, hstep, hrest⟩ := Relation.TransGen.head'_iff.mp hb
      obtain ⟨p, hp, rfl⟩ := part_of_directBase hc hspecs hstep
      exact ihparts p hp b tb hrest hrb
    intro b tb hb hrb
    rcases Relation.reflTransGen_iff_eq_or_transGen.mp hb with rfl | hb
    · exact step b tb hrb below
    · exact below b tb hb hrb

/-- The loci of a table that is composed of blocks. -/
theorem Hierarchy.Composed.tabulated {t : BaseOffsetTable} (hcomposed : h.Composed id t)
    {lociOf : ClassId → List Locus}
    (hloci : ∀ b, h.Inherits id b → ∀ tb, Resolves h b tb → h.Tabulated b tb (lociOf b)) :
    ∃ loci, h.Tabulated id t loci := by
  obtain ⟨heads, blocks, hentries, hheads, hblocks, hcomplete⟩ := hcomposed
  refine ⟨heads.flatMap fun head => blockLoci head.1 head.2 (lociOf head.2), ?_, ?_, ?_⟩
  · refine List.nodup_flatMap.mpr ⟨fun head hhead => ?_, hheads.imp fun {a b} hne k hk hk' => hne ?_⟩
    · obtain ⟨_, _, table, _, hinherits, hres, -, -⟩ := forall₂_mem_left hblocks hhead
      have htab := hloci _ hinherits _ hres
      refine nodup_blockLoci htab.nodup fun k hk => ?_
      obtain ⟨s, -, hs⟩ := forall₂_mem_right htab.lists hk
      exact hs.path_ne_nil
    · obtain ⟨ha, ha'⟩ := of_mem_blockLoci hk
      obtain ⟨hb, hb'⟩ := of_mem_blockLoci hk'
      exact Prod.ext (ha.symm.trans hb) (Option.some.inj (ha'.symm.trans hb'))
  · rw [hentries]
    refine forall₂_flatten (hblocks.imp ?_)
    rintro head block ⟨table, fronts, hinherits, hres, hblock, hfronts⟩
    exact lists_of_isBlock hblock hfronts (hloci _ hinherits _ hres).lists
  · rintro path hpath
    obtain ⟨hne, x, hleads⟩ := hpath
    rcases hk : h.locus id path with ⟨shared, _ | ⟨b, back⟩⟩
    · exact absurd (locus_nil_iff.mp hk).1 hne
    obtain ⟨front, rfl, hfront, hfne, hfl, hback, hbl⟩ := locus_split hleads hk
    have hhead := hcomplete front (shared, b) ⟨hfne, b, hfront⟩ hfl
    obtain ⟨_, _, table, _, hinherits, hres, -, -⟩ := forall₂_mem_left hblocks hhead
    refine List.mem_flatMap.mpr ⟨_, hhead, mem_blockLoci ?_⟩
    by_cases hbne : back = []
    · exact .inl hbne
    · exact .inr (hbl ▸ (hloci _ hinherits _ hres).complete back ⟨hbne, x, hback⟩)

/-- **The entries of a table are the sub-objects of the class**: one for every locus, with all its
    paths. -/
theorem Resolves.tabulated {t : BaseOffsetTable} (hr : Resolves h id t)
    (hd : h.DistinctBases id) : ∃ loci, h.Tabulated id t loci := by
  revert hd
  refine hr.inherits_induction (P := fun id t => h.DistinctBases id → ∃ loci, h.Tabulated id t loci)
    fun id t hr ih hd => ?_
  have htab : ∀ b tb, h.Inherits id b → Resolves h b tb → ∃ loci, h.Tabulated b tb loci :=
    fun b tb hb hrb => ih b tb hb hrb (hd.base hb.to_reflTransGen)
  have hchoice : ∀ b, ∃ loci, h.Inherits id b → ∀ tb, Resolves h b tb → h.Tabulated b tb loci := by
    intro b
    by_cases hb : h.Inherits id b ∧ ∃ tb, Resolves h b tb
    · obtain ⟨hb, tb, hrb⟩ := hb
      obtain ⟨loci, hloci⟩ := htab b tb hb hrb
      exact ⟨loci, fun _ tb' hrb' => hrb.unique hrb' ▸ hloci⟩
    · exact ⟨[], fun hb' tb hrb => absurd ⟨hb', tb, hrb⟩ hb⟩
  choose lociOf hloci using hchoice
  exact (hr.composed hd htab).tabulated hloci

end

end ClassRecovery
