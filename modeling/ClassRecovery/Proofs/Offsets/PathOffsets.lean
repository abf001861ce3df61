/-
  Offsets along paths.

  A base lies in a class where its path leads, and what lies in the base outside of virtual bases moves along
  with it: offsets add up along a path that goes on without virtual steps (`Resolves.at_append`).  Together
  with the sub-objects that a table lists, this is what base offset tables are for
  (`ClassModel.offsetTable_paths`).
-/
import ClassRecovery.Proofs.Model.Operations
import ClassRecovery.Proofs.Offsets.Subobjects

namespace ClassRecovery

open Hierarchy

/-- What the path leads to is `n` bytes into the object; the object itself is at its own beginning. -/
def BaseOffsetTable.At (t : BaseOffsetTable) (path : BasePath) (n : Nat) : Prop :=
  (path = [] ∧ n = 0) ∨ ∃ s ∈ t.entries, path ∈ s.paths ∧ s.offset.toNat = n

section
variable {h : Hierarchy} {id : ClassId} {t : BaseOffsetTable} {loci : List Locus}

theorem Hierarchy.Tabulated.at_unique (ht : h.Tabulated id t loci) {path : BasePath} {n n' : Nat}
    (hn : t.At path n) (hn' : t.At path n') : n = n' := by
  have not_nil {s : BaseSubobject} (hs : s ∈ t.entries) : [] ∉ s.paths := by
    intro hnil
    obtain ⟨k, hk⟩ := ht.exists_lists hs
    exact ((hk.mem_iff []).mp hnil).1.1 rfl
  rcases hn with ⟨rfl, rfl⟩ | ⟨s, hs, hp, rfl⟩
  · rcases hn' with ⟨-, rfl⟩ | ⟨s', hs', hp', -⟩
    · rfl
    · exact absurd hp' (not_nil hs')
  · rcases hn' with ⟨rfl, -⟩ | ⟨s', hs', hp', rfl⟩
    · exact absurd hp (not_nil hs)
    · rw [ht.entry_unique hs hs' hp hp']

theorem Hierarchy.Tabulated.exists_at (ht : h.Tabulated id t loci) {path : BasePath} {x : ClassId}
    (hleads : h.Leads id path x) : ∃ n, t.At path n := by
  by_cases hne : path = []
  · exact ⟨0, .inl ⟨hne, rfl⟩⟩
  · obtain ⟨s, hs, hp, -⟩ := ht.exists_entry ⟨hne, x, hleads⟩
    exact ⟨_, .inr ⟨s, hs, hp, rfl⟩⟩

/-- What lies in a base outside of virtual bases lies in a block for the base, moved by where the base is. -/
theorem IsBlock.exists_at {base : ClassId} {table : BaseOffsetTable} {shared : Bool}
    {fronts : List BasePath} {block : List BaseSubobject}
    (hblock : IsBlock base table shared fronts block) (ht : h.Tabulated base table loci) :
    ∃ o : Nat, ∀ back n, h.locus base back = ⟨false, back⟩ → table.At back n →
      ∀ front ∈ fronts, ∃ s ∈ block, front ++ back ∈ s.paths ∧ s.offset.toNat = o + n := by
  obtain ⟨offset, hblock⟩ := hblock
  obtain ⟨inner, hinner, rfl⟩ := PlacedBase.subobjects_eq_some_iff.mp hblock
  refine ⟨offset.toNat, fun back n hlocus hat front hfront => ?_⟩
  rcases hat with ⟨rfl, rfl⟩ | ⟨s, hs, hp, rfl⟩
  · exact ⟨_, List.mem_cons_self, by simpa using hfront, rfl⟩
  · obtain ⟨k, hk⟩ := ht.exists_lists hs
    have hout : s.inVirtualBase = false := by
      rw [hk.isShared, ← ((hk.mem_iff back).mp hp).2, hlocus]
    have hmem : s ∈ table.outsideVirtual := List.mem_filter.mpr ⟨hs, by simp [hout]⟩
    obtain ⟨s', hs', hwithin⟩ := forall₂_mem_left hinner hmem
    obtain ⟨o, ho, rfl⟩ := BaseSubobject.within_eq_some_iff.mp hwithin
    exact ⟨_, List.mem_cons_of_mem _ hs',
      List.mem_flatMap.mpr ⟨front, hfront, List.mem_map.mpr ⟨back, hp, rfl⟩⟩,
      checkedAdd_eq_some_iff.mp ho⟩

/-- **Offsets add up** along a path that goes on without virtual steps. -/
theorem Resolves.at_append (hr : Resolves h id t) (hd : h.DistinctBases id) {front back : BasePath}
    {x : ClassId} {tx : BaseOffsetTable} {n m : Nat} (hfront : h.Leads id front x)
    (hx : Resolves h x tx) (hback : h.locus x back = ⟨false, back⟩) (hn : t.At front n)
    (hm : tx.At back m) : t.At (front ++ back) (n + m) := by
  revert hd front n
  refine hr.inherits_induction (P := fun id t => h.DistinctBases id → ∀ {front : BasePath} {n : Nat},
    h.Leads id front x → t.At front n → t.At (front ++ back) (n + m)) ?_
  intro id t hr ih hd front n hfront hn
  obtain ⟨loci, ht⟩ := hr.tabulated hd
  have htab : ∀ b tb, h.Inherits id b → Resolves h b tb → ∃ loci, h.Tabulated b tb loci :=
    fun b tb hb hrb => hrb.tabulated (hd.base hb.to_reflTransGen)
  rcases hk : h.locus id front with ⟨shared, _ | ⟨b, rest⟩⟩
  · obtain rfl := (locus_nil_iff.mp hk).1
    obtain rfl := leads_nil_iff.mp hfront
    obtain rfl := hr.unique hx
    obtain rfl := ht.at_unique hn (.inl ⟨rfl, rfl⟩)
    simpa using hm
  · obtain ⟨front, rfl, hleads, hfne, hfl, hrest, hrl⟩ := locus_split hfront hk
    obtain ⟨heads, blocks, hentries, -, hblocks, hcomplete⟩ := hr.composed hd htab
    have hhead := hcomplete front (shared, b) ⟨hfne, b, hleads⟩ hfl
    obtain ⟨block, hmem, table, fronts, hinherits, hres, hblock, hfronts⟩ :=
      forall₂_mem_left hblocks hhead
    obtain ⟨loci', ht'⟩ := htab b table hinherits hres
    obtain ⟨o, ho⟩ := hblock.exists_at ht'
    have hmemfront : front ∈ fronts := (hfronts.mem_iff front).mpr ⟨⟨hfne, b, hleads⟩, hfl⟩
    -- the block has both the base at the end of `rest` and what `back` leads to from there
    have via (back' : BasePath) (n' : Nat) (hl : h.locus b back' = ⟨false, back'⟩)
        (hat : table.At back' n') : t.At (front ++ back') (o + n') := by
      obtain ⟨s, hs, hp, hoffset⟩ := ho back' n' hl hat front hmemfront
      exact .inr ⟨s, hentries ▸ List.mem_flatten.mpr ⟨block, hmem, hs⟩, hp, hoffset⟩
    obtain ⟨n', hn'⟩ := ht'.exists_at hrest
    obtain rfl := ht.at_unique hn (via rest n' hrl hn')
    have hall : h.locus b (rest ++ back) = ⟨false, rest ++ back⟩ := by
      rw [locus_append hrest hback, hrl]
    have hinner := ih b table hinherits hres (hd.base hinherits.to_reflTransGen) hrest hn'
    rw [List.append_assoc, Nat.add_assoc]
    exact via _ _ hall hinner

end

namespace ClassModel

/-- **The offset table of a class holds exactly its base sub-objects**, where no class that can be reached lists a
    direct base twice: every path is in one entry and there once, nothing else is, paths share an entry
    exactly if they are equal from their last virtual step on, and offsets add up along paths without
    virtual steps. -/
theorem offsetTable_paths (abi : Abi) (pointerSize : Word) (ops : List Operation) (id : ClassId)
    (t : BaseOffsetTable) (ht : ((reached abi pointerSize ops).offsetTable id).1 = .ok t)
    (hd : (reached abi pointerSize ops).hierarchy.DistinctBases id) :
    let m := reached abi pointerSize ops
    let h := m.hierarchy
    (∀ path, h.IsPath id path → (t.entries.flatMap (·.paths)).count path = 1) ∧
      (∀ s ∈ t.entries, s.paths ≠ [] ∧
        ∀ path ∈ s.paths, h.IsPath id path ∧ path.getLast? = some s.base) ∧
      (∀ path path', h.IsPath id path → h.IsPath id path' →
        ((∃ s ∈ t.entries, path ∈ s.paths ∧ path' ∈ s.paths) ↔
          h.locus id path = h.locus id path')) ∧
      ∀ front x back, front ≠ [] → h.Leads id front x → h.IsPath x back →
        h.isNonVirtual x back = true →
        ∃ tx a b c, (m.offsetTable x).1 = .ok tx ∧ t.offsetVia? front = some a ∧
          tx.offsetVia? back = some b ∧ t.offsetVia? (front ++ back) = some c ∧
          c.toNat = a.toNat + b.toNat := by
  intro m h
  have hm : m.Coherent := coherent_reached abi pointerSize ops
  have hr : Resolves h id t := hm.resolves ht
  obtain ⟨loci, htab⟩ := hr.tabulated hd
  refine ⟨fun path hpath => ?_, fun s hs => ?_, fun path path' hpath hpath' => ?_, ?_⟩
  · obtain ⟨s, hs, hp, -⟩ := htab.exists_entry hpath
    exact List.count_eq_one_of_mem htab.nodup_paths (List.mem_flatMap.mpr ⟨s, hs, hp⟩)
  · obtain ⟨k, hk⟩ := htab.exists_lists hs
    refine ⟨hk.ne_nil, fun path hp => ?_⟩
    obtain ⟨hpath, rfl⟩ := (hk.mem_iff path).mp hp
    exact ⟨hpath, (getLast?_locus id path).symm.trans hk.base⟩
  · constructor
    · rintro ⟨s, hs, hp, hp'⟩
      obtain ⟨k, hk⟩ := htab.exists_lists hs
      rw [((hk.mem_iff path).mp hp).2, ((hk.mem_iff path').mp hp').2]
    · intro heq
      obtain ⟨s, hs, hp, hk⟩ := htab.exists_entry hpath
      exact ⟨s, hs, hp, (hk.mem_iff path').mpr ⟨hpath', heq.symm⟩⟩
  · rintro front x back hne hfront hback hnv
    obtain ⟨tx, hx⟩ := hr.of_reaches hfront.reaches
    obtain ⟨lociX, htabX⟩ := hx.tabulated (hd.base hfront.reaches)
    have hlocus : h.locus x back = ⟨false, back⟩ :=
      locus_of_not_shared (by rw [isShared_locus, hnv]; rfl)
    obtain ⟨s, hs, hp, -⟩ := htab.exists_entry ⟨hne, x, hfront⟩
    obtain ⟨sx, hsx, hpx, -⟩ := htabX.exists_entry hback
    have hat := hr.at_append hd hfront hx hlocus (.inr ⟨s, hs, hp, rfl⟩) (.inr ⟨sx, hsx, hpx, rfl⟩)
    rcases hat with ⟨hnil, -⟩ | ⟨s', hs', hp', hoffset⟩
    · exact absurd (List.append_eq_nil_iff.mp hnil).1 hne
    · exact ⟨tx, _, _, _, hm.offsetTable_eq hx, htab.offsetVia?_eq hs hp, htabX.offsetVia?_eq hsx hpx,
        htab.offsetVia?_eq hs' hp', hoffset⟩

/-- A diamond: both paths to the virtual base `1` are in one entry of the table of `4`. -/
theorem offsetTable_paths_diamond :
    let m := reached .itanium 8
      [.insert { id := 1, name := "Top", memberSize := 8 },
        .insert { id := 2, name := "Left", bases := [⟨1, true, true, none⟩] },
        .insert { id := 3, name := "Right", bases := [⟨1, true, true, none⟩] },
        .insert { id := 4, name := "Bottom", bases := [⟨2, false, true, none⟩, ⟨3, false, true, none⟩] }]
    ∃ t, (m.offsetTable 4).1 = .ok t ∧ m.hierarchy.DistinctBases 4 ∧
      ∃ s ∈ t.entries, [2, 1] ∈ s.paths ∧ [3, 1] ∈ s.paths := by
  intro m
  have hd : m.hierarchy.DistinctBases 4 := distinctBases_of_forall (by decide +kernel)
  have hleft : m.hierarchy.IsPath 4 [2, 1] :=
    ⟨by simp, 1, .cons ⟨_, rfl, _, List.mem_cons_self, rfl⟩
      (.cons ⟨_, rfl, _, List.mem_cons_self, rfl⟩ (.nil 1))⟩
  have hright : m.hierarchy.IsPath 4 [3, 1] :=
    ⟨by simp, 1, .cons ⟨_, rfl, _, List.mem_cons_of_mem _ List.mem_cons_self, rfl⟩
      (.cons ⟨_, rfl, _, List.mem_cons_self, rfl⟩ (.nil 1))⟩
  cases ht : (m.offsetTable 4).1 with
  | error e =>
    have hok : (m.offsetTable 4).1.isOk = true := by decide +kernel
    rw [ht] at hok
    cases hok
  | ok t =>
    have hshare := (offsetTable_paths .itanium 8 _ 4 t ht hd).2.2.1 [2, 1] [3, 1] hleft hright
    exact ⟨t, rfl, hd, hshare.mpr (by decide +kernel)⟩

end ClassModel

end ClassRecovery
