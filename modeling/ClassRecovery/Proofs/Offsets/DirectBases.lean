/-
  The direct bases in a table.

  No path in a table is empty, so an entry is direct exactly if it begins a block whose base is reached in one
  step.  Where a class does not list a base twice, the direct entries of its table are its direct
  bases, each once (`Resolves.direct_perm`).
-/
import ClassRecovery.Proofs.Offsets.Resolution

namespace ClassRecovery

/-- No path in the table is empty. -/
def BaseOffsetTable.Steps (t : BaseOffsetTable) : Prop := ∀ s ∈ t.entries, [] ∉ s.paths

theorem BasePart.LeadsTo.ne_nil {p : BasePart} {v : ClassId} {path : BasePath}
    (hl : p.LeadsTo v path) : path ≠ [] := by
  obtain ⟨-, -, rfl⟩ | ⟨_, -, -, _, -, rfl⟩ := hl <;> simp

/-- Only a virtual direct base leads to a virtual base in one step. -/
theorem BasePart.LeadsTo.of_length {p : BasePart} {v : ClassId} {path : BasePath}
    (hl : p.LeadsTo v path) (hsteps : p.table.Steps) (hlength : path.length = 1) :
    p.spec.isVirtual = true ∧ v = p.spec.base := by
  obtain ⟨hv, rfl, -⟩ | ⟨s, hs, -, back, hback, rfl⟩ := hl
  · exact ⟨hv, rfl⟩
  · obtain rfl : back = [] := by simpa using hlength
    exact absurd hback (hsteps s (List.mem_of_mem_filter hs))

theorem VirtualPaths.nil_notMem_ofParts {parts : List BasePart} {v : ClassId × List BasePath}
    (hv : v ∈ VirtualPaths.ofParts parts) : [] ∉ v.2 := by
  intro hnil
  obtain ⟨p, -, hl⟩ := (VirtualPaths.mem_paths_iff hv []).mp hnil
  exact hl.ne_nil rfl

/-- Of what is in a placed base, the base alone may be direct. -/
theorem PlacedBase.filter_direct {b : PlacedBase} {shared : Bool} {fronts : List BasePath}
    {block : List BaseSubobject} (hblock : b.subobjects shared fronts = some block)
    (hfronts : [] ∉ fronts) (hsteps : b.table.Steps) :
    block.filter BaseSubobject.isDirect =
      if fronts.any fun path => path.length == 1 then [⟨b.base, b.offset, shared, shared, fronts⟩]
      else [] := by
  obtain ⟨inner, hinner, rfl⟩ := PlacedBase.subobjects_eq_some_iff.mp hblock
  have hnone : inner.filter BaseSubobject.isDirect = [] := by
    refine List.filter_eq_nil_iff.mpr fun s hs hdirect => ?_
    obtain ⟨s', hs', hwithin⟩ := forall₂_mem_right hinner hs
    obtain ⟨_, -, rfl⟩ := BaseSubobject.within_eq_some_iff.mp hwithin
    obtain ⟨path, hpath, hlength⟩ := List.any_eq_true.mp hdirect
    obtain ⟨front, hfront, hpath⟩ := List.mem_flatMap.mp hpath
    obtain ⟨back, hback, rfl⟩ := List.mem_map.mp hpath
    refine length_append_ne_one (fun hnil => hfronts (hnil ▸ hfront)) (fun hnil => ?_)
      (by simpa using hlength)
    exact hsteps s' (List.mem_of_mem_filter hs') (hnil ▸ hback)
  rw [List.filter_cons, hnone, BaseSubobject.isDirect]

section
variable {base : ClassId} {table : BaseOffsetTable} {shared : Bool} {fronts : List BasePath}
  {block : List BaseSubobject}

theorem IsBlock.steps (hblock : IsBlock base table shared fronts block) (hfronts : [] ∉ fronts) :
    ∀ s ∈ block, [] ∉ s.paths := by
  obtain ⟨offset, hblock⟩ := hblock
  obtain ⟨inner, hinner, rfl⟩ := PlacedBase.subobjects_eq_some_iff.mp hblock
  intro s hs hnil
  rcases List.mem_cons.mp hs with rfl | hs
  · exact hfronts hnil
  · obtain ⟨s', -, hwithin⟩ := forall₂_mem_right hinner hs
    obtain ⟨_, -, rfl⟩ := BaseSubobject.within_eq_some_iff.mp hwithin
    obtain ⟨front, hfront, hnil⟩ := List.mem_flatMap.mp hnil
    obtain ⟨back, -, heq⟩ := List.mem_map.mp hnil
    exact hfronts ((List.append_eq_nil_iff.mp heq).1 ▸ hfront)

/-- A block has one direct entry if its base is reached in one step, and else none. -/
theorem IsBlock.direct (hblock : IsBlock base table shared fronts block) (hfronts : [] ∉ fronts)
    (hsteps : table.Steps) :
    (block.filter BaseSubobject.isDirect).map (·.base) =
      if fronts.any fun path => path.length == 1 then [base] else [] := by
  obtain ⟨offset, hblock⟩ := hblock
  rw [PlacedBase.filter_direct hblock hfronts hsteps]
  split <;> rfl

end

/-- What is chosen from several blocks, if it is one entry at most of each. -/
theorem filter_flatten_of_blocks {ι β : Type} {choose : BaseSubobject → Bool} {value : BaseSubobject → β}
    {f : ι → β} {isChosen : ι → Bool} {l : List ι} {blocks : List (List BaseSubobject)}
    (h : List.Forall₂ (fun i block => (block.filter choose).map value =
      if isChosen i then [f i] else []) l blocks) :
    (blocks.flatten.filter choose).map value = (l.filter isChosen).map f := by
  induction h with
  | nil => rfl
  | cons hblock _ ih =>
    rw [List.flatten_cons, List.filter_append, List.map_append, hblock, ih, List.filter_cons]
    split <;> rfl

section
variable {h : Hierarchy} {id : ClassId} {t : BaseOffsetTable}

theorem Resolves.steps (hr : Resolves h id t) : t.Steps := by
  obtain @⟨_, c, parts, tableOf, _, -, -, -, -, -, ht⟩ := hr
  obtain ⟨own, shared, hentries, hown, hshared⟩ := ClassType.offsetTable_entries ht
  intro s hs
  rcases List.mem_append.mp (hentries ▸ hs) with hs | hs <;>
    obtain ⟨block, hmem, hs⟩ := List.mem_flatten.mp hs
  · obtain ⟨p, -, hblock⟩ := forall₂_mem_right hown hmem
    exact hblock.steps (by simp) s hs
  · obtain ⟨v, hv, table, -, hblock⟩ := forall₂_mem_right hshared hmem
    exact hblock.steps (VirtualPaths.nil_notMem_ofParts hv) s hs

/-- The direct bases in the table of a class, block by block. -/
theorem Resolves.direct_eq {c : ClassType} (hr : Resolves h id t)
    (hc : h.classes.get? id = some c) :
    ∃ parts : List BasePart, parts.map (·.spec) = c.bases ∧ (∀ p ∈ parts, p.table.Steps) ∧
      t.direct.map (·.base) =
        (parts.filter fun p => !p.spec.isVirtual).map (·.spec.base) ++
          ((VirtualPaths.ofParts parts).filter fun v => v.2.any fun path => path.length == 1).map
            (·.1) := by
  obtain @⟨_, c', parts, tableOf, _, hc', hspecs, hparts, hknown, hvirtual, ht⟩ := hr
  obtain rfl : c = c' := Option.some.inj (hc.symm.trans hc')
  obtain ⟨own, shared, hentries, hown, hshared⟩ := ClassType.offsetTable_entries ht
  refine ⟨parts, hspecs, fun p hp => (hparts p hp).steps, ?_⟩
  rw [BaseOffsetTable.direct, hentries, List.filter_append, List.map_append]
  congr 1
  · refine (filter_flatten_of_blocks (forall₂_imp_mem hown ?_)).trans
      (congrArg _ (List.filter_eq_self.mpr fun _ _ => rfl))
    intro p hp block hblock
    exact hblock.direct (by simp) (hparts p (List.mem_of_mem_filter hp)).steps
  · refine filter_flatten_of_blocks (forall₂_imp_mem hshared ?_)
    rintro v hv block ⟨table, htable, hblock⟩
    exact hblock.direct (VirtualPaths.nil_notMem_ofParts hv)
      (hvirtual v.1 (List.mem_map_of_mem hv) table htable).steps

/-- **The direct entries of a table are the direct bases of the class**, each once. -/
theorem Resolves.direct_perm {c : ClassType} (hr : Resolves h id t)
    (hc : h.classes.get? id = some c) (hdistinct : (c.bases.map (·.base)).Nodup) :
    (t.direct.map (·.base)).Perm (c.bases.map (·.base)) := by
  obtain ⟨parts, hspecs, hsteps, hdirect⟩ := hr.direct_eq hc
  have hbases : c.bases.map (·.base) = parts.map (·.spec.base) := by
    rw [← hspecs, List.map_map]
    rfl
  rw [hbases] at hdistinct
  -- a virtual base that is reached in one step is a virtual direct base
  have hshort : ∀ v ∈ VirtualPaths.ofParts parts, (v.2.any fun path => path.length == 1) = true →
      ∃ p ∈ parts, p.spec.isVirtual = true ∧ p.spec.base = v.1 := by
    intro v hv hany
    obtain ⟨path, hpath, hlength⟩ := List.any_eq_true.mp hany
    obtain ⟨p, hp, hl⟩ := (VirtualPaths.mem_paths_iff hv path).mp hpath
    obtain ⟨hvirtual, heq⟩ := hl.of_length (hsteps p hp) (by simpa using hlength)
    exact ⟨p, hp, hvirtual, heq.symm⟩
  rw [hdirect, hbases, List.perm_ext_iff_of_nodup ?_ hdistinct]
  · intro b
    simp only [List.mem_append, List.mem_map, List.mem_filter]
    constructor
    · rintro (⟨p, ⟨hp, -⟩, rfl⟩ | ⟨v, ⟨hv, hany⟩, rfl⟩)
      · exact ⟨p, hp, rfl⟩
      · obtain ⟨p, hp, -, heq⟩ := hshort v hv hany
        exact ⟨p, hp, heq⟩
    · rintro ⟨p, hp, rfl⟩
      cases hvirtual : p.spec.isVirtual with
      | false => exact .inl ⟨p, ⟨hp, by simp [hvirtual]⟩, rfl⟩
      | true =>
        obtain ⟨paths, hv, hpath⟩ := VirtualPaths.has_ofParts.mpr
          ⟨p, hp, .inl ⟨hvirtual, rfl, rfl⟩⟩
        exact .inr ⟨_, ⟨hv, List.any_eq_true.mpr ⟨_, hpath, rfl⟩⟩, rfl⟩
  · refine List.nodup_append.mpr ⟨hdistinct.sublist (List.filter_sublist.map _),
      (VirtualPaths.nodup_keys_ofParts parts).sublist (List.filter_sublist.map _), ?_⟩
    rintro _ hown _ hshared rfl
    obtain ⟨p, hp, heq⟩ := List.mem_map.mp hown
    obtain ⟨v, hv, heq'⟩ := List.mem_map.mp hshared
    obtain ⟨hp, hnot⟩ := List.mem_filter.mp hp
    obtain ⟨hv, hany⟩ := List.mem_filter.mp hv
    obtain ⟨p', hp', hvirtual, hbase⟩ := hshort v hv hany
    obtain rfl := List.inj_on_of_nodup_map hdistinct hp hp' (by rw [heq, hbase, heq'])
    simp [hvirtual] at hnot

end

end ClassRecovery
