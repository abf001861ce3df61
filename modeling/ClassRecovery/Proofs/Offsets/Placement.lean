/-
  What the table of one class is made of.

  The sub-objects of a class come in blocks: one for every non-virtual direct base, and behind these one
  for every virtual base, at any depth.  A block is the base itself, and what lies in it outside of
  virtual bases (`ClassType.offsetTable_entries`).  The tables of virtual bases are looked up by
  identity, and only those of the class's own virtual bases count (`ClassType.offsetTable_congr`).
-/
import ClassRecovery.Offsets.Resolution
import ClassRecovery.Proofs.Lists
import Mathlib.Data.List.Nodup

namespace ClassRecovery

/-! ## Blocks -/

theorem BaseSubobject.within_eq_some_iff {s s' : BaseSubobject} {via : List BasePath}
    {offset : Word} {inVirtualBase : Bool} :
    s.within via offset inVirtualBase = some s' ↔
      ∃ o, checkedAdd offset s.offset = some o ∧
        s' = ⟨s.base, o, false, inVirtualBase,
          via.flatMap fun front => s.paths.map fun back => front ++ back⟩ := by
  simp only [within, Option.map_eq_some_iff, eq_comm (a := s')]

/-- A base is a block with what lies in it outside of virtual bases. -/
theorem PlacedBase.subobjects_eq_some_iff {b : PlacedBase} {isVirtual : Bool}
    {paths : List BasePath} {block : List BaseSubobject} :
    b.subobjects isVirtual paths = some block ↔
      ∃ inner, List.Forall₂ (fun s s' => s.within paths b.offset isVirtual = some s')
          b.table.outsideVirtual inner ∧
        block = ⟨b.base, b.offset, isVirtual, isVirtual, paths⟩ :: inner := by
  simp only [subobjects, bind, pure, Option.bind_eq_some_iff, mapM_eq_some_iff, Option.some.injEq,
    eq_comm (a := block)]

/-- `block` is a block for a base with the given table, reached by the given paths. -/
def IsBlock (base : ClassId) (table : BaseOffsetTable) (isVirtual : Bool) (paths : List BasePath)
    (block : List BaseSubobject) : Prop :=
  ∃ offset, PlacedBase.subobjects ⟨base, table, offset⟩ isVirtual paths = some block

/-- A base is in the extent already, as the primary base at offset zero, or is placed. -/
theorem placeBases_cons_eq_some {ahead : Bool} {p : BasePart} {rest : List BasePart} {e e' : Extent}
    {placed : List PlacedBase} (h : placeBases ahead (p :: rest) e = some (placed, e')) :
    ∃ ahead' offset e₁ more, placeBases ahead' rest e₁ = some (more, e') ∧
      placed = ⟨p.spec.base, p.table, offset⟩ :: more ∧
      (e₁ = e ∨ e.place p.spec.offset p.table.nvSize p.table.nvAlign = some (offset, e₁)) := by
  simp only [placeBases] at h
  split at h <;>
    simp only [bind, pure, Option.bind_eq_some_iff, Option.some.injEq, Prod.mk.injEq, Prod.exists] at h
  · obtain ⟨more, _, hrest, rfl, rfl⟩ := h
    exact ⟨false, 0, e, more, hrest, rfl, .inl rfl⟩
  · obtain ⟨offset, e₁, hplace, more, _, hrest, rfl, rfl⟩ := h
    exact ⟨ahead, offset, e₁, more, hrest, rfl, .inr hplace⟩

theorem placeBases_forall₂ {ahead : Bool} {parts : List BasePart} {e e' : Extent}
    {placed : List PlacedBase} (h : placeBases ahead parts e = some (placed, e')) :
    List.Forall₂ (fun p b => b.base = p.spec.base ∧ b.table = p.table) parts placed := by
  induction parts generalizing ahead e placed with
  | nil =>
    simp only [placeBases, Option.some.injEq, Prod.mk.injEq] at h
    simp [← h.1]
  | cons p rest ih =>
    obtain ⟨_, _, _, _, hrest, rfl, -⟩ := placeBases_cons_eq_some h
    exact .cons ⟨rfl, rfl⟩ (ih hrest)

theorem ClassType.nonVirtualPart?_bases {c : ClassType} {abi : Abi} {pointerSize : Word}
    {parts : List BasePart} {nv : NonVirtualPart}
    (h : c.nonVirtualPart? abi pointerSize parts = some nv) :
    List.Forall₂ (fun p b => b.base = p.spec.base ∧ b.table = p.table)
      (parts.filter fun p => !p.spec.isVirtual) nv.bases := by
  simp only [nonVirtualPart?, bind, pure, Option.bind_eq_some_iff] at h
  obtain ⟨_, _, ⟨bases, _⟩, hbases, h⟩ := h
  split at h <;> simp only [Option.bind_eq_some_iff, Option.some.injEq] at h
  all_goals
    obtain ⟨_, _, _, _, _, _, rfl⟩ := h
    exact placeBases_forall₂ hbases

/-- A virtual base is looked up, placed, and listed with what lies in it. -/
theorem placeVirtualBases_cons_eq_ok {tableOf : ClassId → Option BaseOffsetTable} {owner base : ClassId}
    {paths : List BasePath} {rest : VirtualPaths} {e e' : Extent} {shared : List BaseSubobject}
    (h : placeVirtualBases tableOf owner ((base, paths) :: rest) e = .ok (shared, e')) :
    ∃ table offset e₁ block more, tableOf base = some table ∧
      e.place none table.nvSize table.nvAlign = some (offset, e₁) ∧
      PlacedBase.subobjects ⟨base, table, offset⟩ true paths = some block ∧
      placeVirtualBases tableOf owner rest e₁ = .ok (more, e') ∧ shared = block ++ more := by
  simp only [placeVirtualBases, bind_eq_ok_iff, elim_eq_ok_iff, Prod.exists] at h
  obtain ⟨table, htable, _, e₁, hblock, more, _, hmore, h⟩ := h
  simp only [bind, pure, Option.bind_eq_some_iff, Option.some.injEq, Prod.mk.injEq, Prod.exists] at hblock
  obtain ⟨offset, _, hplace, block, hblock, rfl, rfl⟩ := hblock
  obtain ⟨rfl, rfl⟩ := Prod.mk.inj (Except.ok.inj h)
  exact ⟨table, offset, _, block, more, htable, hplace, hblock, hmore, rfl⟩

theorem placeVirtualBases_blocks {tableOf : ClassId → Option BaseOffsetTable} {owner : ClassId}
    {known : VirtualPaths} {e e' : Extent} {shared : List BaseSubobject}
    (h : placeVirtualBases tableOf owner known e = .ok (shared, e')) :
    ∃ blocks, shared = blocks.flatten ∧
      List.Forall₂ (fun v block => ∃ table, tableOf v.1 = some table ∧
        IsBlock v.1 table true v.2 block) known blocks := by
  induction known generalizing e e' shared with
  | nil =>
    simp only [placeVirtualBases, Except.ok.injEq, Prod.mk.injEq] at h
    exact ⟨[], by simp [← h.1], .nil⟩
  | cons v rest ih =>
    obtain ⟨table, offset, e₁, block, more, htable, -, hblock, hmore, rfl⟩ := placeVirtualBases_cons_eq_ok h
    obtain ⟨blocks, rfl, hblocks⟩ := ih hmore
    exact ⟨block :: blocks, rfl, .cons ⟨table, htable, offset, hblock⟩ hblocks⟩

/-- **The entries of a table are blocks**, those of the non-virtual direct bases first and those of
    the virtual bases behind. -/
theorem ClassType.offsetTable_entries {c : ClassType} {abi : Abi} {pointerSize : Word}
    {parts : List BasePart} {tableOf : ClassId → Option BaseOffsetTable} {t : BaseOffsetTable}
    (h : c.offsetTable abi pointerSize parts tableOf = .ok t) :
    ∃ own shared, t.entries = own.flatten ++ shared.flatten ∧
      List.Forall₂ (fun p block => IsBlock p.spec.base p.table false [[p.spec.base]] block)
        (parts.filter fun p => !p.spec.isVirtual) own ∧
      List.Forall₂ (fun v block => ∃ table, tableOf v.1 = some table ∧
        IsBlock v.1 table true v.2 block) (VirtualPaths.ofParts parts) shared := by
  simp only [offsetTable, bind_eq_ok_iff, elim_eq_ok_iff] at h
  obtain ⟨nv, hnv, own, hown, ⟨shared, extent⟩, hshared, size, -, h⟩ := h
  obtain ⟨blocks, rfl, hblocks⟩ := placeVirtualBases_blocks hshared
  simp only [pure, Except.pure, Except.ok.injEq] at h
  refine ⟨own, blocks, by rw [← h], ?_, hblocks⟩
  refine forall₂_trans ?_ (nonVirtualPart?_bases hnv) (mapM_eq_some_iff.mp hown)
  rintro p b block ⟨hbase, htable⟩ hblock
  rw [← hbase, ← htable]
  exact ⟨b.offset, hblock⟩

/-- What a block holds besides its base comes from the base's table. -/
theorem IsBlock.base_eq {base : ClassId} {table : BaseOffsetTable} {isVirtual : Bool}
    {paths : List BasePath} {block : List BaseSubobject} (h : IsBlock base table isVirtual paths block)
    {s : BaseSubobject} (hs : s ∈ block) : s.base = base ∨ ∃ s' ∈ table.entries, s'.base = s.base := by
  obtain ⟨offset, hblock⟩ := h
  obtain ⟨inner, hinner, rfl⟩ := PlacedBase.subobjects_eq_some_iff.mp hblock
  rcases List.mem_cons.mp hs with rfl | hs
  · exact Or.inl rfl
  · obtain ⟨s', hs', hw⟩ := forall₂_mem_right hinner hs
    obtain ⟨_, -, rfl⟩ := BaseSubobject.within_eq_some_iff.mp hw
    exact Or.inr ⟨s', List.mem_of_mem_filter hs', rfl⟩

/-! ## Virtual bases -/

/-- A direct base that leads to the virtual base `v` along `path`: it is `v`, or its table has `v`. -/
def BasePart.LeadsTo (p : BasePart) (v : ClassId) (path : BasePath) : Prop :=
  (p.spec.isVirtual = true ∧ v = p.spec.base ∧ path = [p.spec.base]) ∨
    ∃ s ∈ p.table.virtualBases, v = s.base ∧ ∃ back ∈ s.paths, path = p.spec.base :: back

namespace VirtualPaths

/-- `path` is one of the paths that are known for the virtual base `v`. -/
def Has (known : VirtualPaths) (v : ClassId) (path : BasePath) : Prop :=
  ∃ paths, (v, paths) ∈ known ∧ path ∈ paths

theorem not_has_nil (v : ClassId) (path : BasePath) : ¬ Has [] v path := by simp [Has]

theorem has_cons {b v : ClassId} {paths : List BasePath} {rest : VirtualPaths} {path : BasePath} :
    Has ((b, paths) :: rest) v path ↔ (v = b ∧ path ∈ paths) ∨ Has rest v path := by
  simp only [Has, List.mem_cons, Prod.mk.injEq]
  constructor
  · rintro ⟨paths', ⟨rfl, rfl⟩ | h, hp⟩
    · exact Or.inl ⟨rfl, hp⟩
    · exact Or.inr ⟨paths', h, hp⟩
  · rintro (⟨rfl, hp⟩ | ⟨paths', h, hp⟩)
    · exact ⟨paths, Or.inl ⟨rfl, rfl⟩, hp⟩
    · exact ⟨paths', Or.inr h, hp⟩

theorem has_add {base v : ClassId} {path q : BasePath} {known : VirtualPaths} :
    (add base path known).Has v q ↔ known.Has v q ∨ (v = base ∧ q = path) := by
  induction known with
  | nil => simp [add, has_cons, not_has_nil]
  | cons entry rest ih =>
    obtain ⟨b, paths⟩ := entry
    simp only [add]
    split
    · next hb =>
      subst hb
      simp only [has_cons, List.mem_append, List.mem_singleton]
      tauto
    · simp only [has_cons, ih]
      tauto

theorem has_of_lookup {base : ClassId} {paths : List BasePath} {known : VirtualPaths}
    (h : known.lookup base = some paths) {path : BasePath} (hp : path ∈ paths) :
    known.Has base path := by
  induction known with
  | nil => simp at h
  | cons entry rest ih =>
    obtain ⟨b, paths'⟩ := entry
    rw [List.lookup_cons] at h
    split at h
    · next hb =>
      obtain rfl : base = b := by simpa using hb
      cases h
      exact has_cons.mpr (Or.inl ⟨rfl, hp⟩)
    · exact has_cons.mpr (Or.inr (ih h))

theorem has_addNew {base v : ClassId} {path q : BasePath} {known : VirtualPaths} :
    (addNew base path known).Has v q ↔ known.Has v q ∨ (v = base ∧ q = path) := by
  unfold addNew
  split
  · next h =>
    obtain ⟨paths, hpaths, hp⟩ := (Option.any_eq_true ..).mp h
    have hbase : known.Has base path := has_of_lookup hpaths (by simpa using hp)
    constructor
    · exact Or.inl
    · rintro (hq | ⟨rfl, rfl⟩)
      · exact hq
      · exact hbase
  · exact has_add

theorem has_addPart {known : VirtualPaths} {p : BasePart} {v : ClassId} {q : BasePath} :
    (known.addPart p).Has v q ↔ known.Has v q ∨ p.LeadsTo v q := by
  have inner : ∀ (base : ClassId) (paths : List BasePath) (k : VirtualPaths),
      (paths.foldl (fun k path => addNew base (p.spec.base :: path) k) k).Has v q ↔
        k.Has v q ∨ (v = base ∧ ∃ back ∈ paths, q = p.spec.base :: back) := by
    intro base paths
    induction paths with
    | nil => simp
    | cons path paths ih =>
      intro k
      simp only [List.foldl_cons, ih, has_addNew, List.mem_cons, exists_eq_or_imp]
      tauto
  have outer : ∀ (l : List BaseSubobject) (k : VirtualPaths),
      (l.foldl (fun k s => s.paths.foldl (fun k path => addNew s.base (p.spec.base :: path) k) k)
        k).Has v q ↔
        k.Has v q ∨ ∃ s ∈ l, v = s.base ∧ ∃ back ∈ s.paths, q = p.spec.base :: back := by
    intro l
    induction l with
    | nil => simp
    | cons s l ih =>
      intro k
      simp only [List.foldl_cons, ih, inner, List.mem_cons, exists_eq_or_imp, or_assoc]
  simp only [addPart, outer, BasePart.LeadsTo]
  split
  · next h =>
    simp only [has_add, h]
    tauto
  · next h =>
    simp only [h]
    tauto

/-- **The virtual bases of a class** are those its direct bases lead to. -/
theorem has_ofParts {parts : List BasePart} {v : ClassId} {q : BasePath} :
    (ofParts parts).Has v q ↔ ∃ p ∈ parts, p.LeadsTo v q := by
  have : ∀ (l : List BasePart) (k : VirtualPaths),
      (l.foldl addPart k).Has v q ↔ k.Has v q ∨ ∃ p ∈ l, p.LeadsTo v q := by
    intro l
    induction l with
    | nil => simp
    | cons p l ih =>
      intro k
      simp only [List.foldl_cons, ih, has_addPart, List.mem_cons, exists_eq_or_imp]
      tauto
  simp [ofParts, this, not_has_nil]

/-- What adding paths keeps holds of the virtual bases of a class. -/
theorem ofParts_induction {P : VirtualPaths → Prop} (hnil : P [])
    (hadd : ∀ known base path, P known → P (add base path known)) (parts : List BasePart) :
    P (ofParts parts) := by
  have hnew : ∀ known base path, P known → P (addNew base path known) := by
    intro known base path h
    unfold addNew
    split
    · exact h
    · exact hadd _ _ _ h
  refine List.foldlRecOn (motive := P) _ _ hnil fun k hk p _ => ?_
  refine List.foldlRecOn (motive := P) _ _ ?_ fun k hk s _ => ?_
  · split
    · exact hadd _ _ _ hk
    · exact hk
  · exact List.foldlRecOn (motive := P) _ _ hk fun k hk path _ => hnew _ _ _ hk

/-- Every virtual base is reached by some path. -/
theorem ne_nil_of_mem_ofParts {parts : List BasePart} {v : ClassId} {paths : List BasePath}
    (h : (v, paths) ∈ ofParts parts) : paths ≠ [] := by
  refine ofParts_induction (P := fun k => ∀ e ∈ k, e.2 ≠ []) (by simp) ?_ parts _ h
  intro known base path hknown
  induction known with
  | nil => simp [add]
  | cons e rest ih =>
    obtain ⟨b, ps⟩ := e
    simp only [add]
    split
    · simp only [List.mem_cons, forall_eq_or_imp] at hknown ⊢
      exact ⟨by simp, hknown.2⟩
    · simp only [List.mem_cons, forall_eq_or_imp] at hknown ⊢
      exact ⟨hknown.1, ih hknown.2⟩

/-- Every virtual base is listed once. -/
theorem nodup_keys_ofParts (parts : List BasePart) : ((ofParts parts).map (·.1)).Nodup := by
  refine ofParts_induction (P := fun k => (k.map (·.1)).Nodup) (by simp) ?_ parts
  intro known base path hknown
  have hkeys : ∀ k : VirtualPaths, ∀ v, v ∈ (add base path k).map (·.1) → v = base ∨ v ∈ k.map (·.1) := by
    intro k
    induction k with
    | nil => simp [add]
    | cons e rest ih =>
      obtain ⟨b, ps⟩ := e
      intro v hv
      simp only [add] at hv
      split at hv
      · exact Or.inr hv
      · simp only [List.map_cons, List.mem_cons] at hv ⊢
        rcases hv with rfl | hv
        · exact Or.inr (Or.inl rfl)
        · exact (ih v hv).imp_right Or.inr
  induction known with
  | nil => simp [add]
  | cons e rest ih =>
    obtain ⟨b, ps⟩ := e
    simp only [add]
    simp only [List.map_cons, List.nodup_cons] at hknown
    split
    · simpa using hknown
    · next hb =>
      simp only [List.map_cons, List.nodup_cons]
      refine ⟨fun hmem => ?_, ih hknown.2⟩
      rcases hkeys rest b hmem with h | h
      · exact hb h
      · exact hknown.1 h

theorem mem_keys_ofParts {parts : List BasePart} {v : ClassId}
    (h : v ∈ (ofParts parts).map (·.1)) : ∃ p ∈ parts, ∃ path, p.LeadsTo v path := by
  obtain ⟨⟨_, paths⟩, hmem, rfl⟩ := List.mem_map.mp h
  obtain ⟨path, hpath⟩ := List.exists_mem_of_ne_nil _ (ne_nil_of_mem_ofParts hmem)
  obtain ⟨p, hp, hlead⟩ := has_ofParts.mp ⟨paths, hmem, hpath⟩
  exact ⟨p, hp, path, hlead⟩

/-- The paths that are known for a virtual base of the class. -/
theorem mem_paths_iff {parts : List BasePart} {v : ClassId} {paths : List BasePath}
    (h : (v, paths) ∈ ofParts parts) (path : BasePath) :
    path ∈ paths ↔ ∃ p ∈ parts, p.LeadsTo v path := by
  rw [← has_ofParts]
  constructor
  · exact fun hp => ⟨paths, h, hp⟩
  · rintro ⟨paths', h', hp⟩
    obtain rfl : paths = paths' := by
      have := List.inj_on_of_nodup_map (nodup_keys_ofParts parts) h h' rfl
      exact congrArg Prod.snd this
    exact hp

theorem nodup_add {base : ClassId} {path : BasePath} {known : VirtualPaths}
    (hfresh : ∀ paths, known.lookup base = some paths → path ∉ paths)
    (hknown : ∀ e ∈ known, e.2.Nodup) : ∀ e ∈ add base path known, e.2.Nodup := by
  induction known with
  | nil => simp [add]
  | cons entry rest ih =>
    obtain ⟨b, paths⟩ := entry
    simp only [List.mem_cons, forall_eq_or_imp] at hknown
    simp only [add]
    split
    · next hb =>
      have hnot : path ∉ paths := hfresh paths (by simp [hb])
      simp only [List.mem_cons, forall_eq_or_imp]
      exact ⟨List.concat_eq_append ▸ hknown.1.concat hnot, hknown.2⟩
    · next hb =>
      simp only [List.mem_cons, forall_eq_or_imp]
      refine ⟨hknown.1, ih (fun paths' hl => hfresh paths' ?_) hknown.2⟩
      have hbase : (base == b) = false := by simpa using Ne.symm hb
      rw [List.lookup_cons, hbase]
      exact hl

theorem nodup_addNew {base : ClassId} {path : BasePath} {known : VirtualPaths}
    (hknown : ∀ e ∈ known, e.2.Nodup) : ∀ e ∈ addNew base path known, e.2.Nodup := by
  unfold addNew
  split
  · exact hknown
  · next hnew =>
    refine nodup_add (fun paths hpaths hmem => hnew ?_) hknown
    simpa [hpaths] using hmem

/-- Where no direct base is listed twice, no path to a virtual base is. -/
theorem nodup_paths_ofParts {parts : List BasePart} (hdistinct : (parts.map (·.spec.base)).Nodup) :
    ∀ e ∈ ofParts parts, e.2.Nodup := by
  -- the paths that are known already begin with the direct bases before
  have hfold : ∀ (l : List BasePart) (known : VirtualPaths), (l.map (·.spec.base)).Nodup →
      (∀ p ∈ l, ∀ v path, known.Has v path → path.head? ≠ some p.spec.base) →
      (∀ e ∈ known, e.2.Nodup) → ∀ e ∈ l.foldl addPart known, e.2.Nodup := by
    intro l
    induction l with
    | nil => exact fun known _ _ hknown => hknown
    | cons p l ih =>
      intro known hnodup hbefore hknown
      obtain ⟨hp, hnodup⟩ := List.nodup_cons.mp hnodup
      refine ih _ hnodup (fun p' hp' v path hhas => ?_) ?_
      · rcases has_addPart.mp hhas with hhas | hlead
        · exact hbefore p' (List.mem_cons_of_mem _ hp') v path hhas
        · have hne : p.spec.base ≠ p'.spec.base := fun heq =>
            hp (List.mem_map.mpr ⟨p', hp', heq.symm⟩)
          obtain ⟨-, -, rfl⟩ | ⟨_, -, -, _, -, rfl⟩ := hlead <;> simpa using hne
      · have hown : ∀ e ∈ (if p.spec.isVirtual then add p.spec.base [p.spec.base] known
            else known), e.2.Nodup := by
          split
          · refine nodup_add (fun paths hpaths hmem => ?_) hknown
            exact hbefore p List.mem_cons_self _ _ (has_of_lookup hpaths hmem) rfl
          · exact hknown
        let P (k : VirtualPaths) : Prop := ∀ e ∈ k, e.2.Nodup
        refine List.foldlRecOn (motive := P) _ _ hown fun k hk s _ => ?_
        exact List.foldlRecOn (motive := P) _ _ hk fun k hk path _ => nodup_addNew hk
  exact hfold parts [] hdistinct (fun _ _ v path hhas => absurd hhas (not_has_nil v path)) (by simp)

end VirtualPaths

theorem placeVirtualBases_congr {tableOf tableOf' : ClassId → Option BaseOffsetTable}
    {owner : ClassId} {known : VirtualPaths}
    (h : ∀ v ∈ known.map (·.1), tableOf v = tableOf' v) (e : Extent) :
    placeVirtualBases tableOf owner known e = placeVirtualBases tableOf' owner known e := by
  induction known generalizing e with
  | nil => rfl
  | cons v rest ih =>
    obtain ⟨base, paths⟩ := v
    simp only [List.map_cons, List.mem_cons, forall_eq_or_imp] at h
    simp only [placeVirtualBases, h.1, fun e => ih h.2 e]

/-- **Only the tables of the virtual bases of the class count** among those that can be looked up. -/
theorem ClassType.offsetTable_congr {c : ClassType} {abi : Abi} {pointerSize : Word}
    {parts : List BasePart} {tableOf tableOf' : ClassId → Option BaseOffsetTable}
    (h : ∀ v ∈ (VirtualPaths.ofParts parts).map (·.1), tableOf v = tableOf' v) :
    c.offsetTable abi pointerSize parts tableOf = c.offsetTable abi pointerSize parts tableOf' := by
  have hplace (e : Extent) : placeVirtualBases tableOf c.id (VirtualPaths.ofParts parts) e =
      placeVirtualBases tableOf' c.id (VirtualPaths.ofParts parts) e := placeVirtualBases_congr h e
  simp only [offsetTable, hplace]

theorem ClassType.offsetTable_owner {c : ClassType} {abi : Abi} {pointerSize : Word}
    {parts : List BasePart} {tableOf : ClassId → Option BaseOffsetTable} {t : BaseOffsetTable}
    (h : c.offsetTable abi pointerSize parts tableOf = .ok t) : t.owner = c.id := by
  simp only [offsetTable, bind_eq_ok_iff] at h
  obtain ⟨_, _, _, _, _, _, _, _, h⟩ := h
  simp only [pure, Except.pure, Except.ok.injEq] at h
  rw [← h]

end ClassRecovery
