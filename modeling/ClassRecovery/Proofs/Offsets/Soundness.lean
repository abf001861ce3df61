/-
  Resolving a class ends, and succeeds on sound hierarchies only.

  A class is sound if everything that can be reached from it is listed and nothing of that inherits from itself
  (`Hierarchy.SoundFrom`).  A class with a table is sound, a sound class can fail by an overflow only, and every
  other error names a class that can be reached and is to blame (`Hierarchy.Blames`).

  Resolving is bounded in depth, but the bound never shows (`Hierarchy.resolve_eq`): each step down takes one more
  class out of those that are not being resolved yet.  Nothing is asked of the classes: they may be
  missing, inherit from each other, or be listed under another identity than their own.
-/
import ClassRecovery.Proofs.Model.Operations

namespace ClassRecovery

/-! ## Errors of placing the bases -/

/-- Virtual bases whose tables are known can fail to be placed by an overflow only. -/
theorem placeVirtualBases_error {tableOf : ClassId → Option BaseOffsetTable} {owner : ClassId}
    {vs : VirtualPaths} {extent : Extent} {e : ModelError}
    (hknown : ∀ v ∈ vs.map (·.1), (tableOf v).isSome = true)
    (h : placeVirtualBases tableOf owner vs extent = .error e) : e = .offsetOverflow owner := by
  induction vs generalizing extent with
  | nil => cases h
  | cons v rest ih =>
    obtain ⟨base, paths⟩ := v
    simp only [List.map_cons, List.mem_cons, forall_eq_or_imp] at hknown
    obtain ⟨table, htable⟩ := Option.isSome_iff_exists.mp hknown.1
    rw [placeVirtualBases, htable] at h
    rcases bind_eq_error_iff.mp h with h | ⟨_, ht, h⟩
    · cases h
    obtain rfl := Except.ok.inj ht
    rcases bind_eq_error_iff.mp h with h | ⟨placed, -, h⟩
    · exact (elim_eq_error_iff.mp h).2
    rcases bind_eq_error_iff.mp h with h | ⟨_, -, h⟩
    · exact ih hknown.2 h
    · cases h

/-- The bases of a class can fail to be placed by an overflow only. -/
theorem ClassType.offsetTable_error {c : ClassType} {abi : Abi} {pointerSize : Word}
    {parts : List BasePart} {tableOf : ClassId → Option BaseOffsetTable} {e : ModelError}
    (hknown : ∀ v ∈ (VirtualPaths.ofParts parts).map (·.1), (tableOf v).isSome = true)
    (h : c.offsetTable abi pointerSize parts tableOf = .error e) : e = .offsetOverflow c.id := by
  rcases bind_eq_error_iff.mp h with h | ⟨nv, -, h⟩
  · exact (elim_eq_error_iff.mp h).2
  rcases bind_eq_error_iff.mp h with h | ⟨own, -, h⟩
  · exact (elim_eq_error_iff.mp h).2
  rcases bind_eq_error_iff.mp h with h | ⟨shared, -, h⟩
  · exact placeVirtualBases_error hknown h
  rcases bind_eq_error_iff.mp h with h | ⟨size, -, h⟩
  · exact (elim_eq_error_iff.mp h).2
  · cases h

namespace Hierarchy

/-! ## Sound classes -/

/-- Every class that can be reached is listed, and none of them inherits from itself. -/
def SoundFrom (h : Hierarchy) (id : ClassId) : Prop :=
  ∀ d, h.Reaches id d → (h.classes.get? d).isSome = true ∧ ¬ h.Inherits d d

/-- The error is true of a class that can be reached. -/
def Blames (h : Hierarchy) (id : ClassId) : ModelError → Prop
  | .unknownClass u => h.Reaches id u ∧ h.classes.get? u = none
  | .cyclicInheritance d => h.Reaches id d ∧ h.Inherits d d
  | .offsetOverflow d => h.Reaches id d ∧ h.SoundFrom d
  | .layout _ _ => False

theorem Blames.of_directBase {h : Hierarchy} {a b : ClassId} {e : ModelError}
    (hstep : h.DirectBase a b) (hb : h.Blames b e) : h.Blames a e := by
  cases e with
  | unknownClass | cyclicInheritance | offsetOverflow => exact ⟨.head hstep hb.1, hb.2⟩
  | layout => exact hb

/-- What is blamed for anything but an overflow is not sound. -/
theorem Blames.of_soundFrom {h : Hierarchy} {id : ClassId} {e : ModelError} (hb : h.Blames id e)
    (hsound : h.SoundFrom id) : ∃ d, e = .offsetOverflow d := by
  cases e with
  | unknownClass u =>
    have hlisted := (hsound u hb.1).1
    rw [hb.2] at hlisted
    cases hlisted
  | cyclicInheritance d => exact absurd hb.2 (hsound d hb.1).2
  | offsetOverflow d => exact ⟨d, rfl⟩
  | layout => exact hb.elim

end Hierarchy

section
variable {h : Hierarchy}

/-- **A class whose direct bases have tables is sound.** -/
theorem soundFrom_of_parts {id : ClassId} {c : ClassType} {parts : List BasePart}
    (hc : h.classes.get? id = some c) (hspecs : parts.map (·.spec) = c.bases)
    (hparts : ∀ p ∈ parts, Resolves h p.spec.base p.table) : h.SoundFrom id := by
  have below {b d : ClassId} (hstep : h.DirectBase id b) (hd : h.Reaches b d) :
      ∃ t, Resolves h d t := by
    obtain ⟨p, hp, rfl⟩ := part_of_directBase hc hspecs hstep
    exact (hparts p hp).of_reaches hd
  intro d hd
  rcases Relation.ReflTransGen.cases_head hd with rfl | ⟨b, hstep, hd⟩
  · refine ⟨by rw [hc]; rfl, fun hcycle => ?_⟩
    obtain ⟨b, hstep, hback⟩ := Relation.TransGen.head'_iff.mp hcycle
    -- a cycle through the class is one through its direct base
    obtain ⟨t, hb⟩ := below hstep .refl
    exact hb.not_inherits_self (Relation.TransGen.tail' hback hstep)
  · obtain ⟨t, ht⟩ := below hstep hd
    obtain ⟨c', hc'⟩ := ht.exists_class
    exact ⟨by rw [hc']; rfl, ht.not_inherits_self⟩

theorem Resolves.soundFrom {id : ClassId} {t : BaseOffsetTable} (hr : Resolves h id t) :
    h.SoundFrom id := by
  cases hr with
  | mk hc hspecs hparts _ _ _ => exact soundFrom_of_parts hc hspecs hparts

/-- **An error tells the truth.** -/
theorem Fails.blames (hkeyed : h.Keyed) {pending : List ClassId} {id : ClassId} {e : ModelError}
    (hf : Fails h pending id e) (hp : Pending h pending id) : h.Blames id e := by
  induction hf with
  | cyclic hmem => exact ⟨.refl, hp _ hmem⟩
  | unknown _ hnone => exact ⟨.refl, hnone⟩
  | base _ hc hbases _ _ ih =>
    have hstep := directBase_of_split hc hbases
    exact (ih (hp.cons hstep)).of_directBase hstep
  | @placement pending id c _ _ _ _ hc hspecs hparts hknown _ hplace =>
    obtain rfl := ClassType.offsetTable_error hknown hplace
    obtain rfl := hkeyed id c hc
    exact ⟨.refl, soundFrom_of_parts hc hspecs hparts⟩

end

namespace Hierarchy

/-! ## Resolving without a bound -/

/-- The classes that are listed and not being resolved. -/
def idle (h : Hierarchy) (pending : List ClassId) : List ClassId :=
  h.classes.keys.filter fun id => id ∉ pending

theorem length_idle_cons_lt {h : Hierarchy} {pending : List ClassId} {id : ClassId}
    (hid : id ∉ pending) (hlisted : (h.classes.get? id).isSome = true) :
    (h.idle (id :: pending)).length < (h.idle pending).length := by
  have hmem : id ∈ h.idle pending :=
    List.mem_filter.mpr ⟨OrderedMap.mem_keys_iff.mpr hlisted, by simpa using hid⟩
  have hsplit : h.idle (id :: pending) = (h.idle pending).filter (· ≠ id) := by
    rw [idle, idle, List.filter_filter]
    refine List.filter_congr fun d _ => ?_
    simp only [List.mem_cons, not_or, Bool.decide_and]
  rw [hsplit]
  exact List.length_filter_lt_length_iff_exists.mpr ⟨id, hmem, by simp⟩

/-- Resolves a class while those in `pending` are being resolved, however deep its bases are. -/
def resolveFrom (h : Hierarchy) (pending : List ClassId) : Resolver := fun id memo =>
  match memo.find? id with
  | some table => (.ok table, memo)
  | none =>
    if _hid : id ∈ pending then (.error (.cyclicInheritance id), memo)
    else match _hc : h.classes.get? id with
      | none => (.error (.unknownClass id), memo)
      | some c =>
        match resolveBases (h.resolveFrom (id :: pending)) c.bases memo with
        | (.error e, memo) => (.error e, memo)
        | (.ok parts, memo) =>
          match { c with id }.offsetTable h.abi h.pointerSize parts memo.find? with
          | .error e => (.error e, memo)
          | .ok table => (.ok table, table :: memo)
termination_by (h.idle pending).length
decreasing_by exact length_idle_cons_lt _hid (by rw [_hc]; rfl)

/-- A depth that is more than there are classes left never shows. -/
theorem resolveWithin_eq {h : Hierarchy} {fuel : ℕ} {pending : List ClassId}
    (hfuel : (h.idle pending).length < fuel) : h.resolveWithin fuel pending = h.resolveFrom pending := by
  induction fuel generalizing pending with
  | zero => exact absurd hfuel (Nat.not_lt_zero _)
  | succ fuel ih =>
    funext id memo
    rw [resolveFrom, resolveWithin]
    cases memo.find? id with
    | some table => rfl
    | none =>
      by_cases hid : id ∈ pending
      · simp only [List.contains_iff_mem, hid, if_true, dite_true]
      · simp only [List.contains_iff_mem, hid, if_false, dite_false]
        symm
        split
        · next hc => simp only [hc]
        · next c hc =>
          have hless := length_idle_cons_lt hid (by rw [hc]; rfl)
          have hbelow := ih (Nat.lt_of_lt_of_le hless (Nat.lt_succ_iff.mp hfuel))
          simp only [hc]
          exact hbelow ▸ rfl

/-- **Resolving ends**: no bound on the depth shows. -/
theorem resolve_eq (h : Hierarchy) : h.resolve = h.resolveFrom [] := by
  refine resolveWithin_eq (Nat.lt_succ_of_le ?_)
  have hsize : h.classes.keys.length = h.classes.size := List.length_map _
  exact hsize ▸ List.length_filter_le _ _

/-! ## Classes under other identities than their own -/

/-- The classes, each with the identity that it is listed under. -/
def listed (h : Hierarchy) : Hierarchy :=
  { h with classes := h.classes.mapValues fun id c => { c with id } }

theorem get?_listed (h : Hierarchy) (id : ClassId) :
    h.listed.classes.get? id = (h.classes.get? id).map ({ · with id }) :=
  OrderedMap.get?_mapValues ..

theorem keyed_listed (h : Hierarchy) : h.listed.Keyed := by
  intro id c hc
  rw [get?_listed, Option.map_eq_some_iff] at hc
  obtain ⟨_, -, rfl⟩ := hc
  rfl

theorem listed_eq {h : Hierarchy} (hkeyed : h.Keyed) : h.listed = h := by
  have hclasses : h.listed.classes = h.classes := OrderedMap.ext fun id => by
    rw [get?_listed]
    cases hc : h.classes.get? id with
    | none => rfl
    | some c =>
      obtain rfl := hkeyed id c hc
      rfl
  rw [listed]
  exact congrArg (Hierarchy.mk h.abi h.pointerSize) hclasses

theorem directBase_listed (h : Hierarchy) : h.listed.DirectBase = h.DirectBase := by
  funext a b
  refine propext ⟨?_, ?_⟩
  · rintro ⟨c, hc, hb⟩
    rw [get?_listed, Option.map_eq_some_iff] at hc
    obtain ⟨c, hc, rfl⟩ := hc
    exact ⟨c, hc, hb⟩
  · rintro ⟨c, hc, hb⟩
    exact ⟨{ c with id := a }, by rw [get?_listed, hc]; rfl, hb⟩

theorem reaches_listed (h : Hierarchy) : h.listed.Reaches = h.Reaches :=
  congrArg Relation.ReflTransGen h.directBase_listed

theorem inherits_listed (h : Hierarchy) : h.listed.Inherits = h.Inherits :=
  congrArg Relation.TransGen h.directBase_listed

theorem soundFrom_listed (h : Hierarchy) : h.listed.SoundFrom = h.SoundFrom := by
  funext id
  simp only [SoundFrom, reaches_listed, inherits_listed, get?_listed, Option.isSome_map]

theorem blames_listed (h : Hierarchy) : h.listed.Blames = h.Blames := by
  funext id e
  cases e <;> simp only [Blames, reaches_listed, inherits_listed, soundFrom_listed, get?_listed,
    Option.map_eq_none_iff]

/-- Resolving goes by the identities that classes are listed under. -/
theorem resolve_listed (h : Hierarchy) : h.listed.resolve = h.resolve := by
  have hwithin (fuel : ℕ) (pending : List ClassId) :
      h.listed.resolveWithin fuel pending = h.resolveWithin fuel pending := by
    induction fuel generalizing pending with
    | zero => rfl
    | succ fuel ih =>
      funext id memo
      simp only [resolveWithin, get?_listed, ih]
      cases h.classes.get? id <;> rfl
  have hsize : h.listed.classes.size = h.classes.size := OrderedMap.size_mapValues ..
  rw [resolve, resolve, hwithin, hsize]

theorem resolvedWith_listed {h : Hierarchy} {memo : OffsetMemo} (hs : memo.Sound h.listed)
    (id : ClassId) : ResolvedWith h.listed [] id memo (h.resolve id memo) :=
  h.resolve_listed ▸ resolve_answers h.keyed_listed hs

/-! ## What resolving gives and keeps -/

/-- What the result of resolving a class, with the tables known afterwards, says about the hierarchy. -/
structure Decides (h : Hierarchy) (id : ClassId) (memo : OffsetMemo)
    (r : Except ModelError BaseOffsetTable × OffsetMemo) : Prop where
  /-- It is what resolving without a bound gives. -/
  ends : r = h.resolveFrom [] id memo
  sound : ∀ t, r.1 = .ok t → h.SoundFrom id
  complete : h.SoundFrom id → (∃ t, r.1 = .ok t) ∨ ∃ d, r.1 = .error (.offsetOverflow d)
  blames : ∀ e, r.1 = .error e → h.Blames id e
  kept : ∀ t, r.1 = .ok t → r.2.find? id = some t
  dropped : ∀ e, r.1 = .error e → r.2.find? id = none
  /-- What is kept is what resolving gives without any known tables. -/
  correct : ∀ d t, r.2.find? d = some t → Resolves h.listed d t ∧ (h.resolve d []).1 = .ok t
  /-- Nothing is kept for a class that fails. -/
  unresolved : ∀ d e, (h.resolve d []).1 = .error e → r.2.find? d = none
  grows : ∀ d t, memo.find? d = some t → r.2.find? d = some t

/-- **Resolving decides whether a class is sound**, up to overflows. -/
theorem decides_resolve {h : Hierarchy} {memo : OffsetMemo} (hs : memo.Sound h.listed) (id : ClassId) :
    h.Decides id memo (h.resolve id memo) := by
  obtain ⟨hanswer, hsound, hgrows, hkept⟩ := resolvedWith_listed hs id
  have hblames {e : ModelError} (he : (h.resolve id memo).1 = .error e) : h.Blames id e := by
    rw [he] at hanswer
    exact h.blames_listed ▸ hanswer.blames h.keyed_listed (.nil id)
  have hfresh {d : ClassId} {t : BaseOffsetTable} (ht : (h.resolve id memo).2.find? d = some t) :
      Resolves h.listed d t ∧ (h.resolve d []).1 = .ok t := by
    have hr := hsound.resolves_of_find? ht
    have hanswer : Answers h.listed [] d (.ok t) := hr
    exact ⟨hr, (resolvedWith_listed (.nil _) d).answers.unique hanswer⟩
  refine ⟨by rw [resolve_eq], fun t ht => ?_, fun hid => ?_, fun e => hblames, hkept, fun e he => ?_,
    fun d t => hfresh, fun d e he => ?_, fun d t ht => ?_⟩
  · rw [ht] at hanswer
    exact h.soundFrom_listed ▸ Resolves.soundFrom hanswer
  · cases hr : (h.resolve id memo).1 with
    | ok t => exact .inl ⟨t, rfl⟩
    | error e =>
      obtain ⟨d, rfl⟩ := (hblames hr).of_soundFrom hid
      exact .inr ⟨d, rfl⟩
  · rw [he] at hanswer
    refine Option.eq_none_iff_forall_ne_some.mpr fun t ht => ?_
    exact Fails.not_resolves hanswer (.nil id) (hfresh ht).1
  · refine Option.eq_none_iff_forall_ne_some.mpr fun t ht => ?_
    rw [(hfresh ht).2] at he
    cases he
  · have hfound : (memo.find? d).isSome = true := by rw [ht]; rfl
    obtain ⟨t', ht'⟩ := Option.isSome_iff_exists.mp (OffsetMemo.isSome_find?_mono hgrows hfound)
    rw [ht', (hsound.resolves_of_find? ht').unique (hs.resolves_of_find? ht)]

/-- The tables that are known after resolving several classes, whether it succeeded or not. -/
def memoAfter (h : Hierarchy) (ids : List ClassId) : OffsetMemo :=
  ids.foldl (fun memo id => (h.resolve id memo).2) []

theorem sound_memoAfter (h : Hierarchy) (ids : List ClassId) : (h.memoAfter ids).Sound h.listed := by
  suffices ∀ memo : OffsetMemo, memo.Sound h.listed →
      (ids.foldl (fun memo id => (h.resolve id memo).2) memo).Sound h.listed from this [] (.nil _)
  induction ids with
  | nil => exact fun memo hs => hs
  | cons id rest ih =>
    intro memo hs
    exact ih _ (resolvedWith_listed hs id).sound

end Hierarchy

/-- In a coherent model, the offset tables of classes are resolved as those of their hierarchy. -/
theorem ClassModel.Coherent.decides {m : ClassModel} (hm : m.Coherent) (id : ClassId) :
    m.hierarchy.Decides id m.tables ((m.offsetTable id).1, (m.offsetTable id).2.tables) := by
  have hs := hm.tables
  rw [← Hierarchy.listed_eq hm.keyed] at hs
  exact Hierarchy.decides_resolve hs id

/-- **Resolving ends, and succeeds on sound hierarchies only.**  This holds of any classes, after any of them have
    been resolved, and of models, whatever was done to them: the tables that are known do not show, what is
    kept is correct, and nothing is kept for a class that fails. -/
theorem resolution_decides :
    (∀ (h : Hierarchy) (earlier : List ClassId) (id : ClassId),
      h.Decides id (h.memoAfter earlier) (h.resolve id (h.memoAfter earlier))) ∧
    ∀ (abi : Abi) (pointerSize : Word) (ops : List ClassModel.Operation) (id : ClassId),
      let m := ClassModel.reached abi pointerSize ops
      m.hierarchy.Decides id m.tables ((m.offsetTable id).1, (m.offsetTable id).2.tables) :=
  ⟨fun h earlier id => Hierarchy.decides_resolve (h.sound_memoAfter earlier) id,
    fun abi pointerSize ops id => (ClassModel.coherent_reached abi pointerSize ops).decides id⟩

/-- A class that has a proper base, and itself as another one. -/
example :
    let proper : ClassType := { id := 1, name := "Tail", memberSize := 4, memberAlign := 4 }
    let cyclic : ClassType :=
      { id := 2, name := "Ouroboros", bases := [⟨1, false, true, none⟩, ⟨2, false, true, none⟩] }
    let h : Hierarchy := ⟨.itanium, 8, .ofList [(1, proper), (2, cyclic)]⟩
    (h.resolve 2 []).1 = .error (.cyclicInheritance 2) ∧ (h.resolve 2 []).2.map (·.owner) = [1] := by
  decide

end ClassRecovery
