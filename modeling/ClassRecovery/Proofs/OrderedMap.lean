/-
  Entries and keys of ordered maps.

  A map stores a value for a key if and only if they are an entry (`get?_eq_some_iff`), so the keys are
  those with a value (`mem_keys_iff`), each of them once.  Different keys with values are no more
  than there are entries (`length_le_size`), and the entry at or before a key is the last of those that are
  not after it (`floor?_eq_some_iff`).  Of several values that are stored for a key one after
  the other, the last one stays (`get?_foldl_insert_last`).
-/
import ClassRecovery.OrderedMap
import Mathlib.Data.List.Perm.Subperm

namespace ClassRecovery

namespace OrderedMap

variable {K V : Type} [OrderedKey K]

open OrderedKey

theorem lookup_cons_self (k : K) (v : V) (l : List (K × V)) : lookup k ((k, v) :: l) = some v := by
  simp [lookup, before_irrefl]

theorem lookup_cons_of_ne {k : K} {e : K × V} (l : List (K × V)) (h : k ≠ e.1) :
    lookup k (e :: l) = lookup k l := by
  have apart : (before k e.1 || before e.1 k) = true := by
    by_contra hnot
    simp only [Bool.or_eq_true, not_or, Bool.not_eq_true] at hnot
    exact h (eq_of_not_before _ _ hnot.1 hnot.2)
  simp [lookup, apart]

theorem get?_eq_some_iff {m : OrderedMap K V} {k : K} {v : V} :
    m.get? k = some v ↔ (k, v) ∈ m.entries := by
  suffices ∀ l : List (K × V), (l.Pairwise fun a b => before a.1 b.1 = true) →
      (lookup k l = some v ↔ (k, v) ∈ l) from this m.entries m.ascending
  intro l
  induction l with
  | nil => simp [lookup]
  | cons e rest ih =>
    intro hasc
    obtain ⟨he, hrest⟩ := List.pairwise_cons.mp hasc
    obtain ⟨k', v'⟩ := e
    by_cases hk : k = k'
    · subst hk
      rw [lookup_cons_self]
      constructor
      · intro h
        simp [Option.some.inj h]
      · intro h
        rcases List.mem_cons.mp h with h | h
        · simp [(Prod.mk.inj h).2]
        · have := he _ h
          simp [before_irrefl] at this
    · rw [lookup_cons_of_ne rest hk, ih hrest]
      simp [hk]

theorem mem_keys_iff {m : OrderedMap K V} {k : K} : k ∈ m.keys ↔ (m.get? k).isSome = true := by
  simp only [keys, List.mem_map, Option.isSome_iff_exists, get?_eq_some_iff]
  constructor
  · rintro ⟨⟨_, v⟩, h, rfl⟩
    exact ⟨v, h⟩
  · rintro ⟨v, h⟩
    exact ⟨(k, v), h, rfl⟩

theorem nodup_keys (m : OrderedMap K V) : m.keys.Nodup := by
  refine List.pairwise_map.mpr (m.ascending.imp fun {a b} h heq => ?_)
  rw [heq, before_irrefl] at h
  exact Bool.false_ne_true h

theorem length_le_size {m : OrderedMap K V} {l : List K} (hnodup : l.Nodup)
    (h : ∀ k ∈ l, (m.get? k).isSome = true) : l.length ≤ m.size := by
  have hsub : l ⊆ m.keys := fun k hk => mem_keys_iff.mpr (h k hk)
  simpa [keys, size] using (List.subperm_of_subset hnodup hsub).length_le

theorem insert_insert [DecidableEq K] (m : OrderedMap K V) (k : K) (v v' : V) :
    (m.insert k v).insert k v' = m.insert k v' := by
  refine ext fun k' => ?_
  simp only [get?_insert]
  split <;> rfl

theorem insert_comm [DecidableEq K] (m : OrderedMap K V) {k k' : K} (h : k ≠ k') (v v' : V) :
    (m.insert k v).insert k' v' = (m.insert k' v').insert k v := by
  refine ext fun key => ?_
  simp only [get?_insert]
  split
  · next hk => rw [if_neg (hk ▸ h.symm)]
  · rfl

theorem contains_insert_self (m : OrderedMap K V) (k : K) (v : V) :
    (m.insert k v).contains k = true := by
  rw [contains, get?_insert_self]
  rfl

theorem contains_insert_of_ne (m : OrderedMap K V) {k k' : K} (v : V) (h : k' ≠ k) :
    (m.insert k v).contains k' = m.contains k' := by
  rw [contains, get?_insert_of_ne m v h, contains]

/-- What holds of the given entries holds of those of their map. -/
theorem forall_mem_ofList {P : K × V → Prop} {l : List (K × V)} (h : ∀ e ∈ l, P e) :
    ∀ e ∈ (ofList l).entries, P e := by
  suffices ∀ m : OrderedMap K V, (∀ e ∈ m.entries, P e) →
      ∀ e ∈ (l.foldl (fun m e => m.insert e.1 e.2) m).entries, P e from
    this empty (by simp [empty])
  induction l with
  | nil => exact fun m hm => hm
  | cons e l ih =>
    simp only [List.mem_cons, forall_eq_or_imp] at h
    intro m hm
    refine ih h.2 (m.insert e.1 e.2) fun e' he' => ?_
    rcases mem_insertEntry he' with rfl | he'
    · exact h.1
    · exact hm e' he'

/-- **The map of entries with different keys** stores just these. -/
theorem get?_ofList_eq_some_iff [DecidableEq K] {l : List (K × V)} (hnodup : (l.map (·.1)).Nodup)
    {k : K} {v : V} : (ofList l).get? k = some v ↔ (k, v) ∈ l := by
  suffices ∀ m : OrderedMap K V, (l.foldl (fun m e => m.insert e.1 e.2) m).get? k = some v ↔
      (k, v) ∈ l ∨ k ∉ l.map (·.1) ∧ m.get? k = some v from
    (this empty).trans (by simp)
  induction l with
  | nil => simp
  | cons e l ih =>
    obtain ⟨hnot, hnodup⟩ := List.nodup_cons.mp hnodup
    intro m
    rw [List.foldl_cons, ih hnodup, get?_insert]
    simp only [List.map_cons, List.mem_cons, not_or]
    by_cases hk : k = e.1
    · subst hk
      have hrest : (e.1, v) ∉ l := fun hmem => hnot (List.mem_map.mpr ⟨_, hmem, rfl⟩)
      simp [hnot, hrest, Prod.ext_iff, eq_comm]
    · simp [hk, Prod.ext_iff]

/-! ## The entry at or before a key -/

theorem before_asymm {k k' : K} (h : before k k' = true) : before k' k = false := by
  rw [Bool.eq_false_iff]
  intro h'
  have := before_trans _ _ _ h h'
  rw [before_irrefl] at this
  cases this

/-- The last entry at or before a key: no other entry at or before the key is after it. -/
theorem floor?_eq_some_iff {m : OrderedMap K V} {k : K} {e : K × V} :
    m.floor? k = some e ↔ e ∈ m.entries ∧ before k e.1 = false ∧
      ∀ e' ∈ m.entries, before k e'.1 = false → before e.1 e'.1 = false := by
  have hmem (e' : K × V) : e' ∈ m.entries.filter (fun e => !before k e.1) ↔
      e' ∈ m.entries ∧ before k e'.1 = false := by simp
  have hasc := m.ascending.filter fun e => !before k e.1
  rw [floor?, List.getLast?_eq_some_iff]
  constructor
  · rintro ⟨front, hsplit⟩
    rw [hsplit] at hmem hasc
    obtain ⟨he, hle⟩ := (hmem e).mp (by simp)
    refine ⟨he, hle, fun e' he' hle' => ?_⟩
    rcases List.mem_append.mp ((hmem e').mpr ⟨he', hle'⟩) with hfront | hlast
    · exact before_asymm ((List.pairwise_append.mp hasc).2.2 e' hfront e (List.mem_singleton_self e))
    · rw [List.mem_singleton.mp hlast, before_irrefl]
  · rintro ⟨he, hle, hlast⟩
    have hne := List.ne_nil_of_mem ((hmem e).mpr ⟨he, hle⟩)
    obtain ⟨front, last, hsplit⟩ := (List.eq_nil_or_concat' _).resolve_left hne
    rw [hsplit] at hmem hasc ⊢
    rcases List.mem_append.mp ((hmem e).mpr ⟨he, hle⟩) with hfront | hsame
    · -- the last entry would be after the given one
      have hbefore := (List.pairwise_append.mp hasc).2.2 e hfront last (List.mem_singleton_self last)
      obtain ⟨hlast', hle'⟩ := (hmem last).mp (by simp)
      rw [hlast last hlast' hle'] at hbefore
      cases hbefore
    · exact ⟨front, by rw [List.mem_singleton.mp hsame]⟩

theorem floor?_eq_none_iff {m : OrderedMap K V} {k : K} :
    m.floor? k = none ↔ ∀ e ∈ m.entries, before k e.1 = true := by
  rw [floor?, List.getLast?_eq_none_iff, List.filter_eq_nil_iff]
  simp

/-! ## Storing one value after the other -/

section Stored

variable {α : Type} (key : α → K) (value : α → V) (m : OrderedMap K V)

/-- A key that nothing is stored for keeps its value. -/
theorem get?_foldl_insert_of_ne {l : List α} {k : K} (h : ∀ a ∈ l, key a ≠ k) :
    (l.foldl (fun m a => m.insert (key a) (value a)) m).get? k = m.get? k := by
  induction l generalizing m with
  | nil => rfl
  | cons a l ih =>
    rw [List.foldl_cons, ih _ fun b hb => h b (List.mem_cons_of_mem _ hb),
      get?_insert_of_ne _ _ (h a List.mem_cons_self).symm]

/-- **The last value stored for a key** stays. -/
theorem get?_foldl_insert_last (front : List α) (a : α) {rest : List α}
    (h : ∀ b ∈ rest, key b ≠ key a) :
    ((front ++ a :: rest).foldl (fun m a => m.insert (key a) (value a)) m).get? (key a) =
      some (value a) := by
  rw [List.foldl_append, List.foldl_cons, get?_foldl_insert_of_ne key value _ h, get?_insert_self]

/-- A key that something is stored for has one of the values stored for it. -/
theorem exists_get?_foldl_insert {l : List α} {k : K} (h : ∃ a ∈ l, key a = k) :
    ∃ a ∈ l, key a = k ∧
      (l.foldl (fun m a => m.insert (key a) (value a)) m).get? k = some (value a) := by
  induction l generalizing m with
  | nil => simp at h
  | cons a l ih =>
    by_cases hlater : ∃ b ∈ l, key b = k
    · obtain ⟨b, hb, hkey, hget⟩ := ih (m.insert (key a) (value a)) hlater
      exact ⟨b, List.mem_cons_of_mem _ hb, hkey, hget⟩
    · have hkey : key a = k := by
        obtain ⟨b, hb, hkey⟩ := h
        rcases List.mem_cons.mp hb with rfl | hb
        · exact hkey
        · exact absurd ⟨b, hb, hkey⟩ hlater
      subst hkey
      refine ⟨a, List.mem_cons_self, rfl, ?_⟩
      exact get?_foldl_insert_last key value m [] a fun b hb heq => hlater ⟨b, hb, heq⟩

end Stored

/-- The map of entries has the keys of these. -/
theorem mem_keys_ofList_iff {l : List (K × V)} {k : K} : k ∈ (ofList l).keys ↔ k ∈ l.map (·.1) := by
  rw [mem_keys_iff, List.mem_map]
  constructor
  · intro h
    by_contra hnot
    rw [ofList, get?_foldl_insert_of_ne Prod.fst Prod.snd _ fun e he heq => hnot ⟨e, he, heq⟩] at h
    cases h
  · intro h
    obtain ⟨e, -, -, hget⟩ := exists_get?_foldl_insert Prod.fst Prod.snd empty h
    rw [ofList, hget, Option.isSome_some]

/-! ## Changing the values -/

/-- The map with every value changed, as its key has it. -/
def mapValues {W : Type} (m : OrderedMap K V) (f : K → V → W) : OrderedMap K W :=
  ⟨m.entries.map fun e => (e.1, f e.1 e.2), List.pairwise_map.mpr m.ascending⟩

theorem get?_mapValues {W : Type} (m : OrderedMap K V) (f : K → V → W) (k : K) :
    (m.mapValues f).get? k = (m.get? k).map (f k) := by
  refine Option.ext fun w => ?_
  rw [get?_eq_some_iff, mapValues, List.mem_map, Option.map_eq_some_iff]
  constructor
  · rintro ⟨⟨k', v⟩, hmem, heq⟩
    obtain ⟨rfl, rfl⟩ := Prod.mk.inj heq
    exact ⟨v, get?_eq_some_iff.mpr hmem, rfl⟩
  · rintro ⟨v, hv, rfl⟩
    exact ⟨(k, v), get?_eq_some_iff.mp hv, rfl⟩

@[simp]
theorem size_mapValues {W : Type} (m : OrderedMap K V) (f : K → V → W) :
    (m.mapValues f).size = m.size := by
  simp [size, mapValues]

end OrderedMap

end ClassRecovery
