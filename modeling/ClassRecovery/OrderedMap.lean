/-
  Maps kept as lists in ascending order of their keys.

  The entries of an `OrderedMap` are strictly ascending, so a map is determined by its
  look-ups (`ext`), equality of maps is equality of lists, and iteration is in key order.
  `insert` and `erase` are described by what they do to the look-ups (`get?_insert`,
  `get?_erase`).
-/

namespace ClassRecovery

/-- Keys with a strict linear order that can be decided. -/
class OrderedKey (K : Type) where
  /-- Whether the first key comes before the second. -/
  before : K → K → Bool
  before_irrefl : ∀ a, before a a = false
  before_trans : ∀ a b c, before a b = true → before b c = true → before a c = true
  eq_of_not_before : ∀ a b, before a b = false → before b a = false → a = b

instance : OrderedKey UInt64 where
  before a b := a.toNat < b.toNat
  before_irrefl a := by simp
  before_trans a b c := by simp; omega
  eq_of_not_before a b := by
    intro h₁ h₂
    apply UInt64.toNat_inj.mp
    simp only [decide_eq_false_iff_not] at h₁ h₂
    omega

instance : OrderedKey String where
  before a b := @decide (a < b) (String.decidableLT a b)
  before_irrefl a := by simp
  before_trans a b c := by
    simp only [decide_eq_true_eq]
    exact Std.lt_trans
  eq_of_not_before a b := by
    simp only [decide_eq_false_iff_not]
    intro h₁ h₂
    rcases Std.lt_trichotomy a b with h | h | h
    · exact absurd h h₁
    · exact h
    · exact absurd h h₂

/-- A map from `K` to `V`: its entries, in strictly ascending order of their keys. -/
structure OrderedMap (K V : Type) [OrderedKey K] where
  entries : List (K × V)
  ascending : entries.Pairwise fun a b => OrderedKey.before a.1 b.1 = true

/-- A set of keys. -/
abbrev OrderedSet (K : Type) [OrderedKey K] := OrderedMap K Unit

namespace OrderedMap

variable {K V : Type} [OrderedKey K]

open OrderedKey

/-! ## On lists of entries -/

/-- Writes the entry for `k` into an ascending list. -/
def insertEntry (k : K) (v : V) : List (K × V) → List (K × V)
  | [] => [(k, v)]
  | e :: rest =>
    if before k e.1 then (k, v) :: e :: rest
    else if before e.1 k then e :: insertEntry k v rest
    else (k, v) :: rest

/-- The value of the first entry whose key is neither before nor after `k`. -/
def lookup (k : K) : List (K × V) → Option V
  | [] => none
  | e :: rest => if before k e.1 || before e.1 k then lookup k rest else some e.2

theorem mem_insertEntry {k : K} {v : V} {e : K × V} {l : List (K × V)}
    (h : e ∈ insertEntry k v l) : e = (k, v) ∨ e ∈ l := by
  induction l with
  | nil => simpa [insertEntry] using h
  | cons x rest ih =>
    simp only [insertEntry] at h
    split at h
    · simpa using h
    · split at h
      · rcases List.mem_cons.mp h with h | h
        · exact Or.inr (h ▸ List.mem_cons_self)
        · exact (ih h).imp id (List.mem_cons_of_mem _)
      · rcases List.mem_cons.mp h with h | h
        · exact Or.inl h
        · exact Or.inr (List.mem_cons_of_mem _ h)

theorem ascending_insertEntry (k : K) (v : V) {l : List (K × V)}
    (h : l.Pairwise fun a b => before a.1 b.1 = true) :
    (insertEntry k v l).Pairwise fun a b => before a.1 b.1 = true := by
  induction l with
  | nil => simp [insertEntry]
  | cons x rest ih =>
    obtain ⟨hx, hrest⟩ := List.pairwise_cons.mp h
    simp only [insertEntry]
    split
    · next hk =>
      refine List.pairwise_cons.mpr ⟨fun e he => ?_, h⟩
      rcases List.mem_cons.mp he with rfl | he
      · exact hk
      · exact before_trans _ _ _ hk (hx e he)
    · next hk =>
      split
      · next hk' =>
        refine List.pairwise_cons.mpr ⟨fun e he => ?_, ih hrest⟩
        rcases mem_insertEntry he with rfl | he
        · exact hk'
        · exact hx e he
      · next hk' =>
        have : k = x.1 := eq_of_not_before _ _ (by simpa using hk) (by simpa using hk')
        exact List.pairwise_cons.mpr ⟨fun e he => this ▸ hx e he, hrest⟩

theorem ext_of_lookup {l₁ l₂ : List (K × V)}
    (h₁ : l₁.Pairwise fun a b => before a.1 b.1 = true)
    (h₂ : l₂.Pairwise fun a b => before a.1 b.1 = true)
    (h : ∀ k, lookup k l₁ = lookup k l₂) : l₁ = l₂ := by
  have skip : ∀ {l : List (K × V)} {k : K}, (∀ e ∈ l, before k e.1 = true) →
      lookup k l = none := by
    intro l k hl
    induction l with
    | nil => rfl
    | cons e rest ih =>
      simp only [lookup, hl e List.mem_cons_self, Bool.true_or, if_true]
      exact ih fun e he => hl e (List.mem_cons_of_mem _ he)
  have here : ∀ (e : K × V) (l : List (K × V)), lookup e.1 (e :: l) = some e.2 := by
    intro e l
    simp [lookup, before_irrefl]
  induction l₁ generalizing l₂ with
  | nil =>
    cases l₂ with
    | nil => rfl
    | cons e l₂ => have := h e.1; rw [here] at this; simp [lookup] at this
  | cons a l₁ ih =>
    cases l₂ with
    | nil => have := h a.1; rw [here] at this; simp [lookup] at this
    | cons b l₂ =>
      obtain ⟨ha, hl₁⟩ := List.pairwise_cons.mp h₁
      obtain ⟨hb, hl₂⟩ := List.pairwise_cons.mp h₂
      have key : a.1 = b.1 := by
        apply eq_of_not_before
        · cases hab : before a.1 b.1 with
          | false => rfl
          | true =>
            have := h a.1
            rw [here, skip] at this
            · simp at this
            · intro e he
              rcases List.mem_cons.mp he with rfl | he
              · exact hab
              · exact before_trans _ _ _ hab (hb e he)
        · cases hab : before b.1 a.1 with
          | false => rfl
          | true =>
            have := (h b.1).symm
            rw [here, skip] at this
            · simp at this
            · intro e he
              rcases List.mem_cons.mp he with rfl | he
              · exact hab
              · exact before_trans _ _ _ hab (ha e he)
      have value : a.2 = b.2 := by
        have := h a.1
        rw [here, key, here] at this
        simpa using this
      have tail : l₁ = l₂ := by
        apply ih hl₁ hl₂
        intro k
        have hk := h k
        simp only [lookup, ← key] at hk
        split at hk
        · exact hk
        · next hne =>
          simp only [Bool.or_eq_true, not_or, Bool.not_eq_true] at hne
          have : k = a.1 := eq_of_not_before _ _ hne.1 hne.2
          subst this
          rw [skip ha, skip fun e he => by rw [key]; exact hb e he]
      rw [tail, Prod.ext_iff.mpr ⟨key, value⟩]

/-! ## Maps -/

/-- The map without entries. -/
def empty : OrderedMap K V := ⟨[], List.Pairwise.nil⟩

instance : Inhabited (OrderedMap K V) := ⟨empty⟩

instance : EmptyCollection (OrderedMap K V) := ⟨empty⟩

instance [DecidableEq K] [DecidableEq V] : DecidableEq (OrderedMap K V) := fun a b =>
  decidable_of_iff (a.entries = b.entries) (by
    cases a; cases b; simp)

/-- The value stored for `k`. -/
def get? (m : OrderedMap K V) (k : K) : Option V := lookup k m.entries

/-- Whether a value is stored for `k`. -/
def contains (m : OrderedMap K V) (k : K) : Bool := (m.get? k).isSome

/-- Stores `v` for `k`, replacing what was stored there. -/
def insert (m : OrderedMap K V) (k : K) (v : V) : OrderedMap K V :=
  ⟨insertEntry k v m.entries, ascending_insertEntry k v m.ascending⟩

/-- Drops what is stored for `k`. -/
def erase (m : OrderedMap K V) (k : K) : OrderedMap K V :=
  ⟨m.entries.filter fun e => before k e.1 || before e.1 k, m.ascending.filter _⟩

/-- The keys, ascending. -/
def keys (m : OrderedMap K V) : List K := m.entries.map (·.1)

/-- The values, in order of their keys. -/
def values (m : OrderedMap K V) : List V := m.entries.map (·.2)

/-- The number of entries. -/
def size (m : OrderedMap K V) : Nat := m.entries.length

def isEmpty (m : OrderedMap K V) : Bool := m.entries.isEmpty

/-- The map of the given entries; of several for one key the last is kept. -/
def ofList (l : List (K × V)) : OrderedMap K V :=
  l.foldl (fun m e => m.insert e.1 e.2) empty

/-- The last entry whose key is not after `k`. -/
def floor? (m : OrderedMap K V) (k : K) : Option (K × V) :=
  (m.entries.filter fun e => !before k e.1).getLast?

/-- Adds a key to a set. -/
def add (s : OrderedSet K) (k : K) : OrderedSet K := s.insert k ()

/-- **Maps with the same look-ups are equal.** -/
theorem ext {m₁ m₂ : OrderedMap K V} (h : ∀ k, m₁.get? k = m₂.get? k) : m₁ = m₂ := by
  have := ext_of_lookup m₁.ascending m₂.ascending h
  cases m₁; cases m₂; simp_all

@[simp]
theorem get?_empty (k : K) : (empty : OrderedMap K V).get? k = none := rfl

theorem get?_insert_self (m : OrderedMap K V) (k : K) (v : V) : (m.insert k v).get? k = some v := by
  suffices ∀ l : List (K × V), lookup k (insertEntry k v l) = some v from this m.entries
  intro l
  induction l with
  | nil => simp [insertEntry, lookup, before_irrefl]
  | cons e rest ih =>
    simp only [insertEntry]
    split
    · simp [lookup, before_irrefl]
    · split
      · next h => simp [lookup, h, ih]
      · simp [lookup, before_irrefl]

theorem get?_insert_of_ne (m : OrderedMap K V) {k k' : K} (v : V) (h : k' ≠ k) :
    (m.insert k v).get? k' = m.get? k' := by
  have apart : before k' k = true ∨ before k k' = true := by
    cases h₁ : before k' k with
    | true => exact Or.inl rfl
    | false =>
      cases h₂ : before k k' with
      | true => exact Or.inr rfl
      | false => exact absurd (eq_of_not_before _ _ h₁ h₂) h
  have skip : (before k' k || before k k') = true := by simpa using apart
  suffices ∀ l : List (K × V), lookup k' (insertEntry k v l) = lookup k' l from this m.entries
  intro l
  induction l with
  | nil => simp [insertEntry, lookup, skip]
  | cons e rest ih =>
    simp only [insertEntry]
    split
    · simp [lookup, skip]
    · next h₁ =>
      split
      · simp [lookup, ih]
      · next h₂ =>
        have : k = e.1 := eq_of_not_before _ _ (by simpa using h₁) (by simpa using h₂)
        simp only [lookup, skip, if_true]
        rw [← this, skip, if_pos rfl]

theorem get?_insert [DecidableEq K] (m : OrderedMap K V) (k k' : K) (v : V) :
    (m.insert k v).get? k' = if k' = k then some v else m.get? k' := by
  split
  · next h => rw [h, get?_insert_self]
  · next h => rw [get?_insert_of_ne m v h]

theorem get?_erase [DecidableEq K] (m : OrderedMap K V) (k k' : K) :
    (m.erase k).get? k' = if k' = k then none else m.get? k' := by
  suffices ∀ l : List (K × V),
      lookup k' (l.filter fun e => before k e.1 || before e.1 k) =
        if k' = k then none else lookup k' l from this m.entries
  intro l
  induction l with
  | nil => simp [lookup]
  | cons e rest ih =>
    rw [List.filter_cons]
    split
    · next h =>
      simp only [lookup, ih]
      by_cases hk : k' = k
      · subst hk
        simp [h]
      · simp [hk]
    · next h =>
      rw [ih]
      simp only [Bool.or_eq_true, not_or, Bool.not_eq_true] at h
      have hek : e.1 = k := (eq_of_not_before _ _ h.1 h.2).symm
      by_cases hk : k' = k
      · rw [if_pos hk, if_pos hk]
      · rw [if_neg hk, if_neg hk]
        simp only [lookup, hek]
        have : (before k' k || before k k') = true := by
          cases h₁ : before k' k with
          | true => rfl
          | false =>
            cases h₂ : before k k' with
            | true => rfl
            | false => exact absurd (eq_of_not_before _ _ h₁ h₂) hk
        rw [if_pos this]

end OrderedMap

end ClassRecovery
