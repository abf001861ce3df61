/-
  Reading back what was written.

  Every reader of a scalar or a container gives back what its writer was given: integers are written exactly, a
  double if it is finite, an optional value if `null` does not stand for one, a list if each of its items is
  read back.  A record is written under different keys, so each of its members is found (`Members.find?_cons`).
-/
import ClassRecovery.Json.Decoder
import Mathlib.Data.List.Basic

namespace ClassRecovery.Json

/-! ## Scalars -/

@[simp]
theorem bool?_bool (b : Bool) : (bool b).bool? = some b := rfl

@[simp]
theorem string?_str (s : String) : (str s).string? = some s := rfl

theorem nat?_int {high n : ℕ} (h : n ≤ high) : (int n).nat? high = some n := by
  have hwithin : (0 : Int) ≤ n ∧ (n : Int) ≤ high := ⟨Int.natCast_nonneg n, Int.ofNat_le.mpr h⟩
  rw [nat?, intWithin?, if_pos hwithin, Option.map_some, Int.toNat_natCast]

@[simp]
theorem word?_ofWord (w : Word) : (ofWord w).word? = some w := by
  rw [word?, ofWord, nat?_int (Nat.le_sub_one_of_lt w.toNat_lt_size), Option.map_some, UInt64.ofNat_toNat]

@[simp]
theorem word32?_int (w : UInt32) : (int w.toNat).word32? = some w := by
  rw [word32?, nat?_int (Nat.le_sub_one_of_lt w.toNat_lt_size), Option.map_some, UInt32.ofNat_toNat]

@[simp]
theorem byte?_int (b : UInt8) : (int b.toNat).byte? = some b := by
  rw [byte?, nat?_int (Nat.le_sub_one_of_lt b.toNat_lt_size), Option.map_some, UInt8.ofNat_toNat]

@[simp]
theorem signed?_ofSigned (i : Int64) : (ofSigned i).signed? = some i := by
  have hwithin : -0x8000000000000000 ≤ i.toInt ∧ i.toInt ≤ 0x7FFFFFFFFFFFFFFF :=
    ⟨i.le_toInt, Int.le_of_lt_add_one i.toInt_lt⟩
  rw [signed?, ofSigned, intWithin?, if_pos hwithin, Option.map_some, Int64.ofInt_toInt]

/-- A double is read back if it is a number. -/
theorem float?_ofFloat {x : Float} (h : x.isFinite = true) : (ofFloat x).float? = some x := by
  rw [ofFloat, if_pos h]
  rfl

/-! ## Containers -/

/-- A list is read back if its items are. -/
@[simp]
theorem list?_ofList {α : Type} {write : α → Json} {item? : Json → Option α} {l : List α}
    (h : ∀ a ∈ l, item? (write a) = some a) : list? item? (ofList write l) = some l := by
  rw [ofList, list?]
  induction l with
  | nil => rfl
  | cons a l ih =>
    simp only [List.mem_cons, forall_eq_or_imp] at h
    rw [List.map_cons, List.mapM_cons, h.1, ih h.2]
    rfl

/-- An optional value is read back if it is no `null` itself. -/
theorem nullable?_ofOption {α : Type} {write : α → Json} {value? : Json → Option α} {o : Option α}
    (hnull : value? null = none) (h : ∀ a, o = some a → value? (write a) = some a) :
    nullable? value? (ofOption write o) = some o := by
  cases o with
  | none => rfl
  | some a =>
    have ha := h a rfl
    rw [ofOption]
    unfold nullable?
    split
    · next hwrite =>
      rw [hwrite, hnull] at ha
      cases ha
    · rw [ha]
      rfl

@[simp]
theorem nullable?_word (o : Option Word) : nullable? word? (ofOption ofWord o) = some o :=
  nullable?_ofOption rfl fun w _ => word?_ofWord w

@[simp]
theorem nullable?_string (o : Option String) : nullable? string? (ofOption str o) = some o :=
  nullable?_ofOption rfl fun s _ => string?_str s

@[simp]
theorem nullable?_signed (o : Option Int64) : nullable? signed? (ofOption ofSigned o) = some o :=
  nullable?_ofOption rfl fun i _ => signed?_ofSigned i

/-- The name of a value is read as the value that it is listed for. -/
theorem name?_str {α : Type} (names : List (String × α)) (name : String) :
    (str name).name? names = names.lookup name := rfl

/-- What can be read passes the check. -/
theorem guard_isReadable {j : Json} (h : j.isReadable = true) :
    (guard (j.isReadable = true) : Option Unit) = some () := if_pos h

theorem areReadable_iff {items : List Json} :
    areReadable items = true ↔ ∀ j ∈ items, j.isReadable = true := by
  induction items with
  | nil => simp [areReadable]
  | cons j rest ih => simp [areReadable, ih]

/-! ## Members of objects -/

@[simp]
theorem members?_obj (ms : Members) : (obj ms).members? = some ms := rfl

/-- The first member is found under its key if no other has it. -/
@[simp]
theorem Members.find?_cons (k : String) (j : Json) (ms : Members) (key : String) :
    Members.find? ((k, j) :: ms) key =
      if k = key then if key ∈ ms.map (·.1) then none else some (some j) else Members.find? ms key := by
  rw [Members.find?, List.filter_cons]
  by_cases hk : k = key
  · simp only [hk, decide_true, if_true]
    by_cases hmem : key ∈ ms.map (·.1)
    · obtain ⟨m, hm, rfl⟩ := List.mem_map.mp hmem
      have hagain : m ∈ ms.filter fun m' => m'.1 = m.1 := List.mem_filter.mpr ⟨hm, by simp⟩
      obtain ⟨m', rest, hrest⟩ := List.exists_cons_of_ne_nil (List.ne_nil_of_mem hagain)
      rw [hrest, if_pos hmem]
    · have hnone : ms.filter (fun m => m.1 = key) = [] := by
        refine List.filter_eq_nil_iff.mpr fun m hm heq => hmem ?_
        exact List.mem_map.mpr ⟨m, hm, of_decide_eq_true heq⟩
      rw [hnone, if_neg hmem]
  · simp only [hk, decide_false, if_false, Bool.false_eq_true]
    rfl

@[simp]
theorem Members.find?_nil (key : String) : Members.find? [] key = some none := rfl

attribute [simp] Members.required Members.orElse Members.optional

end ClassRecovery.Json
