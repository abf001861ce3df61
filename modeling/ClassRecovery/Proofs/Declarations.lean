/-
  Declarations of arrays.

  In C, the brackets next to the name of a declaration are those of the outermost array, and the ones behind them
  tell of its elements (`CType.readDeclaration?`).  A declaration is written from the inside to the outside, each
  array behind its elements.  So the lengths come in the opposite order, and what C reads is the array nested the
  other way round (`CType.declare_reversed`).  It is the same one if the lengths read alike in both
  directions, as a single one does.
-/
import ClassRecovery.CType
import Mathlib.Data.List.Basic

namespace ClassRecovery

namespace CType

/-! ## Nested arrays -/

/-- The array with the given lengths over an element; the first length is that of the outermost array. -/
def arrays (element : CType) : List (Option Word) → CType
  | [] => element
  | length :: lengths => array (element.arrays lengths) length

/-- What arrays can be made of: integers, named types, and pointers to these. -/
inductive IsElement : CType → Prop where
  | int (size : Word) (signed : Bool) : IsElement (int size signed)
  | synonym (name : String) (target : CType) : IsElement (synonym name target)
  | named (name : String) : IsElement (named name)
  | pointer {target : CType} (h : IsElement target) : IsElement (pointer target)

/-- A length in brackets. -/
def bracket (length : Option Word) : String := "[" ++ length.elim "" (fun n => toString n.toNat) ++ "]"

def brackets : List (Option Word) → String
  | [] => ""
  | length :: lengths => bracket length ++ brackets lengths

/-! ## Reading -/

/-- The length that digits stand for; no digits stand for none. -/
def length? (digits : List Char) : Option (Option Word) :=
  if digits.isEmpty then some none
  else
    let n := Nat.ofDigitChars 10 digits 0
    if n < UInt64.size then some (some (UInt64.ofNat n)) else none

/-- The lengths in the brackets that a text consists of.  Inside of brackets, the digits that were read are
    given. -/
def lengths? : Option (List Char) → List Char → Option (List (Option Word))
  | none, [] => some []
  | none, c :: text => if c = '[' then lengths? (some []) text else none
  | some _, [] => none
  | some digits, c :: text =>
    if c = ']' then (length? digits).bind fun length => (lengths? none text).map (length :: ·)
    else if c.isDigit then lengths? (some (digits ++ [c])) text
    else none

/-- The type that C reads in a declaration of a name, or in one without a name: what is behind the element and the
    name are lengths in brackets, and the first one is that of the outermost array. -/
def readDeclaration? (element : CType) (name : Option String) (text : String) : Option CType :=
  (text.toList.dropPrefix? (element.declare none ++ suffix name).toList).bind fun rest =>
    (lengths? none rest).map element.arrays

theorem length?_toDigits (n : Word) : length? (Nat.toDigits 10 n.toNat) = some (some n) := by
  have hne : (Nat.toDigits 10 n.toNat).isEmpty = false := by
    rw [List.isEmpty_eq_false_iff]
    exact Nat.toDigits_ne_nil
  rw [length?, hne, Nat.ofDigitChars_ten_toDigits]
  simp [n.toNat_lt]

/-- Digits are read up to the end of the brackets. -/
theorem lengths?_digits {digits : List Char} (h : ∀ c ∈ digits, c.isDigit = true) (front rest : List Char) :
    lengths? (some front) (digits ++ ']' :: rest) =
      (length? (front ++ digits)).bind fun length => (lengths? none rest).map (length :: ·) := by
  induction digits generalizing front with
  | nil => simp [lengths?]
  | cons c digits ih =>
    obtain ⟨hc, hdigits⟩ := List.forall_mem_cons.mp h
    have hend : c ≠ ']' := by
      rintro rfl
      cases hc
    rw [List.cons_append, lengths?, if_neg hend, if_pos hc, ih hdigits, List.append_assoc]
    rfl

theorem lengths?_bracket (length : Option Word) (rest : List Char) :
    lengths? none ((bracket length).toList ++ rest) = (lengths? none rest).map (length :: ·) := by
  cases length with
  | none => simp [bracket, lengths?, length?]
  | some n =>
    have hdigits : ∀ c ∈ Nat.toDigits 10 n.toNat, c.isDigit = true := fun c hc =>
      Nat.isDigit_of_mem_toDigits (by decide) (by decide) hc
    have htext : (bracket (some n)).toList ++ rest = '[' :: (Nat.toDigits 10 n.toNat ++ ']' :: rest) := by
      simp [bracket]
    rw [htext, lengths?, if_pos rfl, lengths?_digits hdigits, List.nil_append, length?_toDigits,
      Option.bind_some]

theorem lengths?_brackets (lengths : List (Option Word)) :
    lengths? none (brackets lengths).toList = some lengths := by
  induction lengths with
  | nil => rfl
  | cons length lengths ih =>
    rw [brackets, String.toList_append, lengths?_bracket, ih]
    rfl

/-- **C reads the lengths from the outermost array to the innermost.** -/
theorem readDeclaration?_brackets (element : CType) (name : Option String) (lengths : List (Option Word)) :
    readDeclaration? element name (element.declare none ++ suffix name ++ brackets lengths) =
      some (element.arrays lengths) := by
  have hrest : (element.declare none ++ suffix name ++ brackets lengths).toList.dropPrefix?
      (element.declare none ++ suffix name).toList = some (brackets lengths).toList := by
    rw [List.dropPrefix?_eq_some_iff]
    exact ⟨_, String.toList_append, beq_self_eq_true _⟩
  rw [readDeclaration?, hrest, Option.bind_some, lengths?_brackets, Option.map_some]

/-! ## Writing -/

theorem brackets_append (lengths more : List (Option Word)) :
    brackets (lengths ++ more) = brackets lengths ++ brackets more := by
  induction lengths with
  | nil => simp [brackets]
  | cons length lengths ih => rw [List.cons_append, brackets, ih, brackets, String.append_assoc]

/-- Behind an element, the name stands after a blank. -/
theorem IsElement.declare_eq {element : CType} (h : element.IsElement) (name : Option String) :
    element.declare name = element.declare none ++ suffix name := by
  cases h <;> simp [declare, suffix]

/-- **Each array is written behind its elements.** -/
theorem declare_arrays (element : CType) (lengths : List (Option Word)) (name : Option String) :
    (element.arrays lengths).declare name = element.declare name ++ brackets lengths.reverse := by
  induction lengths with
  | nil => simp [arrays, brackets]
  | cons length lengths ih =>
    have hlast : brackets [length] = bracket length := by simp [brackets]
    rw [arrays, declare, ih, List.reverse_cons, brackets_append, hlast, bracket]
    simp only [String.append_assoc]

/-- Over an element, arrays with different lengths are different. -/
theorem IsElement.arrays_injective {element : CType} (h : element.IsElement) {lengths lengths' : List (Option Word)}
    (heq : element.arrays lengths = element.arrays lengths') : lengths = lengths' := by
  have hne (target : CType) (length : Option Word) : element ≠ array target length := by
    rintro rfl
    cases h
  induction lengths generalizing lengths' with
  | nil =>
    cases lengths' with
    | nil => rfl
    | cons => exact absurd heq (hne _ _)
  | cons length lengths ih =>
    cases lengths' with
    | nil => exact absurd heq.symm (hne _ _)
    | cons length' lengths' =>
      simp only [arrays, array.injEq] at heq
      rw [heq.2, ih heq.1]

/-- **Nested arrays are declared the other way round.**  Behind the element and the name stand the lengths from the
    innermost array to the outermost, and what C reads is the array with the lengths in this order.  It is the
    declared one exactly if the lengths are the same in both orders. -/
theorem declare_reversed {element : CType} (h : element.IsElement) (lengths : List (Option Word))
    (name : Option String) :
    let text := (element.arrays lengths).declare name
    text = element.declare none ++ suffix name ++ brackets lengths.reverse ∧
      readDeclaration? element name text = some (element.arrays lengths.reverse) ∧
      (readDeclaration? element name text = some (element.arrays lengths) ↔ lengths.reverse = lengths) := by
  intro text
  have htext : text = element.declare none ++ suffix name ++ brackets lengths.reverse := by
    rw [← h.declare_eq]
    exact declare_arrays element lengths name
  have hread : readDeclaration? element name text = some (element.arrays lengths.reverse) := by
    rw [htext]
    exact readDeclaration?_brackets element name lengths.reverse
  refine ⟨htext, hread, ?_⟩
  rw [hread, Option.some.injEq]
  exact ⟨h.arrays_injective, congrArg element.arrays⟩

/-- Rows of equal length: an array of three arrays of three pointers. -/
theorem declare_reversed_square :
    ((pointer (named "Node")).arrays [some 3, some 3]).declare (some "grid") = "Node * grid[3][3]" ∧
      readDeclaration? (pointer (named "Node")) (some "grid") "Node * grid[3][3]" =
        some ((pointer (named "Node")).arrays [some 3, some 3]) := by
  have htext : ((pointer (named "Node")).arrays [some 3, some 3]).declare (some "grid") = "Node * grid[3][3]" := by
    decide +kernel
  refine ⟨htext, ?_⟩
  rw [← htext]
  exact (declare_reversed (.pointer (.named "Node")) [some 3, some 3] (some "grid")).2.2.mpr rfl

/-- **An array of two arrays of three integers is declared as an array of three arrays of two.** -/
theorem declare_swapsLengths :
    let matrix := signedInt.arrays [some 2, some 3]
    matrix.declare (some "a") ≠ "int a[2][3]" ∧
      readDeclaration? signedInt (some "a") "int a[2][3]" = some matrix ∧
      readDeclaration? signedInt (some "a") (matrix.declare (some "a")) = some (signedInt.arrays [some 3, some 2]) ∧
      signedInt.arrays [some 3, some 2] ≠ matrix := by
  decide +kernel

end CType

end ClassRecovery
