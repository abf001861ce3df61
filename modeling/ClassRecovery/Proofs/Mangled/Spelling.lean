/-
  Spellings of class names.

  A name is spelled by a text if the text is put together by the rules of mangling (`ClassName.Spelled`).  The
  strict grammar has the rules as they are meant; the lenient one also has the texts that reading lets
  pass.  Proper names (`ClassName.isProper`) are those whose identifiers and literals can be spelled, and
  `encode` spells them strictly (`ClassName.spelled_encode`).
-/
import ClassRecovery.Rtti.Mangled

namespace ClassRecovery

/-! ## Lengths and numbers -/

namespace Mangled

/-- A decimal number: a digit, and no character but digits. -/
def isNumber (text : List Char) : Bool := !text.isEmpty && text.all isDigit

/-- An identifier has a character and does not begin with a digit; its length is a machine word. -/
def isIdentifier (text : List Char) : Bool :=
  !text.isEmpty && !text.head?.any isDigit && byteLength text < UInt64.size

/-- The digits are a number, the length of the text in bytes; the text behind them begins with no further
    digit. -/
structure Measures (digits text : List Char) : Prop where
  isNumber : isNumber digits
  value : digitsValue digits = byteLength text
  lt_size : byteLength text < UInt64.size
  head : ∀ c, text.head? = some c → isDigit c = false

theorem digitsValue_toDigits (n : Nat) : digitsValue (Nat.toDigits 10 n) = n := by
  have hvalue : ∀ digits : List Char, digitsValue digits = Nat.ofDigitChars 10 digits 0 := fun digits => by
    simp only [digitsValue, Nat.ofDigitChars_eq_foldl, Nat.mul_comm 10]
    rfl
  rw [hvalue, Nat.ofDigitChars_ten_toDigits]

theorem isNumber_toDigits (n : Nat) : isNumber (Nat.toDigits 10 n) := by
  simp only [isNumber, Bool.and_eq_true, Bool.not_eq_true', List.isEmpty_eq_false_iff, List.all_eq_true]
  refine ⟨Nat.toDigits_ne_nil, fun c hc => ?_⟩
  have hdigit := Nat.isDigit_of_mem_toDigits (by decide) (by decide) hc
  simpa [isDigit, Char.isDigit, Char.le_def, UInt32.le_iff_toNat_le] using hdigit

theorem measures_toDigits {text : List Char} (h : isIdentifier text) :
    Measures (Nat.toDigits 10 (byteLength text)) text := by
  simp only [isIdentifier, Bool.and_eq_true, Bool.not_eq_true', decide_eq_true_eq] at h
  refine ⟨isNumber_toDigits _, digitsValue_toDigits _, h.2, fun c hc => ?_⟩
  simpa [hc] using h.1.2

end Mangled

/-! ## Spellings -/

/-- The grammars of mangled names. -/
inductive Grammar where
  /-- Identifiers are not empty, literals are numbers, and an `E` stands behind each nested name. -/
  | strict
  /-- An identifier may be empty, a literal may be any text without an `E`, and the `E` behind a nested name may be
      missing. -/
  | lenient
  deriving DecidableEq, Repr

/-- The sign of a literal. -/
def signText (negative : Bool) : List Char := if negative then ['n'] else []

mutual
/-- The text is a spelling of the argument. -/
inductive TemplateArgument.Spelled (g : Grammar) : TemplateArgument → List Char → Prop where
  | builtin (type : BuiltinType) : TemplateArgument.Spelled g (.builtin type) [type.code]
  | pointer {target : TemplateArgument} {w : List Char} (h : target.Spelled g w) :
      TemplateArgument.Spelled g (.pointer target) ('P' :: w)
  | reference {target : TemplateArgument} {w : List Char} (h : target.Spelled g w) :
      TemplateArgument.Spelled g (.reference target) ('R' :: w)
  | const {target : TemplateArgument} {w : List Char} (h : target.Spelled g w) :
      TemplateArgument.Spelled g (.const target) ('K' :: w)
  | literal {type : TemplateArgument} {w digits : List Char} {negative : Bool} (h : type.Spelled g w)
      (hnumber : g = .strict → Mangled.isNumber digits) (hend : 'E' ∉ digits)
      (hsign : negative = false → digits.head? ≠ some 'n') :
      TemplateArgument.Spelled g (.literal type negative digits) ('L' :: w ++ signText negative ++ digits ++ ['E'])
  | name {name : ClassName} {w : List Char} (h : name.Spelled g w) : TemplateArgument.Spelled g (.name name) w

/-- The text is a spelling of the arguments, one behind the other. -/
inductive ArgumentsSpelled (g : Grammar) : List TemplateArgument → List Char → Prop where
  | nil : ArgumentsSpelled g [] []
  | cons {a : TemplateArgument} {rest : List TemplateArgument} {w v : List Char} (h : a.Spelled g w)
      (hrest : ArgumentsSpelled g rest v) : ArgumentsSpelled g (a :: rest) (w ++ v)

/-- The text is a spelling of the component. -/
inductive NameComponent.Spelled (g : Grammar) : NameComponent → List Char → Prop where
  | plain {digits identifier : List Char} (h : Mangled.Measures digits identifier)
      (hne : g = .strict → identifier ≠ []) : NameComponent.Spelled g (.mk identifier none) (digits ++ identifier)
  | withArguments {digits identifier : List Char} {arguments : List TemplateArgument} {w : List Char}
      (h : Mangled.Measures digits identifier) (hne : g = .strict → identifier ≠ [])
      (harguments : ArgumentsSpelled g arguments w) :
      NameComponent.Spelled g (.mk identifier (some arguments)) (digits ++ identifier ++ 'I' :: w ++ ['E'])

/-- The text is a spelling of the components, one behind the other. -/
inductive ComponentsSpelled (g : Grammar) : List NameComponent → List Char → Prop where
  | nil : ComponentsSpelled g [] []
  | cons {c : NameComponent} {rest : List NameComponent} {w v : List Char} (h : c.Spelled g w)
      (hrest : ComponentsSpelled g rest v) : ComponentsSpelled g (c :: rest) (w ++ v)

/-- The text is a spelling of the name. -/
inductive ClassName.Spelled (g : Grammar) : ClassName → List Char → Prop where
  | plain {c : NameComponent} {w : List Char} (h : c.Spelled g w) : ClassName.Spelled g (.plain c) w
  | nested {components : List NameComponent} {w : List Char} (h : ComponentsSpelled g components w)
      (hne : components ≠ []) : ClassName.Spelled g (.nested components) ('N' :: w ++ ['E'])
  | unclosed {components : List NameComponent} {w : List Char} (h : ComponentsSpelled g components w)
      (hne : components ≠ []) (hg : g = .lenient) : ClassName.Spelled g (.nested components) ('N' :: w)
end

/-! ## Proper names -/

mutual
/-- The identifiers and literals of the argument can be spelled. -/
def TemplateArgument.isProper : TemplateArgument → Bool
  | .builtin _ => true
  | .pointer target => target.isProper
  | .reference target => target.isProper
  | .const target => target.isProper
  | .literal type _ digits => type.isProper && Mangled.isNumber digits
  | .name name => name.isProper

def areProperArguments : List TemplateArgument → Bool
  | [] => true
  | a :: rest => a.isProper && areProperArguments rest

/-- The component has an identifier that can be spelled, and so have its arguments. -/
def NameComponent.isProper : NameComponent → Bool
  | .mk identifier none => Mangled.isIdentifier identifier
  | .mk identifier (some arguments) => Mangled.isIdentifier identifier && areProperArguments arguments

def areProperComponents : List NameComponent → Bool
  | [] => true
  | c :: rest => c.isProper && areProperComponents rest

/-- The name is a component or a list of at least one, and its identifiers and literals can be spelled. -/
def ClassName.isProper : ClassName → Bool
  | .plain c => c.isProper
  | .nested components => !components.isEmpty && areProperComponents components
end

theorem Mangled.ne_of_isDigit {c d : Char} (h : isDigit c) (hd : isDigit d = false) : c ≠ d := by
  rintro rfl
  rw [h] at hd
  cases hd

theorem Mangled.not_mem_of_isNumber {digits : List Char} {d : Char} (h : isNumber digits)
    (hd : isDigit d = false) : d ∉ digits := by
  simp only [isNumber, Bool.and_eq_true, List.all_eq_true] at h
  exact fun hmem => ne_of_isDigit (h.2 d hmem) hd rfl

theorem Mangled.ne_nil_of_isIdentifier {text : List Char} (h : isIdentifier text) : text ≠ [] := by
  rintro rfl
  cases h

mutual
theorem TemplateArgument.spelled_encode : ∀ {a : TemplateArgument}, a.isProper → a.Spelled .strict a.encode
  | .builtin type, _ => .builtin type
  | .pointer _, h => .pointer (TemplateArgument.spelled_encode h)
  | .reference _, h => .reference (TemplateArgument.spelled_encode h)
  | .const _, h => .const (TemplateArgument.spelled_encode h)
  | .literal type negative digits, h => by
    simp only [TemplateArgument.isProper, Bool.and_eq_true] at h
    refine .literal (TemplateArgument.spelled_encode h.1) (fun _ => h.2) (Mangled.not_mem_of_isNumber h.2 (by decide))
      fun _ hhead => ?_
    exact Mangled.not_mem_of_isNumber h.2 (by decide) (List.mem_of_head? hhead)
  | .name _, h => .name (ClassName.spelled_encode h)

theorem spelled_encodeArguments :
    ∀ {arguments : List TemplateArgument}, areProperArguments arguments →
      ArgumentsSpelled .strict arguments (encodeArguments arguments)
  | [], _ => .nil
  | _ :: _, h => by
    simp only [areProperArguments, Bool.and_eq_true] at h
    exact .cons (TemplateArgument.spelled_encode h.1) (spelled_encodeArguments h.2)

theorem NameComponent.spelled_encode : ∀ {c : NameComponent}, c.isProper → c.Spelled .strict c.encode
  | .mk _ none, h => .plain (Mangled.measures_toDigits h) fun _ => Mangled.ne_nil_of_isIdentifier h
  | .mk _ (some _), h => by
    simp only [NameComponent.isProper, Bool.and_eq_true] at h
    exact .withArguments (Mangled.measures_toDigits h.1) (fun _ => Mangled.ne_nil_of_isIdentifier h.1)
      (spelled_encodeArguments h.2)

theorem spelled_encodeComponents :
    ∀ {components : List NameComponent}, areProperComponents components →
      ComponentsSpelled .strict components (encodeComponents components)
  | [], _ => .nil
  | _ :: _, h => by
    simp only [areProperComponents, Bool.and_eq_true] at h
    exact .cons (NameComponent.spelled_encode h.1) (spelled_encodeComponents h.2)

/-- **Mangling** spells proper names. -/
theorem ClassName.spelled_encode : ∀ {n : ClassName}, n.isProper → n.Spelled .strict n.encode
  | .plain _, h => .plain (NameComponent.spelled_encode h)
  | .nested components, h => by
    simp only [ClassName.isProper, Bool.and_eq_true, Bool.not_eq_true', List.isEmpty_eq_false_iff] at h
    exact .nested (spelled_encodeComponents h.2) h.1
end

end ClassRecovery
