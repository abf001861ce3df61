/-
  Reading mangled names.

  What is spelled strictly is read back, whatever text comes behind it (`ClassName.Spelled.read`): in front of
  that text the reader needs no more than four steps for a character.  And whatever the reader takes off the
  front of a text is spelled by the lenient grammar (`Mangled.spelled_of_name?`).
-/
import ClassRecovery.Proofs.Mangled.Spelling
import Mathlib.Tactic.SplitIfs

namespace ClassRecovery

variable {cs w v rest text digits : List Char} {fuel : Nat}

/-! ## Identifiers, literals and codes -/

namespace Mangled

theorem takeBytes?_append (text rest : List Char) :
    takeBytes? (byteLength text) (text ++ rest) = some (text, rest) := by
  induction text with
  | nil => simp [byteLength, takeBytes?]
  | cons c text ih =>
    obtain ⟨size, hsize⟩ := Nat.exists_eq_add_of_lt c.utf8Size_pos
    simp only [Nat.zero_add] at hsize
    have hlength : byteLength (c :: text) = size + byteLength text + 1 := by
      simp only [byteLength, hsize]; omega
    rw [hlength, List.cons_append, takeBytes?, if_pos (by omega)]
    have hleft : size + byteLength text + 1 - c.utf8Size = byteLength text := by omega
    rw [hleft, ih]
    rfl

theorem of_takeBytes? {count : Nat} (h : takeBytes? count cs = some (text, rest)) :
    cs = text ++ rest ∧ byteLength text = count := by
  fun_induction takeBytes? count cs generalizing text with
  | case1 cs => cases h; exact ⟨rfl, rfl⟩
  | case2 => cases h
  | case3 count c cs hsize ih =>
    obtain ⟨⟨taken, rest'⟩, htaken, heq⟩ := Option.map_eq_some_iff.mp h
    cases heq
    obtain ⟨rfl, hlength⟩ := ih htaken
    exact ⟨rfl, by simp only [byteLength]; omega⟩
  | case4 => cases h

theorem takeWhile_isDigit (h : isNumber digits) (hrest : ∀ c, rest.head? = some c → isDigit c = false) :
    (digits ++ rest).takeWhile isDigit = digits ∧ (digits ++ rest).dropWhile isDigit = rest := by
  simp only [isNumber, Bool.and_eq_true, List.all_eq_true] at h
  rw [List.takeWhile_append_of_pos h.2, List.dropWhile_append_of_pos h.2]
  cases rest with
  | nil => simp
  | cons c rest => simp [hrest c rfl]

theorem identifier?_append (h : Measures digits text) (hne : text ≠ []) :
    identifier? (digits ++ text ++ rest) = some (text, rest) := by
  have hhead : ∀ c, (text ++ rest).head? = some c → isDigit c = false := fun c hc =>
    h.head c (by cases text <;> simp_all)
  obtain ⟨htake, hdrop⟩ := takeWhile_isDigit h.isNumber hhead
  have hnumber := h.isNumber
  simp only [isNumber, Bool.and_eq_true, Bool.not_eq_true'] at hnumber
  have hsize := h.lt_size
  rw [identifier?, List.append_assoc, htake, hdrop, h.value, takeBytes?_append]
  simp [hnumber.1]
  omega

theorem of_identifier? (h : identifier? cs = some (text, rest)) :
    ∃ digits, Measures digits text ∧ cs = digits ++ text ++ rest := by
  simp only [identifier?] at h
  split at h
  · cases h
  · next hlength =>
    simp only [Bool.or_eq_true, decide_eq_true_eq, not_or, Nat.not_le] at hlength
    obtain ⟨hdrop, hvalue⟩ := of_takeBytes? h
    refine ⟨cs.takeWhile isDigit, ⟨?_, hvalue.symm, hvalue ▸ hlength.2, fun c hc => ?_⟩, ?_⟩
    · simp [isNumber, hlength.1]
    · have hhead : (cs.dropWhile isDigit).head? = some c := by rw [hdrop]; simp [hc]
      have hnot := List.head?_dropWhile_not isDigit cs
      rwa [hhead] at hnot
    · rw [List.append_assoc, ← hdrop, List.takeWhile_append_dropWhile]

theorem untilEnd?_eq_some_iff : untilEnd? cs = some (text, rest) ↔ 'E' ∉ text ∧ cs = text ++ 'E' :: rest := by
  induction cs generalizing text with
  | nil => simp [untilEnd?]
  | cons c cs ih =>
    rw [untilEnd?]
    split
    · next hc =>
      subst hc
      constructor
      · intro h
        cases h
        exact ⟨by simp, rfl⟩
      · rintro ⟨hend, h⟩
        cases text with
        | nil => cases h; rfl
        | cons d text => cases h; simp at hend
    · next hc =>
      rw [Option.map_eq_some_iff]
      constructor
      · rintro ⟨⟨text', rest'⟩, h, heq⟩
        cases heq
        obtain ⟨hend, rfl⟩ := ih.mp h
        exact ⟨by simp [hend, Ne.symm hc], rfl⟩
      · rintro ⟨hend, h⟩
        cases text with
        | nil => cases h; exact absurd rfl hc
        | cons d text =>
          cases h
          exact ⟨(text, rest), ih.mpr ⟨fun hmem => hend (List.mem_cons_of_mem _ hmem), rfl⟩, rfl⟩

theorem literal_signText {type : TemplateArgument} {negative : Bool}
    (h : negative = false → digits.head? ≠ some 'n') :
    literal type (signText negative ++ digits) = .literal type negative digits := by
  cases negative with
  | true => rfl
  | false =>
    simp only [signText, Bool.false_eq_true, if_false, List.nil_append, literal]
    split
    · simp at h
    · rfl

theorem exists_literal (type : TemplateArgument) (text : List Char) :
    ∃ negative digits, literal type text = .literal type negative digits ∧ text = signText negative ++ digits ∧
      (negative = false → digits.head? ≠ some 'n') := by
  unfold literal
  split
  · next digits => exact ⟨true, digits, rfl, rfl, nofun⟩
  · next hn =>
    refine ⟨false, text, rfl, rfl, fun _ hhead => ?_⟩
    cases text with
    | nil => cases hhead
    | cons c text => cases hhead; exact hn _ rfl

end Mangled

theorem BuiltinType.ofCode?_code (type : BuiltinType) : ofCode? type.code = some type := by
  cases type <;> rfl

theorem BuiltinType.eq_code_of_ofCode? {c : Char} {type : BuiltinType} (h : ofCode? c = some type) :
    type.code = c := by
  simpa using List.find?_some h

theorem BuiltinType.ofCode?_eq_none {c : Char} (h : ∀ type : BuiltinType, type.code ≠ c) : ofCode? c = none := by
  cases hc : ofCode? c with
  | none => rfl
  | some type => exact absurd (eq_code_of_ofCode? hc) (h type)

/-- The letters of the other arguments are no codes of builtin types. -/
theorem BuiltinType.ofCode?_of_mem (c : Char) (hc : c ∈ ['P', 'R', 'K', 'L']) : ofCode? c = none := by
  have hall : ['P', 'R', 'K', 'L'].all fun c => (ofCode? c).isNone := by decide
  exact Option.isNone_iff_eq_none.mp (List.all_eq_true.mp hall c hc)

/-! ## First characters -/

theorem Mangled.Measures.exists_cons (h : Mangled.Measures digits text) :
    ∃ d v, digits = d :: v ∧ Mangled.isDigit d := by
  have hnumber := h.isNumber
  simp only [Mangled.isNumber, Bool.and_eq_true, List.all_eq_true] at hnumber
  cases digits with
  | nil => simp at hnumber
  | cons d v => exact ⟨d, v, rfl, hnumber.2 d List.mem_cons_self⟩

theorem Mangled.Measures.length_pos (h : Mangled.Measures digits text) : 0 < digits.length := by
  obtain ⟨d, v, rfl, -⟩ := h.exists_cons
  simp

/-- A component begins with a digit. -/
theorem NameComponent.Spelled.exists_cons {g : Grammar} {c : NameComponent} (h : c.Spelled g w) :
    ∃ d v, w = d :: v ∧ Mangled.isDigit d := by
  cases h with
  | plain h _ | withArguments h _ _ =>
    obtain ⟨d, v, rfl, hd⟩ := h.exists_cons
    exact ⟨d, _, rfl, hd⟩

/-- A name begins with a digit or an `N`. -/
theorem ClassName.Spelled.exists_cons {g : Grammar} {n : ClassName} (h : n.Spelled g w) :
    ∃ d v, w = d :: v ∧ (d = 'N' ∨ Mangled.isDigit d) := by
  cases h with
  | plain h =>
    obtain ⟨d, v, rfl, hd⟩ := h.exists_cons
    exact ⟨d, v, rfl, .inr hd⟩
  | nested h _ | unclosed h _ _ => exact ⟨'N', _, rfl, .inl rfl⟩

/-- An argument begins neither with the `I` that begins a list of arguments nor with the `E` that ends it. -/
theorem TemplateArgument.Spelled.exists_cons {g : Grammar} {a : TemplateArgument} (h : a.Spelled g w) :
    ∃ d v, w = d :: v ∧ d ≠ 'I' ∧ d ≠ 'E' := by
  cases h with
  | builtin type => exact ⟨_, _, rfl, by cases type <;> decide⟩
  | pointer h | reference h | const h | literal h _ _ _ => exact ⟨_, _, rfl, by decide, by decide⟩
  | name h =>
    obtain ⟨d, v, rfl, rfl | hd⟩ := h.exists_cons
    · exact ⟨_, _, rfl, by decide, by decide⟩
    · exact ⟨d, v, rfl, Mangled.ne_of_isDigit hd (by decide), Mangled.ne_of_isDigit hd (by decide)⟩

/-- A component without arguments is only read in front of a text that does not look like arguments. -/
def Mangled.Follows (rest : List Char) : Prop := rest.head? ≠ some 'I'

theorem ArgumentsSpelled.follows {g : Grammar} {arguments : List TemplateArgument}
    (h : ArgumentsSpelled g arguments w) : Mangled.Follows (w ++ 'E' :: rest) := by
  cases h with
  | nil => simp [Mangled.Follows]
  | cons h _ =>
    obtain ⟨d, v, rfl, hd, -⟩ := h.exists_cons
    simpa [Mangled.Follows] using hd

theorem ComponentsSpelled.follows {g : Grammar} {components : List NameComponent}
    (h : ComponentsSpelled g components w) : Mangled.Follows (w ++ 'E' :: rest) := by
  cases h with
  | nil => simp [Mangled.Follows]
  | cons h _ =>
    obtain ⟨d, v, rfl, hd⟩ := h.exists_cons
    simpa [Mangled.Follows] using Mangled.ne_of_isDigit hd (d := 'I') (by decide)

/-! ## What is spelled is read -/

namespace Mangled

theorem component?_of_identifier? {identifier : List Char} (h : identifier? cs = some (identifier, rest))
    (hrest : Follows rest) : component? (fuel + 1) cs = some (.mk identifier none, rest) := by
  rw [component?, h]
  split
  · next heq => cases heq
  · next heq => cases heq; exact absurd rfl hrest
  · next heq => cases heq; rfl

theorem component?_of_arguments? {identifier : List Char} {arguments : List TemplateArgument}
    (h : identifier? cs = some (identifier, 'I' :: w)) (harguments : arguments? fuel w = some (arguments, rest)) :
    component? (fuel + 1) cs = some (.mk identifier (some arguments), rest) := by
  rw [component?, h]
  simp [harguments]

theorem arguments?_of_argument? {d : Char} {a : TemplateArgument} {arguments : List TemplateArgument}
    (hd : d ≠ 'E') (h : argument? fuel (d :: w) = some (a, v)) (hrest : arguments? fuel v = some (arguments, rest)) :
    arguments? (fuel + 1) (d :: w) = some (a :: arguments, rest) := by
  rw [arguments?]
  · simp [h, hrest]
  · simpa using hd

theorem components_of_component? {d : Char} {c : NameComponent} {more : List NameComponent} (hd : isDigit d)
    (h : component? fuel (d :: w) = some (c, v)) (hrest : components fuel v = (more, rest)) :
    components (fuel + 1) (d :: w) = (c :: more, rest) := by
  rw [components]
  · simp [h, hrest]
  · nofun
  · simpa using ne_of_isDigit hd (d := 'E') (by decide)

theorem name?_of_component? {d : Char} {c : NameComponent} (hd : isDigit d)
    (h : component? fuel (d :: w) = some (c, rest)) : name? (fuel + 1) (d :: w) = some (.plain c, rest) := by
  rw [name?]
  · simp [h]
  · simpa using ne_of_isDigit hd (d := 'N') (by decide)

theorem name?_of_components {components : List NameComponent} (hne : components ≠ [])
    (h : Mangled.components fuel w = (components, 'E' :: rest)) :
    name? (fuel + 1) ('N' :: w) = some (.nested components, rest) := by
  rw [name?, h]
  cases components with
  | nil => exact absurd rfl hne
  | cons c more => rfl

theorem follows_of_isNumber {negative : Bool} (h : isNumber digits) :
    Follows (signText negative ++ digits ++ 'E' :: rest) := by
  cases negative with
  | true => simp [Follows, signText]
  | false =>
    cases digits with
    | nil => cases h
    | cons d digits =>
      have hd := not_mem_of_isNumber h (d := 'I') (by decide)
      simp only [List.mem_cons, not_or] at hd
      simpa [Follows, signText] using Ne.symm hd.1

theorem argument?_of_literal {type : TemplateArgument} {negative : Bool}
    (h : argument? fuel (w ++ (signText negative ++ digits ++ 'E' :: rest)) =
      some (type, signText negative ++ digits ++ 'E' :: rest))
    (hend : 'E' ∉ digits) (hsign : negative = false → digits.head? ≠ some 'n') :
    argument? (fuel + 1) ('L' :: w ++ signText negative ++ digits ++ ['E'] ++ rest) =
      some (.literal type negative digits, rest) := by
  have hnot : 'E' ∉ signText negative ++ digits := by
    cases negative <;> simpa [signText] using hend
  have huntil : untilEnd? (signText negative ++ digits ++ 'E' :: rest) = some (signText negative ++ digits, rest) :=
    untilEnd?_eq_some_iff.mpr ⟨hnot, rfl⟩
  have hliteral : literal type (signText negative ++ digits) = .literal type negative digits :=
    literal_signText hsign
  simp only [List.append_assoc, List.cons_append, List.nil_append] at h huntil ⊢
  simp [argument?, BuiltinType.ofCode?_of_mem, h, huntil, hliteral]

theorem argument?_of_name? {d : Char} {n : ClassName} (hd : d = 'N' ∨ isDigit d)
    (h : name? fuel (d :: w) = some (n, rest)) : argument? (fuel + 1) (d :: w) = some (.name n, rest) := by
  have hcode : BuiltinType.ofCode? d = none := BuiltinType.ofCode?_eq_none fun type => by
    rcases hd with rfl | hd
    · cases type <;> decide
    · exact (ne_of_isDigit hd (by cases type <;> decide)).symm
  have hdigit : ['P', 'R', 'K', 'L'].all fun e => !isDigit e := by decide
  have hother : ∀ e ∈ ['P', 'R', 'K', 'L'], d ≠ e := fun e he => by
    rcases hd with rfl | hd
    · rintro rfl
      revert he
      decide
    · exact ne_of_isDigit hd (by simpa using List.all_eq_true.mp hdigit e he)
  simp only [List.forall_mem_cons] at hother
  obtain ⟨hP, hR, hK, hL, -⟩ := hother
  have hname : (d = 'N' || isDigit d) = true := by simpa using hd
  simp [argument?, hcode, hP, hR, hK, hL, hname, h]

end Mangled

mutual
theorem TemplateArgument.Spelled.read : ∀ {a : TemplateArgument} {w : List Char}, a.Spelled .strict w →
    ∀ {fuel rest}, 4 * w.length + 2 ≤ fuel → Mangled.Follows rest →
      Mangled.argument? fuel (w ++ rest) = some (a, rest)
  | _, _, .builtin type, fuel + 1, rest, _, _ => by
    simp [Mangled.argument?, BuiltinType.ofCode?_code]
  | .pointer target, 'P' :: w, .pointer h, fuel + 1, rest, hfuel, hrest => by
    simp only [List.length_cons] at hfuel
    have hread : Mangled.argument? fuel (w ++ rest) = some (target, rest) := h.read (by omega) hrest
    simp [Mangled.argument?, BuiltinType.ofCode?_of_mem, hread]
  | .reference target, 'R' :: w, .reference h, fuel + 1, rest, hfuel, hrest => by
    simp only [List.length_cons] at hfuel
    have hread : Mangled.argument? fuel (w ++ rest) = some (target, rest) := h.read (by omega) hrest
    simp [Mangled.argument?, BuiltinType.ofCode?_of_mem, hread]
  | .const target, 'K' :: w, .const h, fuel + 1, rest, hfuel, hrest => by
    simp only [List.length_cons] at hfuel
    have hread : Mangled.argument? fuel (w ++ rest) = some (target, rest) := h.read (by omega) hrest
    simp [Mangled.argument?, BuiltinType.ofCode?_of_mem, hread]
  | _, _, .literal h hnumber hend hsign, fuel + 1, rest, hfuel, _ => by
    simp only [List.length_cons, List.length_append, List.cons_append] at hfuel
    exact Mangled.argument?_of_literal (h.read (by omega) (Mangled.follows_of_isNumber (hnumber rfl))) hend hsign
  | .name n, w, .name h, fuel + 1, rest, hfuel, hrest => by
    have hread : Mangled.name? fuel (w ++ rest) = some (n, rest) := h.read (by omega) hrest
    obtain ⟨d, v, rfl, hd⟩ := h.exists_cons
    exact Mangled.argument?_of_name? hd hread

theorem ArgumentsSpelled.read : ∀ {arguments : List TemplateArgument} {w : List Char},
    ArgumentsSpelled .strict arguments w → ∀ {fuel rest}, 4 * w.length + 3 ≤ fuel →
      Mangled.arguments? fuel (w ++ 'E' :: rest) = some (arguments, rest)
  | _, _, .nil, fuel + 1, rest, _ => by simp [Mangled.arguments?]
  | a :: _, _, .cons (w := w) (v := v) h hrest, fuel + 1, rest, hfuel => by
    simp only [List.length_append] at hfuel
    have hread : Mangled.argument? fuel (w ++ (v ++ 'E' :: rest)) = some (a, v ++ 'E' :: rest) :=
      h.read (by omega) hrest.follows
    obtain ⟨d, u, rfl, -, hd⟩ := h.exists_cons
    simp only [List.length_cons] at hfuel
    rw [List.append_assoc]
    exact Mangled.arguments?_of_argument? hd hread (hrest.read (by omega))

theorem NameComponent.Spelled.read : ∀ {c : NameComponent} {w : List Char}, c.Spelled .strict w →
    ∀ {fuel rest}, 4 * w.length ≤ fuel → Mangled.Follows rest →
      Mangled.component? fuel (w ++ rest) = some (c, rest)
  | _, _, .plain h hne, fuel, rest, hfuel, hrest => by
    have hpos := h.length_pos
    obtain ⟨fuel, rfl⟩ := Nat.exists_eq_succ_of_ne_zero (n := fuel) (by simp at hfuel; omega)
    exact Mangled.component?_of_identifier? (Mangled.identifier?_append h (hne rfl)) hrest
  | _, _, .withArguments h hne harguments, fuel, rest, hfuel, _ => by
    have hpos := h.length_pos
    simp only [List.length_cons, List.length_append, List.cons_append, List.append_assoc] at hfuel
    obtain ⟨fuel, rfl⟩ := Nat.exists_eq_succ_of_ne_zero (n := fuel) (by omega)
    simp only [List.append_assoc, List.cons_append, List.nil_append]
    rw [← List.append_assoc]
    exact Mangled.component?_of_arguments? (Mangled.identifier?_append h (hne rfl)) (harguments.read (by omega))

theorem ComponentsSpelled.read : ∀ {components : List NameComponent} {w : List Char},
    ComponentsSpelled .strict components w → ∀ {fuel rest}, 4 * w.length + 1 ≤ fuel →
      Mangled.components fuel (w ++ 'E' :: rest) = (components, 'E' :: rest)
  | _, _, .nil, fuel + 1, rest, _ => by simp [Mangled.components]
  | c :: _, _, .cons (w := w) (v := v) h hrest, fuel + 1, rest, hfuel => by
    simp only [List.length_append] at hfuel
    have hread : Mangled.component? fuel (w ++ (v ++ 'E' :: rest)) = some (c, v ++ 'E' :: rest) :=
      h.read (by omega) hrest.follows
    obtain ⟨d, u, rfl, hd⟩ := h.exists_cons
    simp only [List.length_cons] at hfuel
    rw [List.append_assoc]
    exact Mangled.components_of_component? hd hread (hrest.read (by omega))

/-- **What is spelled strictly** is read back from the front of a text. -/
theorem ClassName.Spelled.read : ∀ {n : ClassName} {w : List Char}, n.Spelled .strict w →
    ∀ {fuel rest}, 4 * w.length + 1 ≤ fuel → Mangled.Follows rest →
      Mangled.name? fuel (w ++ rest) = some (n, rest)
  | .plain c, w, .plain h, fuel + 1, rest, hfuel, hrest => by
    have hread : Mangled.component? fuel (w ++ rest) = some (c, rest) := h.read (by omega) hrest
    obtain ⟨d, v, rfl, hd⟩ := h.exists_cons
    exact Mangled.name?_of_component? hd hread
  | _, _, .nested h hne, fuel + 1, rest, hfuel, _ => by
    simp only [List.length_cons, List.length_append, List.cons_append] at hfuel
    rw [List.append_assoc]
    exact Mangled.name?_of_components hne (h.read (by omega))
end

/-! ## What is read is spelled -/

namespace Mangled

/-- What the readers take off the front of a text with the given fuel is spelled there. -/
structure Sound (fuel : Nat) : Prop where
  of_name? : ∀ {cs n rest}, name? fuel cs = some (n, rest) → ∃ w, n.Spelled .lenient w ∧ cs = w ++ rest
  of_components : ∀ {cs more rest}, components fuel cs = (more, rest) →
    ∃ w, ComponentsSpelled .lenient more w ∧ cs = w ++ rest
  of_component? : ∀ {cs c rest}, component? fuel cs = some (c, rest) →
    ∃ w, c.Spelled .lenient w ∧ cs = w ++ rest
  of_arguments? : ∀ {cs more rest}, arguments? fuel cs = some (more, rest) →
    ∃ w, ArgumentsSpelled .lenient more w ∧ cs = w ++ 'E' :: rest
  of_argument? : ∀ {cs a rest}, argument? fuel cs = some (a, rest) → ∃ w, a.Spelled .lenient w ∧ cs = w ++ rest

theorem closed_eq (cs : List Char) : cs = 'E' :: closed cs ∨ closed cs = cs := by
  unfold closed
  split
  · exact .inl rfl
  · exact .inr rfl

section
variable (sound : Sound fuel)
include sound

theorem Sound.name?_succ {n : ClassName} (h : name? (fuel + 1) cs = some (n, rest)) :
    ∃ w, n.Spelled .lenient w ∧ cs = w ++ rest := by
  rw [name?.eq_def] at h
  simp only at h
  split at h
  · split at h
    · cases h
    · next c more rest' hcomponents =>
      cases h
      obtain ⟨w, hw, rfl⟩ := sound.of_components hcomponents
      rcases closed_eq rest' with hclosed | hclosed
      · exact ⟨_, .nested hw (List.cons_ne_nil _ _), by simpa using hclosed⟩
      · exact ⟨_, .unclosed hw (List.cons_ne_nil _ _) rfl, by rw [hclosed]; rfl⟩
  · obtain ⟨⟨c, rest'⟩, hcomponent, heq⟩ := Option.map_eq_some_iff.mp h
    cases heq
    obtain ⟨w, hw, rfl⟩ := sound.of_component? hcomponent
    exact ⟨w, .plain hw, rfl⟩

theorem Sound.components_succ {more : List NameComponent} (h : components (fuel + 1) cs = (more, rest)) :
    ∃ w, ComponentsSpelled .lenient more w ∧ cs = w ++ rest := by
  rw [components.eq_def] at h
  simp only at h
  split at h
  · cases h
    exact ⟨[], .nil, rfl⟩
  · cases h
    exact ⟨[], .nil, rfl⟩
  · split at h
    · cases h
      exact ⟨[], .nil, rfl⟩
    · next c rest' hcomponent =>
      cases h
      obtain ⟨w, hw, rfl⟩ := sound.of_component? hcomponent
      obtain ⟨v, hv, hrest⟩ := sound.of_components (show components fuel rest' = (_, _) from rfl)
      exact ⟨w ++ v, .cons hw hv, by rw [List.append_assoc, ← hrest]⟩

theorem Sound.component?_succ {c : NameComponent} (h : component? (fuel + 1) cs = some (c, rest)) :
    ∃ w, c.Spelled .lenient w ∧ cs = w ++ rest := by
  rw [component?.eq_def] at h
  simp only at h
  split at h
  · cases h
  · next identifier rest' hidentifier =>
    obtain ⟨digits, hmeasures, rfl⟩ := of_identifier? hidentifier
    obtain ⟨⟨arguments, rest''⟩, harguments, heq⟩ := Option.map_eq_some_iff.mp h
    cases heq
    obtain ⟨w, hw, rfl⟩ := sound.of_arguments? harguments
    exact ⟨_, .withArguments hmeasures nofun hw, by simp⟩
  · next identifier rest' _ hidentifier =>
    cases h
    obtain ⟨digits, hmeasures, rfl⟩ := of_identifier? hidentifier
    exact ⟨_, .plain hmeasures nofun, rfl⟩

theorem Sound.arguments?_succ {more : List TemplateArgument} (h : arguments? (fuel + 1) cs = some (more, rest)) :
    ∃ w, ArgumentsSpelled .lenient more w ∧ cs = w ++ 'E' :: rest := by
  rw [arguments?.eq_def] at h
  simp only at h
  split at h
  · cases h
    exact ⟨[], .nil, rfl⟩
  · split at h
    · cases h
    · next a rest' hargument =>
      obtain ⟨⟨others, rest''⟩, hothers, heq⟩ := Option.map_eq_some_iff.mp h
      cases heq
      obtain ⟨w, hw, rfl⟩ := sound.of_argument? hargument
      obtain ⟨v, hv, rfl⟩ := sound.of_arguments? hothers
      exact ⟨w ++ v, .cons hw hv, (List.append_assoc _ _ _).symm⟩

/-- An argument whose letter stands in front of another argument. -/
theorem Sound.of_map_argument? {f : TemplateArgument → TemplateArgument} {c : Char} {a : TemplateArgument}
    (hf : ∀ {target w}, target.Spelled .lenient w → (f target).Spelled .lenient (c :: w))
    (h : (argument? fuel cs).map (fun (target, rest) => (f target, rest)) = some (a, rest)) :
    ∃ w, a.Spelled .lenient w ∧ c :: cs = w ++ rest := by
  obtain ⟨⟨target, rest'⟩, htarget, heq⟩ := Option.map_eq_some_iff.mp h
  cases heq
  obtain ⟨w, hw, rfl⟩ := sound.of_argument? htarget
  exact ⟨c :: w, hf hw, rfl⟩

theorem Sound.of_literal {type a : TemplateArgument} (htype : argument? fuel cs = some (type, v))
    (h : (untilEnd? v).map (fun (text, rest) => (literal type text, rest)) = some (a, rest)) :
    ∃ w, a.Spelled .lenient w ∧ 'L' :: cs = w ++ rest := by
  obtain ⟨⟨text, rest'⟩, htext, heq⟩ := Option.map_eq_some_iff.mp h
  cases heq
  obtain ⟨hend, rfl⟩ := untilEnd?_eq_some_iff.mp htext
  obtain ⟨w, hw, rfl⟩ := sound.of_argument? htype
  obtain ⟨negative, digits, hliteral, rfl, hsign⟩ := exists_literal type text
  rw [hliteral]
  exact ⟨_, .literal hw nofun (fun hmem => hend (List.mem_append_right _ hmem)) hsign, by simp⟩

theorem Sound.argument?_succ {a : TemplateArgument} (h : argument? (fuel + 1) cs = some (a, rest)) :
    ∃ w, a.Spelled .lenient w ∧ cs = w ++ rest := by
  cases cs with
  | nil => cases h
  | cons c cs =>
    rw [argument?] at h
    split at h
    · next type hcode =>
      cases h
      exact ⟨_, .builtin type, by rw [BuiltinType.eq_code_of_ofCode? hcode]; rfl⟩
    · split_ifs at h with hP hR hK hL hname
      · exact hP ▸ sound.of_map_argument? .pointer h
      · exact hR ▸ sound.of_map_argument? .reference h
      · exact hK ▸ sound.of_map_argument? .const h
      · split at h
        · cases h
        · next htype => exact hL ▸ sound.of_literal htype h
      · obtain ⟨⟨n, rest'⟩, hn, heq⟩ := Option.map_eq_some_iff.mp h
        cases heq
        obtain ⟨w, hw, hcs⟩ := sound.of_name? hn
        exact ⟨w, .name hw, hcs⟩

end

theorem sound (fuel : Nat) : Sound fuel := by
  induction fuel with
  | zero => exact ⟨nofun, fun h => by cases h; exact ⟨[], .nil, rfl⟩, nofun, nofun, nofun⟩
  | succ fuel ih =>
    exact ⟨ih.name?_succ, ih.components_succ, ih.component?_succ, ih.arguments?_succ, ih.argument?_succ⟩

/-- **What is read** off the front of a text is spelled there. -/
theorem spelled_of_name? {n : ClassName} (h : name? fuel cs = some (n, rest)) :
    ∃ w, n.Spelled .lenient w ∧ cs = w ++ rest :=
  (sound fuel).of_name? h

end Mangled

end ClassRecovery
