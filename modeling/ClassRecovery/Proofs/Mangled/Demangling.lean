/-
  Demangling.

  Demangling inverts mangling (`demangle_encode`).  What demangling makes of any text is either the text itself or
  the readable form of a name that is spelled at the front of the text, behind the symbol mark; and it is that of the
  whole text where this is spelled strictly (`demangle_spelled`).  What comes behind the name is lost: `3FooX` has
  the readable form of `3Foo` (`demangle_not_whole`).
-/
import ClassRecovery.Proofs.Mangled.Reading

namespace ClassRecovery

theorem withoutSymbolMark_append (w : List Char) : withoutSymbolMark (symbolMark ++ w) = w := by
  simp [withoutSymbolMark]

theorem withoutSymbolMark_of_spelled {g : Grammar} {n : ClassName} {w : List Char} (h : n.Spelled g w) :
    withoutSymbolMark w = w := by
  obtain ⟨d, v, rfl, hd⟩ := h.exists_cons
  have hmark : d ≠ '_' := by
    rcases hd with rfl | hd
    · decide
    · exact Mangled.ne_of_isDigit hd (by decide)
  rw [withoutSymbolMark, if_neg]
  simp [symbolMark, List.isPrefixOf, Ne.symm hmark]

/-- A text with a strict spelling of a name at its front has the readable form of the name. -/
theorem demangle_of_spelled {n : ClassName} {w rest : List Char} {s : String} (h : n.Spelled .strict w)
    (hs : withoutSymbolMark s.toList = w ++ rest) (hrest : Mangled.Follows rest) :
    demangle s = String.ofList n.render := by
  have hfuel : 4 * w.length + 1 ≤ Mangled.enoughFuel (w ++ rest).length := by
    simp only [Mangled.enoughFuel, List.length_append]
    omega
  have hread := h.read hfuel hrest
  simp only [demangle, hs, hread]

/-- **Demangling inverts mangling**, with the symbol mark in front of the mangled name and without it. -/
theorem demangle_encode {n : ClassName} (h : n.isProper) :
    demangle (String.ofList n.encode) = String.ofList n.render ∧
      demangle (String.ofList (symbolMark ++ n.encode)) = String.ofList n.render := by
  have hspelled := ClassName.spelled_encode h
  have hend : Mangled.Follows [] := nofun
  refine ⟨demangle_of_spelled hspelled ?_ hend, demangle_of_spelled hspelled ?_ hend⟩
  · rw [String.toList_ofList, withoutSymbolMark_of_spelled hspelled, List.append_nil]
  · rw [String.toList_ofList, withoutSymbolMark_append, List.append_nil]

theorem demangle_encode_box :
    (ClassName.nested [.mk "größe".toList none, .mk "Box".toList (some [.pointer (.const (.builtin .char)),
      .literal (.builtin .int) true "12".toList, .name (.plain (.mk "Foo".toList none))])]).isProper ∧
    demangle "N7größe3BoxIPKcLin12E3FooEE" = "größe::Box<const char*, -12, Foo>" ∧
    demangle "_ZTSN7größe3BoxIPKcLin12E3FooEE" = "größe::Box<const char*, -12, Foo>" :=
  ⟨by decide, demangle_encode (n := .nested [.mk "größe".toList none, .mk "Box".toList
    (some [.pointer (.const (.builtin .char)), .literal (.builtin .int) true "12".toList,
      .name (.plain (.mk "Foo".toList none))])]) (by decide)⟩

/-- **What demangling makes of a text.**  With a strict spelling of a name at its front, it becomes the readable form
    of that name, whatever comes behind the name.  Any other text stays as it is, or becomes the readable form of a
    name that is spelled at its front by the lenient grammar. -/
theorem demangle_spelled (s : String) :
    (∀ (n : ClassName) (w rest : List Char), n.Spelled .strict w → withoutSymbolMark s.toList = w ++ rest →
        Mangled.Follows rest → demangle s = String.ofList n.render) ∧
      (demangle s = s ∨ ∃ (n : ClassName) (w rest : List Char), n.Spelled .lenient w ∧
        withoutSymbolMark s.toList = w ++ rest ∧ demangle s = String.ofList n.render) := by
  refine ⟨fun _ _ _ => demangle_of_spelled, ?_⟩
  cases hname : Mangled.name? (Mangled.enoughFuel (withoutSymbolMark s.toList).length)
      (withoutSymbolMark s.toList) with
  | none => exact .inl (by simp only [demangle, hname])
  | some read =>
    obtain ⟨n, rest⟩ := read
    obtain ⟨w, hw, hs⟩ := Mangled.spelled_of_name? hname
    exact .inr ⟨n, w, rest, hw, hs, by simp only [demangle, hname]⟩

theorem demangle_spelled_front :
    (ClassName.plain (.mk "Foo".toList none)).Spelled .strict "3Foo".toList ∧ demangle "3Foo3Bar" = "Foo" := by
  have hspelled : (ClassName.plain (.mk "Foo".toList none)).Spelled .strict "3Foo".toList :=
    ClassName.spelled_encode (n := .plain (.mk "Foo".toList none)) (by decide)
  exact ⟨hspelled, (demangle_spelled "3Foo3Bar").1 _ _ "3Bar".toList hspelled rfl (by simp [Mangled.Follows])⟩

/-- Demangling loses what comes behind a name: `3FooX` is no spelling of a name, and does not stay as it is. -/
theorem demangle_not_whole :
    demangle "3FooX" = "Foo" ∧ ¬ ∃ n : ClassName, n.Spelled .strict (withoutSymbolMark "3FooX".toList) := by
  refine ⟨by decide +kernel, ?_⟩
  rintro ⟨n, h⟩
  have hread : Mangled.name? 24 (withoutSymbolMark "3FooX".toList ++ []) = some (n, []) :=
    h.read (by decide) nofun
  have hfound : (Mangled.name? 24 (withoutSymbolMark "3FooX".toList ++ [])).map Prod.snd = some ['X'] := by
    decide +kernel
  rw [hread] at hfound
  cases hfound

end ClassRecovery
