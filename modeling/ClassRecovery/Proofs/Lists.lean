/-
  Lists whose elements belong together, and computations along lists that may fail.
-/
import Mathlib.Data.List.Forall2

namespace ClassRecovery

/-! ## Computations that may fail -/

theorem mapM_eq_some_iff {α β : Type} {f : α → Option β} {l : List α} {l' : List β} :
    l.mapM f = some l' ↔ List.Forall₂ (fun a b => f a = some b) l l' := by
  induction l generalizing l' with
  | nil => simp [eq_comm]
  | cons a l ih =>
    simp only [List.mapM_cons, bind, pure, Option.bind_eq_some_iff, List.forall₂_cons_left_iff, ih]
    constructor
    · rintro ⟨b, hb, bs, hbs, h⟩
      cases h
      exact ⟨b, bs, hb, hbs, rfl⟩
    · rintro ⟨b, bs, hb, hbs, rfl⟩
      exact ⟨b, hb, bs, hbs, rfl⟩

theorem bind_eq_ok_iff {ε α β : Type} {x : Except ε α} {f : α → Except ε β} {b : β} :
    (x >>= f) = .ok b ↔ ∃ a, x = .ok a ∧ f a = .ok b := by
  cases x <;> simp [bind, Except.bind]

theorem mapError_eq_ok_iff {ε ε' α : Type} {x : Except ε α} {f : ε → ε'} {a : α} :
    x.mapError f = .ok a ↔ x = .ok a := by
  cases x <;> simp [Except.mapError]

theorem bind_eq_error_iff {ε α β : Type} {x : Except ε α} {f : α → Except ε β} {e : ε} :
    (x >>= f) = .error e ↔ x = .error e ∨ ∃ a, x = .ok a ∧ f a = .error e := by
  cases x <;> simp [bind, Except.bind]

/-- Computations that agree in what is used of their results may be gone on with alike. -/
theorem bind_congr_of_map {ε α β γ : Type} {x x' : Except ε α} {f : α → γ} {g : α → Except ε β}
    (h : x'.map f = x.map f) (hg : ∀ a a', f a' = f a → g a' = g a) : x' >>= g = x >>= g := by
  cases x with
  | error e => cases x' <;> simp_all [Except.map, bind, Except.bind]
  | ok a =>
    cases x' with
    | error e => simp [Except.map] at h
    | ok a' => exact hg a a' (Except.ok.inj h)

theorem elim_eq_ok_iff {ε α : Type} {x : Option α} {e : ε} {a : α} :
    (x.elim (.error e) .ok : Except ε α) = .ok a ↔ x = some a := by
  cases x <;> simp

theorem elim_eq_error_iff {ε α : Type} {x : Option α} {e e' : ε} :
    (x.elim (.error e) .ok : Except ε α) = .error e' ↔ x = none ∧ e' = e := by
  cases x <;> simp [eq_comm]

theorem toOption_eq_some_iff {ε α : Type} {x : Except ε α} {a : α} :
    x.toOption = some a ↔ x = .ok a := by
  cases x <;> simp [Except.toOption]

theorem isOk_iff {ε α : Type} {x : Except ε α} : x.isOk = true ↔ ∃ a, x = .ok a := by
  cases x <;> simp [Except.isOk, Except.toBool]

/-! ## Pairs of lists -/

theorem forall₂_mem_left {α β : Type} {R : α → β → Prop} {l : List α} {l' : List β}
    (h : List.Forall₂ R l l') {a : α} (ha : a ∈ l) : ∃ b ∈ l', R a b := by
  induction h with
  | nil => simp at ha
  | cons hR _ ih =>
    rcases List.mem_cons.mp ha with rfl | ha
    · exact ⟨_, List.mem_cons_self, hR⟩
    · obtain ⟨b, hb, hRb⟩ := ih ha
      exact ⟨b, List.mem_cons_of_mem _ hb, hRb⟩

theorem forall₂_mem_right {α β : Type} {R : α → β → Prop} {l : List α} {l' : List β}
    (h : List.Forall₂ R l l') {b : β} (hb : b ∈ l') : ∃ a ∈ l, R a b :=
  forall₂_mem_left h.flip hb

theorem forall₂_trans {α β γ : Type} {R : α → β → Prop} {S : β → γ → Prop} {T : α → γ → Prop}
    (hT : ∀ a b c, R a b → S b c → T a c) {l : List α} {m : List β} {n : List γ}
    (h : List.Forall₂ R l m) (h' : List.Forall₂ S m n) : List.Forall₂ T l n := by
  induction h generalizing n with
  | nil => cases h'; exact .nil
  | cons hR _ ih =>
    cases h' with
    | cons hS h' => exact .cons (hT _ _ _ hR hS) (ih h')

theorem forall₂_imp_mem {α β : Type} {R S : α → β → Prop} {l : List α} {l' : List β}
    (h : List.Forall₂ R l l') (hRS : ∀ a ∈ l, ∀ b, R a b → S a b) : List.Forall₂ S l l' := by
  have hmem : List.Forall₂ (fun a b => a ∈ l ∧ R a b) l l' :=
    (List.forall₂_and_left l l').mpr ⟨fun a ha => ha, h⟩
  exact hmem.imp fun a b hab => hRS a hab.1 b hab.2

/-- What related elements have in common, the lists have. -/
theorem map_eq_of_forall₂ {α β γ : Type} {R : α → β → Prop} {f : α → γ} {g : β → γ} {l : List α}
    {l' : List β} (h : List.Forall₂ R l l') (hsame : ∀ a b, R a b → g b = f a) : l'.map g = l.map f := by
  induction h with
  | nil => rfl
  | cons hab _ ih => rw [List.map_cons, List.map_cons, hsame _ _ hab, ih]

theorem forall₂_filter {α β : Type} {R : α → β → Prop} {f : α → Bool} {g : β → Bool}
    (hfg : ∀ a b, R a b → f a = g b) {l : List α} {l' : List β} (h : List.Forall₂ R l l') :
    List.Forall₂ (fun a b => R a b ∧ g b = true) (l.filter f) (l'.filter g) := by
  induction h with
  | nil => exact .nil
  | @cons a b l l' hR _ ih =>
    rw [List.filter_cons, List.filter_cons, hfg a b hR]
    split
    · next hg => exact .cons ⟨hR, hg⟩ ih
    · exact ih

theorem forall₂_flatten {α β γ : Type} {R : β → γ → Prop} {f : α → List γ} {l : List α}
    {blocks : List (List β)} (h : List.Forall₂ (fun a block => List.Forall₂ R block (f a)) l blocks) :
    List.Forall₂ R blocks.flatten (l.flatMap f) := by
  induction h with
  | nil => exact .nil
  | cons hR _ ih => exact List.rel_append hR ih

theorem pairwise_of_forall₂ {α β : Type} {R : α → β → Prop} {S : α → α → Prop} {l : List α}
    {l' : List β} (h : List.Forall₂ R l l') (hnodup : l'.Nodup)
    (hS : ∀ a b a' b', R a b → R a' b' → b ≠ b' → S a a') : l.Pairwise S := by
  induction h with
  | nil => exact .nil
  | cons hR hrest ih =>
    obtain ⟨hnot, hnodup⟩ := List.nodup_cons.mp hnodup
    refine List.pairwise_cons.mpr ⟨fun a ha => ?_, ih hnodup⟩
    obtain ⟨b, hb, hRb⟩ := forall₂_mem_left hrest ha
    exact hS _ _ _ _ hR hRb fun heq => hnot (heq ▸ hb)

theorem pairwise_forall₂ {α β : Type} {R : α → β → Prop} {S : α → α → Prop} {T : β → β → Prop}
    {l : List α} {l' : List β} (h : List.Forall₂ R l l') (hl : l.Pairwise S)
    (hT : ∀ a b a' b', R a b → R a' b' → S a a' → T b b') : l'.Pairwise T := by
  induction h with
  | nil => exact .nil
  | cons hR hrest ih =>
    obtain ⟨ha, hl⟩ := List.pairwise_cons.mp hl
    refine List.pairwise_cons.mpr ⟨fun b' hb' => ?_, ih hl⟩
    obtain ⟨a', ha', hR'⟩ := forall₂_mem_right hrest hb'
    exact hT _ _ _ _ hR hR' (ha a' ha')

/-! ## Lengths -/

theorem length_append_ne_one {α : Type} {l l' : List α} (h : l ≠ []) (h' : l' ≠ []) :
    (l ++ l').length ≠ 1 := by
  have := List.length_pos_of_ne_nil h
  have := List.length_pos_of_ne_nil h'
  rw [List.length_append]
  omega

/-! ## Repetitions -/

theorem nodup_eraseDups {α : Type} [BEq α] [LawfulBEq α] : ∀ l : List α, l.eraseDups.Nodup
  | [] => by simp
  | a :: l => by
    rw [List.eraseDups_cons]
    refine List.nodup_cons.mpr ⟨fun hmem => ?_, nodup_eraseDups _⟩
    simpa using List.of_mem_filter (List.mem_eraseDups.mp hmem)
termination_by l => l.length
decreasing_by
  have := List.length_filter_le (fun b => !b == a) l
  simp only [List.length_cons]
  omega

theorem eraseDups_of_nodup {α : Type} [BEq α] [LawfulBEq α] {l : List α} (h : l.Nodup) :
    l.eraseDups = l := by
  induction l with
  | nil => rfl
  | cons a l ih =>
    obtain ⟨hnot, hl⟩ := List.nodup_cons.mp h
    have hkept : l.filter (fun b => !b == a) = l := by
      refine List.filter_eq_self.mpr fun b hb => ?_
      have hne : b ≠ a := fun heq => hnot (heq ▸ hb)
      simpa using hne
    rw [List.eraseDups_cons, hkept, ih hl]

theorem eraseDups_concat_of_mem {α : Type} [BEq α] [LawfulBEq α] {l : List α} {a : α} (h : a ∈ l) :
    (l ++ [a]).eraseDups = l.eraseDups := by
  simp [List.eraseDups_append, List.removeAll, h]

theorem eraseDups_concat_of_notMem {α : Type} [BEq α] [LawfulBEq α] {l : List α} {a : α}
    (h : a ∉ l) : (l ++ [a]).eraseDups = l.eraseDups ++ [a] := by
  simp [List.eraseDups_append, List.removeAll, h, List.eraseDups_cons]

theorem eraseDups_filter {α : Type} [BEq α] [LawfulBEq α] (p : α → Bool) :
    ∀ l : List α, (l.filter p).eraseDups = l.eraseDups.filter p
  | [] => rfl
  | a :: l => by
    have ih := eraseDups_filter p (l.filter fun b => !b == a)
    rw [List.eraseDups_cons, List.filter_cons, List.filter_cons, ← ih, List.filter_filter]
    cases hp : p a with
    | true =>
      rw [if_pos rfl, if_pos rfl, List.eraseDups_cons, List.filter_filter]
      simp only [Bool.and_comm]
    | false =>
      -- what is kept differs from `a` anyway
      rw [if_neg Bool.false_ne_true, if_neg Bool.false_ne_true]
      congr 1
      refine List.filter_congr fun b _ => ?_
      by_cases hb : b = a
      · simp [hb, hp]
      · simp [hb]
termination_by l => l.length
decreasing_by
  have := List.length_filter_le (fun b => !b == a) l
  simp only [List.length_cons]
  omega

/-- Repetitions within either list may be erased before. -/
theorem eraseDups_append_congr {α : Type} [BEq α] [LawfulBEq α] {l l' r r' : List α}
    (hl : l.eraseDups = l'.eraseDups) (hr : r.eraseDups = r'.eraseDups) :
    (l ++ r).eraseDups = (l' ++ r').eraseDups := by
  have hmem (a : α) : a ∈ l ↔ a ∈ l' := by rw [← List.mem_eraseDups, hl, List.mem_eraseDups]
  have hnew : r.removeAll l = r.removeAll l' := List.filter_congr fun a _ => by simp [hmem]
  rw [List.eraseDups_append, List.eraseDups_append, hl, hnew, List.removeAll, List.removeAll,
    eraseDups_filter, eraseDups_filter, hr]

theorem eraseDups_flatMap_congr {α β : Type} [BEq β] [LawfulBEq β] {l : List α} {f g : α → List β}
    (h : ∀ a ∈ l, (f a).eraseDups = (g a).eraseDups) :
    (l.flatMap f).eraseDups = (l.flatMap g).eraseDups := by
  induction l with
  | nil => rfl
  | cons a l ih =>
    simp only [List.mem_cons, forall_eq_or_imp] at h
    exact eraseDups_append_congr h.1 (ih h.2)

end ClassRecovery
