/-
  Paths of bases and the sub-objects they lead to.

  A path follows direct bases.  Paths that are equal from their last virtual step on lead to the same
  sub-object, and so does no other path: the `locus` of a path is what tells sub-objects apart.  A
  locus splits its paths into a front, which ends in the shared base or after one step, and a back without
  virtual steps (`Hierarchy.locus_split`), and appending to a path carries its locus along
  (`Hierarchy.locus_append`).
-/
import ClassRecovery.Proofs.Offsets.Resolution
import Mathlib.Data.List.Nodup

namespace ClassRecovery

namespace Hierarchy

variable (h : Hierarchy)

/-! ## Paths -/

/-- `path` leads from `a` to `b`: every step goes to a direct base. -/
inductive Leads : ClassId → BasePath → ClassId → Prop
  | nil (a : ClassId) : Leads a [] a
  | cons {a b c : ClassId} {path : BasePath} :
      h.DirectBase a b → Leads b path c → Leads a (b :: path) c

/-- A path to a base of `a`: one with at least one step. -/
def IsPath (a : ClassId) (path : BasePath) : Prop := path ≠ [] ∧ ∃ b, h.Leads a path b

/-- Whether the step from `a` to its direct base `b` is virtual. -/
def isVirtualStep (a b : ClassId) : Bool :=
  (h.classes.get? a).any fun c => c.bases.any fun spec => spec.base == b && spec.isVirtual

/-- Whether no step of the path is virtual. -/
def isNonVirtual : ClassId → BasePath → Bool
  | _, [] => true
  | a, b :: rest => !h.isVirtualStep a b && isNonVirtual b rest

/-- No class that can be reached from `a` lists a direct base twice. -/
def DistinctBases (a : ClassId) : Prop :=
  ∀ d c, h.Reaches a d → h.classes.get? d = some c → (c.bases.map (·.base)).Nodup

/-- What tells sub-objects apart. -/
structure Locus where
  /-- Whether the sub-object is, or lies in, a shared virtual base. -/
  isShared : Bool
  /-- The path from its last virtual step on, or the whole path. -/
  path : BasePath
  deriving DecidableEq

/-- The locus of the sub-object that a path leads to: the path from its last virtual step on, or the whole path
    if no step is virtual. -/
def locus : ClassId → BasePath → Locus
  | _, [] => ⟨false, []⟩
  | a, b :: rest =>
    let inner := locus b rest
    if inner.isShared then inner else ⟨h.isVirtualStep a b, b :: rest⟩

variable {h}

theorem leads_nil_iff {a b : ClassId} : h.Leads a [] b ↔ a = b :=
  ⟨by rintro ⟨⟩; rfl, by rintro rfl; exact .nil a⟩

theorem leads_cons_iff {a b c : ClassId} {path : BasePath} :
    h.Leads a (b :: path) c ↔ h.DirectBase a b ∧ h.Leads b path c :=
  ⟨by rintro ⟨⟩; exact ⟨‹_›, ‹_›⟩, fun ⟨hb, hc⟩ => .cons hb hc⟩

theorem Leads.append {a b c : ClassId} {front back : BasePath} (hf : h.Leads a front b)
    (hb : h.Leads b back c) : h.Leads a (front ++ back) c := by
  induction hf with
  | nil => exact hb
  | cons hstep _ ih => exact .cons hstep (ih hb)

theorem Leads.reaches {a b : ClassId} {path : BasePath} (hl : h.Leads a path b) : h.Reaches a b := by
  induction hl with
  | nil => exact .refl
  | cons hstep _ ih => exact .head hstep ih

theorem isPath_singleton_iff {a b : ClassId} : h.IsPath a [b] ↔ h.DirectBase a b := by
  simp [IsPath, leads_cons_iff, leads_nil_iff]

theorem isPath_cons_iff {a b : ClassId} {path : BasePath} (hne : path ≠ []) :
    h.IsPath a (b :: path) ↔ h.DirectBase a b ∧ h.IsPath b path := by
  simp [IsPath, leads_cons_iff, hne]

theorem distinctBases_of_forall {a : ClassId}
    (hall : ∀ c ∈ h.classes.values, (c.bases.map (·.base)).Nodup) : h.DistinctBases a :=
  throughout_of_forall hall

theorem DistinctBases.base {a b : ClassId} (hd : h.DistinctBases a) (hb : h.Reaches a b) :
    h.DistinctBases b :=
  fun d c hr hc => hd d c (hb.trans hr) hc

/-! ## Loci -/

theorem locus_cons_shared {a b : ClassId} {rest : BasePath}
    (hs : (h.locus b rest).isShared = true) : h.locus a (b :: rest) = h.locus b rest := by
  simp [locus, hs]

theorem locus_cons {a b : ClassId} {rest : BasePath} (hs : (h.locus b rest).isShared = false) :
    h.locus a (b :: rest) = ⟨h.isVirtualStep a b, b :: rest⟩ := by
  simp [locus, hs]

theorem locus_singleton (a b : ClassId) : h.locus a [b] = ⟨h.isVirtualStep a b, [b]⟩ :=
  locus_cons rfl

/-- A path without virtual steps is its own locus. -/
theorem locus_of_not_shared {a : ClassId} {path : BasePath}
    (hs : (h.locus a path).isShared = false) : h.locus a path = ⟨false, path⟩ := by
  cases path with
  | nil => rfl
  | cons b rest =>
    cases hrest : (h.locus b rest).isShared with
    | true => rw [locus_cons_shared hrest, hrest] at hs; cases hs
    | false =>
      rw [locus_cons hrest] at hs ⊢
      exact congrArg (Locus.mk · _) hs

/-- The paths of a locus that is not shared. -/
theorem eq_of_locus {a : ClassId} {path back : BasePath} (hlocus : h.locus a path = ⟨false, back⟩) :
    path = back := by
  have hpath := hlocus.symm.trans (locus_of_not_shared (by rw [hlocus]))
  exact (congrArg Locus.path hpath).symm

theorem isShared_locus (a : ClassId) (path : BasePath) :
    (h.locus a path).isShared = !h.isNonVirtual a path := by
  induction path generalizing a with
  | nil => rfl
  | cons b rest ih =>
    cases hrest : (h.locus b rest).isShared with
    | true =>
      have hnot : h.isNonVirtual b rest = false := by simpa [hrest] using ih b
      simp [locus_cons_shared hrest, hrest, isNonVirtual, hnot]
    | false =>
      have hall : h.isNonVirtual b rest = true := by simpa [hrest] using ih b
      simp [locus_cons hrest, isNonVirtual, hall]

theorem getLast?_locus (a : ClassId) (path : BasePath) :
    (h.locus a path).path.getLast? = path.getLast? := by
  induction path generalizing a with
  | nil => rfl
  | cons b rest ih =>
    cases hrest : (h.locus b rest).isShared with
    | true =>
      have hne : rest ≠ [] := by
        rintro rfl
        simp [locus] at hrest
      rw [locus_cons_shared hrest, ih, List.getLast?_cons_of_ne_nil hne]
    | false => rw [locus_cons hrest]

theorem locus_nil_iff {a : ClassId} {path : BasePath} {s : Bool} :
    h.locus a path = ⟨s, []⟩ ↔ path = [] ∧ s = false := by
  induction path generalizing a with
  | nil => simp [locus, eq_comm]
  | cons b rest ih =>
    cases hrest : (h.locus b rest).isShared with
    | true =>
      rw [locus_cons_shared hrest, ih]
      simp only [reduceCtorEq, false_and, iff_false, not_and]
      rintro rfl rfl
      simp [locus] at hrest
    | false => simp [locus_cons hrest]

/-- Appending a path without virtual steps carries the locus along. -/
theorem locus_append {a b : ClassId} {front back : BasePath} (hf : h.Leads a front b)
    (hback : h.locus b back = ⟨false, back⟩) :
    h.locus a (front ++ back) = ⟨(h.locus a front).isShared, (h.locus a front).path ++ back⟩ := by
  induction hf with
  | nil => exact hback
  | @cons a b c front hstep hrest ih =>
    have hall := ih hback
    rw [List.cons_append]
    cases hfront : (h.locus b front).isShared with
    | true =>
      rw [hfront] at hall
      rw [locus_cons_shared (by rw [hall]), locus_cons_shared hfront, hall, hfront]
    | false =>
      rw [hfront] at hall
      rw [locus_cons (by rw [hall]), locus_cons hfront]
      rfl

/-- The paths with a locus that begins with `b` go to `b`, by a virtual step if they are shared, and on
    without virtual steps. -/
theorem locus_split {a b x : ClassId} {path back : BasePath} {s : Bool} (hl : h.Leads a path x)
    (hk : h.locus a path = ⟨s, b :: back⟩) :
    ∃ front, path = front ++ back ∧ h.Leads a front b ∧ front ≠ [] ∧
      h.locus a front = ⟨s, [b]⟩ ∧ h.Leads b back x ∧ h.locus b back = ⟨false, back⟩ := by
  induction hl with
  | nil => simp [locus] at hk
  | @cons a c x rest hstep hrest ih =>
    cases hs : (h.locus c rest).isShared with
    | true =>
      rw [locus_cons_shared hs] at hk
      obtain ⟨front, rfl, hfront, -, hlocus, hback, hback'⟩ := ih hk
      have hshared : (h.locus c front).isShared = true := by
        rw [hk] at hs
        rw [hlocus]
        exact hs
      exact ⟨c :: front, rfl, .cons hstep hfront, by simp,
        (locus_cons_shared hshared).trans hlocus, hback, hback'⟩
    | false =>
      rw [locus_cons hs] at hk
      injection hk with hvirtual hpath
      injection hpath with hcb hrestback
      subst hcb hrestback
      exact ⟨[c], rfl, .cons hstep (.nil c), by simp,
        by rw [locus_singleton, hvirtual], hrest, locus_of_not_shared hs⟩

/-! ## Virtual steps and the parts of a class -/

section
variable {id : ClassId} {c : ClassType} {parts : List BasePart}

theorem isVirtualStep_of_part (hc : h.classes.get? id = some c)
    (hspecs : parts.map (·.spec) = c.bases) {p : BasePart} (hp : p ∈ parts)
    (hv : p.spec.isVirtual = true) : h.isVirtualStep id p.spec.base = true := by
  have hmem : p.spec ∈ c.bases := hspecs ▸ List.mem_map_of_mem hp
  simp only [isVirtualStep, hc, Option.any_some, List.any_eq_true]
  exact ⟨p.spec, hmem, by simp [hv]⟩

theorem part_of_isVirtualStep (hc : h.classes.get? id = some c)
    (hspecs : parts.map (·.spec) = c.bases) {b : ClassId} (hv : h.isVirtualStep id b = true) :
    ∃ p ∈ parts, p.spec.base = b ∧ p.spec.isVirtual = true := by
  simp only [isVirtualStep, hc, Option.any_some, List.any_eq_true, Bool.and_eq_true,
    beq_iff_eq, ← hspecs, List.mem_map] at hv
  obtain ⟨_, ⟨p, hp, rfl⟩, hb, hvirtual⟩ := hv
  exact ⟨p, hp, hb, hvirtual⟩

/-- Where no direct base is listed twice, a step is virtual as the base is. -/
theorem isVirtualStep_eq (hc : h.classes.get? id = some c)
    (hspecs : parts.map (·.spec) = c.bases) (hdistinct : (c.bases.map (·.base)).Nodup)
    {p : BasePart} (hp : p ∈ parts) : h.isVirtualStep id p.spec.base = p.spec.isVirtual := by
  cases hv : h.isVirtualStep id p.spec.base with
  | true =>
    obtain ⟨p', hp', hbase, hvirtual⟩ := part_of_isVirtualStep hc hspecs hv
    have hspec : p'.spec = p.spec := by
      refine List.inj_on_of_nodup_map hdistinct ?_ ?_ hbase
      · exact hspecs ▸ List.mem_map_of_mem hp'
      · exact hspecs ▸ List.mem_map_of_mem hp
    rw [← hspec, hvirtual]
  | false =>
    cases hvirtual : p.spec.isVirtual with
    | true => rw [isVirtualStep_of_part hc hspecs hp hvirtual] at hv; cases hv
    | false => rfl

end

end Hierarchy

end ClassRecovery
