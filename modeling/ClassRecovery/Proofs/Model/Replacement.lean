/-
  Layouts of replaced classes.

  Replacing a class drops the offset tables, but not the layouts: the layout that was built for the old class stays
  registered under its name, and the layout of the new one is composed on top of it (`ClassModel.buildLayout_stale`).
  No other trace is left.  If whatever was registered under the names of a class and its bases is `Current`, that is,
  if it was registered when the classes were what they are now, then building the class gives the layout
  that it gives in a new model with the same classes and type names (`ClassModel.buildLayout_anew`).
-/
import ClassRecovery.Proofs.Model.Genuine
import Mathlib.Data.List.Induction

namespace ClassRecovery

/-- Only classes of a list are reached from one of them, if their bases are in the list, too. -/
theorem Hierarchy.mem_of_reaches {h : Hierarchy} {ids : List ClassId} {a b : ClassId} (ha : a ∈ ids)
    (hclosed : ∀ e ∈ h.classes.entries, e.1 ∈ ids → ∀ spec ∈ e.2.bases, spec.base ∈ ids)
    (hb : h.Reaches a b) : b ∈ ids := by
  induction hb with
  | refl => exact ha
  | tail _ hstep ih =>
    obtain ⟨c, hc, spec, hspec, rfl⟩ := hstep
    exact hclosed (_, c) (OrderedMap.get?_eq_some_iff.mp hc) ih spec hspec

namespace ClassModel

/-! ## Models that agree below a class -/

/-- The class, and all classes that it leads to, are the same in both models, and are called the same. -/
structure AgreeBelow (m m' : ClassModel) (id : ClassId) : Prop where
  abi : m.abi = m'.abi
  pointerSize : m.pointerSize = m'.pointerSize
  classes : ∀ d, m.hierarchy.Reaches id d → m.get? d = m'.get? d
  typeNames : ∀ d, m.hierarchy.Reaches id d → m.typeName? d = m'.typeName? d

namespace AgreeBelow

variable {m m' : ClassModel} {id : ClassId} (hagree : AgreeBelow m m' id)
include hagree

theorem base {b : ClassId} (hb : m.hierarchy.Reaches id b) : AgreeBelow m m' b :=
  ⟨hagree.abi, hagree.pointerSize, fun d hd => hagree.classes d (hb.trans hd),
    fun d hd => hagree.typeNames d (hb.trans hd)⟩

theorem reaches_iff {d : ClassId} : m'.hierarchy.Reaches id d ↔ m.hierarchy.Reaches id d := by
  constructor
  · intro hd
    induction hd with
    | refl => exact .refl
    | tail _ hstep ih =>
      obtain ⟨c, hc, hspec⟩ := hstep
      exact ih.tail ⟨c, (hagree.classes _ ih).trans hc, hspec⟩
  · intro hd
    induction hd with
    | refl => exact .refl
    | tail hd hstep ih =>
      obtain ⟨c, hc, hspec⟩ := hstep
      exact ih.tail ⟨c, (hagree.classes _ hd).symm.trans hc, hspec⟩

theorem symm : AgreeBelow m' m id :=
  ⟨hagree.abi.symm, hagree.pointerSize.symm, fun d hd => (hagree.classes d (hagree.reaches_iff.mp hd)).symm,
    fun d hd => (hagree.typeNames d (hagree.reaches_iff.mp hd)).symm⟩

theorem resolves {t : BaseOffsetTable} (hr : Resolves m.hierarchy id t) : Resolves m'.hierarchy id t :=
  hr.congr hagree.abi hagree.pointerSize hagree.classes

theorem embeds {s : BaseSubobject} {b : EmbeddedBase} (hs : m.hierarchy.Reaches id s.base)
    (hb : Embeds m.hierarchy m.typeNames s b) : Embeds m'.hierarchy m'.typeNames s b := by
  obtain ⟨typeName, t, hname, ht, rfl⟩ := hb
  exact ⟨typeName, t, (hagree.typeNames s.base hs).symm.trans hname, (hagree.base hs).resolves ht, rfl⟩

theorem composes {typeName : String} {comp : Composition}
    (hcomp : Composes m.hierarchy m.typeNames id typeName comp) :
    Composes m'.hierarchy m'.typeNames id typeName comp := by
  obtain @⟨c, t, direct, shared, _, hc, hname, ht, hdirect, hshared, hcomposed⟩ := hcomp
  have embeds : ∀ s ∈ t.outermost, ∀ b, Embeds m.hierarchy m.typeNames s b →
      Embeds m'.hierarchy m'.typeNames s b := fun s hs b =>
    hagree.embeds (ht.inherits_of_mem s (BaseOffsetTable.mem_entries_of_outermost hs)).to_reflTransGen
  obtain ⟨hdirect', hshared'⟩ := List.forall_mem_append.mp embeds
  refine .mk ((hagree.classes id .refl).symm.trans hc) ((hagree.typeNames id .refl).symm.trans hname)
    (hagree.resolves ht) (forall₂_imp_mem hdirect hdirect') (forall₂_imp_mem hshared hshared') ?_
  rw [← hcomposed]
  exact congrArg₂ (fun abi pointerSize => (new abi pointerSize).compose c typeName t direct shared)
    hagree.abi.symm hagree.pointerSize.symm

theorem laysOut (hlays : LaysOut m.hierarchy m.typeNames id) : LaysOut m'.hierarchy m'.typeNames id := by
  induction hlays with
  | @mk id typeName t comp ht _ _ hcomp ihdirect ihshared =>
    have base : ∀ s ∈ t.outermost, AgreeBelow m m' s.base := fun s hs =>
      hagree.base (ht.inherits_of_mem s (BaseOffsetTable.mem_entries_of_outermost hs)).to_reflTransGen
    obtain ⟨hdirect, hshared⟩ := List.forall_mem_append.mp base
    exact .mk (hagree.resolves ht) (fun s hs => ihdirect s hs (hdirect s hs))
      (fun s hs => ihshared s hs (hshared s hs)) (hagree.composes hcomp)

/-- What is registered is genuine in both models. -/
theorem genuineAt {types : TypeDatabase} (hgen : GenuineAt m.hierarchy m.typeNames types id) :
    GenuineAt m'.hierarchy m'.typeNames types id := by
  intro name l hname
  obtain ⟨hfull, hpart⟩ := hgen name l ((hagree.typeNames id .refl).trans hname)
  refine ⟨fun hl => ?_, fun hl => ?_⟩
  · obtain ⟨hlays, comp, hcomp, hl⟩ := hfull hl
    exact ⟨hagree.laysOut hlays, comp, hagree.composes hcomp, hl⟩
  · obtain ⟨hlays, comp, hcomp, hl⟩ := hpart hl
    exact ⟨hagree.laysOut hlays, comp, hagree.composes hcomp, hl⟩

end AgreeBelow

/-! ## What was registered by an operation -/

/-- An operation registers nothing but a given layout, or what comes of building a class. -/
theorem Shows.types_apply {m : ClassModel} (hm : Shows m.hierarchy m.typeNames m) {op : Operation}
    (hop : ∀ l, op ≠ .registerLayout l) :
    (m.apply op).types = m.types ∨
      ∃ e r, BuildResult m.hierarchy m.typeNames e m.types r (m.apply op).types := by
  have built (a : ClassId) : ∃ e r,
      BuildResult m.hierarchy m.typeNames e m.types r (buildWithin (m.size + 1) a m).value.2.types :=
    ⟨a, _, (buildWithin_result (m.size + 1) a m hm).result⟩
  cases op with
  | buildLayout a => exact .inr (built a)
  | ensureLayout a =>
    change (ensureWith (buildWithin (m.size + 1)) a m).value.2.types = m.types ∨
      ∃ e r, BuildResult m.hierarchy m.typeNames e m.types r
        (ensureWith (buildWithin (m.size + 1)) a m).value.2.types
    unfold ensureWith
    split
    · exact .inl rfl
    · exact .inr (built a)
  | registerLayout l => exact absurd rfl (hop l)
  | insert | offsetTable | setState | setInterrupted | markAnalyzed | record => exact .inl rfl

/-- **An operation keeps what is registered genuine** below a class. -/
theorem Shows.genuine_apply {m : ClassModel} (hm : Shows m.hierarchy m.typeNames m) {op : Operation}
    (hnames : Distinct m.typeNames) (hop : ∀ l, op ≠ .registerLayout l) {root : ClassId}
    (hgen : Genuine m.hierarchy m.typeNames root m.types) :
    Genuine m.hierarchy m.typeNames root (m.apply op).types := by
  obtain hsame | ⟨a, r, hresult⟩ := hm.types_apply hop
  · rwa [hsame]
  · exact hgen.built hnames hm.keyed hresult

/-! ## Current layouts -/

/-- The layouts that are registered under a name and under its marked name are the same. -/
def SameLayouts (types types' : TypeDatabase) (name : String) : Prop :=
  types'.get? name = types.get? name ∧ types'.get? (nonVirtualName name) = types.get? (nonVirtualName name)

/-- Whenever something was registered under a name of the class `id` or of a base, that class and its bases were what
    they are after all the operations. -/
def Current (abi : Abi) (pointerSize : Word) (ops : List Operation) (id : ClassId) : Prop :=
  let now := reached abi pointerSize ops
  ∀ front op d name, front ++ [op] <+: ops → now.hierarchy.Reaches id d → now.typeName? d = some name →
    let before := reached abi pointerSize front
    SameLayouts before.types (before.apply op).types name ∨ AgreeBelow now before d

/-- No type name is another one with the mark of non-virtual parts, at any time. -/
def AlwaysUnmarked (abi : Abi) (pointerSize : Word) (ops : List Operation) : Prop :=
  ∀ front a b name, front <+: ops → (reached abi pointerSize front).typeName? a = some name →
    (reached abi pointerSize front).typeName? b ≠ some (nonVirtualName name)

theorem reached_append (abi : Abi) (pointerSize : Word) (ops ops' : List Operation) :
    reached abi pointerSize (ops ++ ops') = (reached abi pointerSize ops).applyAll ops' :=
  List.foldl_append

section
variable {abi : Abi} {pointerSize : Word} {ops : List Operation} {id : ClassId}

theorem AlwaysUnmarked.distinct (hunmarked : AlwaysUnmarked abi pointerSize ops) {front : List Operation}
    (hfront : front <+: ops) : Distinct (reached abi pointerSize front).typeNames :=
  ⟨fun _ _ _ => (named_reached abi pointerSize front).injective, fun a b name => hunmarked front a b name hfront⟩

/-- **Current layouts are genuine**, after every operation. -/
theorem Current.genuine (hcurrent : Current abi pointerSize ops id)
    (hregister : ∀ l, .registerLayout l ∉ ops) (hunmarked : AlwaysUnmarked abi pointerSize ops) :
    let now := reached abi pointerSize ops
    ∀ front, front <+: ops → Genuine now.hierarchy now.typeNames id (reached abi pointerSize front).types := by
  intro now front
  induction front using List.reverseRecOn with
  | nil => exact fun _ d _ name l _ => ⟨fun hl => (nomatch hl), fun hl => (nomatch hl)⟩
  | append_singleton front op ih =>
    intro hbegin d hd
    have hfront : front <+: ops := (List.prefix_append front [op]).trans hbegin
    have hop (l : Layout) : op ≠ .registerLayout l := by
      rintro rfl
      exact hregister l (hbegin.subset (by simp))
    have hgen := ih hfront
    rw [reached_append]
    change GenuineAt _ _ ((reached abi pointerSize front).apply op).types d
    generalize hbefore : reached abi pointerSize front = before at hgen
    have hm : Shows before.hierarchy before.typeNames before := hbefore ▸ shows_reached abi pointerSize front
    have hnames : Distinct before.typeNames := hbefore ▸ hunmarked.distinct hfront
    cases hname : now.typeName? d with
    | none => exact fun name l hname' => nomatch hname.symm.trans hname'
    | some name =>
      have hsame := hcurrent front op d name hbegin hd hname
      rw [hbefore] at hsame
      rcases hsame with hsame | hagree
      · refine (hgen d hd).of_get?_eq fun name' hname' => ?_
        obtain rfl := Option.some.inj (hname.symm.trans hname')
        exact hsame
      · -- below `d` the classes were those of now, so what was genuine is genuine, there and back
        have hthere : Genuine before.hierarchy before.typeNames d before.types := fun e he =>
          have he : now.hierarchy.Reaches d e := hagree.reaches_iff.mp he
          (hagree.base he).genuineAt (hgen e (hd.trans he))
        exact hagree.symm.genuineAt (hm.genuine_apply hnames hop hthere d .refl)

end

/-! ## Classes that are settled before anything is built -/

/-- Whether the operation may register layouts. -/
def Operation.registers : Operation → Bool
  | .buildLayout _ | .ensureLayout _ | .registerLayout _ => true
  | .insert _ | .offsetTable _ | .setState .. | .setInterrupted .. | .markAnalyzed .. | .record _ => false

/-- The class that the operation inserts or replaces. -/
def Operation.inserted? : Operation → Option ClassId
  | .insert c => some c.id
  | _ => none

theorem types_apply_of_not_registers (m : ClassModel) {op : Operation} (hop : op.registers = false) :
    (m.apply op).types = m.types := by
  cases op with
  | buildLayout | ensureLayout | registerLayout => cases hop
  | insert | offsetTable | setState | setInterrupted | markAnalyzed | record => rfl

/-- Operations leave a class and its type name as they are, unless they insert that very class. -/
theorem get?_apply_of_ne (m : ClassModel) {op : Operation} {d : ClassId} (hop : op.inserted? ≠ some d) :
    (m.apply op).get? d = m.get? d ∧ (m.apply op).typeName? d = m.typeName? d := by
  rcases m.apply_cases op with ⟨c, rfl⟩ | ⟨hhierarchy, htypeNames, -⟩
  · have hne : d ≠ c.id := fun heq => hop (congrArg some heq.symm)
    exact ⟨(get?_insert m c d).trans (if_neg hne), (typeName?_insert m c d).trans (if_neg hne)⟩
  · exact ⟨congrArg (·.classes.get? d) hhierarchy, congrArg (·.get? d) htypeNames⟩

theorem get?_applyAll_of_ne (m : ClassModel) {ops : List Operation} {d : ClassId}
    (hops : ∀ op ∈ ops, op.inserted? ≠ some d) :
    (m.applyAll ops).get? d = m.get? d ∧ (m.applyAll ops).typeName? d = m.typeName? d := by
  induction ops generalizing m with
  | nil => exact ⟨rfl, rfl⟩
  | cons op ops ih =>
    obtain ⟨hop, hops⟩ := List.forall_mem_cons.mp hops
    obtain ⟨hclass, hname⟩ := get?_apply_of_ne m hop
    obtain ⟨hclass', hname'⟩ := ih (m.apply op) hops
    exact ⟨hclass'.trans hclass, hname'.trans hname⟩

/-- Below a class of which nothing is inserted later, the classes are later what they are now. -/
theorem agreeBelow_of_not_inserted {abi : Abi} {pointerSize : Word} {front rest : List Operation} {d : ClassId}
    (hrest : ∀ e, (reached abi pointerSize (front ++ rest)).hierarchy.Reaches d e →
      ∀ op ∈ rest, op.inserted? ≠ some e) :
    AgreeBelow (reached abi pointerSize (front ++ rest)) (reached abi pointerSize front) d where
  abi := (parameters_reached ..).1.trans (parameters_reached ..).1.symm
  pointerSize := (parameters_reached ..).2.trans (parameters_reached ..).2.symm
  classes e he := by
    rw [reached_append]
    exact (get?_applyAll_of_ne _ (hrest e he)).1
  typeNames e he := by
    rw [reached_append]
    exact (get?_applyAll_of_ne _ (hrest e he)).2

/-- **Layouts are current if the classes are settled before anything is built**: of the class and its bases, none is
    inserted after an operation that registers layouts. -/
theorem current_of_pairwise {abi : Abi} {pointerSize : Word} {ops : List Operation} {id : ClassId}
    (ids : List ClassId) (hid : id ∈ ids)
    (hclosed : ∀ e ∈ (reached abi pointerSize ops).classes.entries, e.1 ∈ ids →
      ∀ spec ∈ e.2.bases, spec.base ∈ ids)
    (hops : ops.Pairwise fun op op' => op.registers = true → op'.inserted?.all (· ∉ ids) = true) :
    Current abi pointerSize ops id := by
  rintro front op d name ⟨rest, rfl⟩ hd -
  cases hregisters : op.registers with
  | false =>
    have htypes := types_apply_of_not_registers (reached abi pointerSize front) hregisters
    exact .inl ⟨congrArg (·.get? name) htypes, congrArg (·.get? (nonVirtualName name)) htypes⟩
  | true =>
    rw [List.append_assoc, List.singleton_append] at hops hclosed hd ⊢
    have hrest := (List.pairwise_cons.mp (List.pairwise_append.mp hops).2.1).1
    have hop (e : ClassId) : op.inserted? ≠ some e := by
      cases op with
      | insert => cases hregisters
      | _ => simp [Operation.inserted?]
    refine .inr (agreeBelow_of_not_inserted fun e he => List.forall_mem_cons.mpr ⟨hop e, fun op' hop' heq => ?_⟩)
    have hsettled := hrest op' hop' hregisters
    rw [heq, Option.all_some, decide_eq_true_eq] at hsettled
    exact hsettled (Hierarchy.mem_of_reaches hid hclosed (hd.trans he))

/-- Names can be checked after each operation. -/
theorem alwaysUnmarked_of_forall {abi : Abi} {pointerSize : Word} {ops : List Operation}
    (hall : ∀ i < ops.length + 1, ∀ e ∈ (reached abi pointerSize (ops.take i)).typeNames.entries,
      ∀ e' ∈ (reached abi pointerSize (ops.take i)).typeNames.entries, e'.2 ≠ nonVirtualName e.2) :
    AlwaysUnmarked abi pointerSize ops := by
  intro front a b name hfront
  have htake : ops.take front.length = front := (List.prefix_iff_eq_take.mp hfront).symm
  have hunmarked := hall front.length (Nat.lt_succ_of_le hfront.length_le)
  rw [htake] at hunmarked
  exact unmarked_of_forall hunmarked a b name

/-! ## New models with the same classes -/

/-- The new model with the same classes, under the same type names. -/
def anew (m : ClassModel) : ClassModel where
  abi := m.abi
  pointerSize := m.pointerSize
  classes := m.classes
  typeNames := m.typeNames
  byTypeName := m.byTypeName

theorem Coherent.describes_anew {m : ClassModel} (hm : m.Coherent) :
    Describes m.hierarchy m.typeNames m.anew where
  coherent := hm.of_hierarchy rfl (.nil _)
  hierarchy := rfl
  typeNames := rfl
  registered := ⟨fun _ _ hl => (nomatch hl), fun _ _ _ _ hcontains => (nomatch hcontains)⟩

/-- **A class is built as in a new model** with the same classes and type names, if no layout was registered by hand
    and whatever was registered under the names of the class and its bases is current. -/
theorem buildLayout_anew (abi : Abi) (pointerSize : Word) (ops : List Operation) (id : ClassId)
    (hregister : ∀ l, .registerLayout l ∉ ops) (hunmarked : AlwaysUnmarked abi pointerSize ops)
    (hcurrent : Current abi pointerSize ops id) :
    ((reached abi pointerSize ops).buildLayout id).value.1 =
      ((reached abi pointerSize ops).anew.buildLayout id).value.1 :=
  Genuine.buildLayout_eq (hunmarked.distinct (List.prefix_refl ops)) (shows_reached abi pointerSize ops)
    (hcurrent.genuine hregister hunmarked ops (List.prefix_refl ops))
    (coherent_reached abi pointerSize ops).describes_anew

/-- A base is replaced before it is built, and another class after it was built. -/
theorem buildLayout_anew_replaced :
    let base : ClassType := { id := 1, name := "Base", memberSize := 16 }
    let other : ClassType := { id := 3, name := "Other", memberSize := 16 }
    let ops : List Operation :=
      [.insert base, .insert { base with memberSize := 4 },
        .insert { id := 2, name := "Derived", bases := [⟨1, true, true, none⟩], memberSize := 8 },
        .insert other, .buildLayout 3, .buildLayout 2, .insert { other with memberSize := 4 }]
    ((reached .itanium 8 ops).buildLayout 2).value.1 = ((reached .itanium 8 ops).anew.buildLayout 2).value.1 := by
  intro base other ops
  have hregister (l : Layout) : .registerLayout l ∉ ops := by simp [ops]
  have hunmarked : AlwaysUnmarked .itanium 8 ops := alwaysUnmarked_of_forall (by decide +kernel)
  have hcurrent : Current .itanium 8 ops 2 :=
    current_of_pairwise [2, 1] (by decide) (by decide +kernel) (by decide +kernel)
  exact buildLayout_anew .itanium 8 ops 2 hregister hunmarked hcurrent

/-- A class is replaced by a smaller one after it was built: it keeps the members of the old one, and its size. -/
theorem buildLayout_stale :
    let base : ClassType := { id := 1, name := "Base", memberSize := 16 }
    let ops : List Operation := [.insert base, .buildLayout 1, .insert { base with memberSize := 4 }]
    let m := reached .itanium 8 ops
    (∀ l, .registerLayout l ∉ ops) ∧ AlwaysUnmarked .itanium 8 ops ∧
      (m.buildLayout 1).value.1 = .ok ⟨"Base", [.undefined 0 16], 16, 1⟩ ∧
      (m.anew.buildLayout 1).value.1 = .ok ⟨"Base", [.undefined 0 4], 4, 1⟩ := by
  intro base ops m
  refine ⟨by simp [ops], alwaysUnmarked_of_forall (by decide +kernel), ?_, ?_⟩
  · decide +kernel
  · decide +kernel

end ClassModel

end ClassRecovery
