/-
  The order of the virtual bases.

  A depth-first walk follows the direct bases of a class in order of declaration, each before its own bases,
  and takes a virtual step whenever a base is virtual (`Hierarchy.virtualSteps`).  It knows no tables and
  meets a shared base as often as paths lead there.  The table of a class lists its virtual bases in the
  order in which this walk takes the first step to each (`Resolves.map_virtualBases`), although it puts
  together the lists of the direct bases, in which later steps are dropped already.
-/
import ClassRecovery.Proofs.Offsets.Outermost
import ClassRecovery.Proofs.Offsets.Soundness

namespace ClassRecovery

/-! ## The walk -/

/-- The virtual step to a direct base, if it is one. -/
def BaseSpec.virtualStep (s : BaseSpec) : List ClassId := if s.isVirtual then [s.base] else []

namespace Hierarchy

/-- The classes that a depth-first walk from `id` takes virtual steps to, as often as it does.  The walk
    turns back at the classes in `pending`, which it comes from: only classes that inherit from themselves
    lead there. -/
def virtualSteps (h : Hierarchy) (pending : List ClassId) (id : ClassId) : List ClassId :=
  if _hid : id ∈ pending then []
  else match _hc : h.classes.get? id with
    | none => []
    | some c => c.bases.flatMap fun spec =>
        spec.virtualStep ++ h.virtualSteps (id :: pending) spec.base
termination_by (h.idle pending).length
decreasing_by exact length_idle_cons_lt _hid (by rw [_hc]; rfl)

theorem virtualSteps_eq {h : Hierarchy} {pending : List ClassId} {id : ClassId} {c : ClassType}
    (hid : id ∉ pending) (hc : h.classes.get? id = some c) :
    h.virtualSteps pending id = c.bases.flatMap fun spec =>
      spec.virtualStep ++ h.virtualSteps (id :: pending) spec.base := by
  rw [virtualSteps, dif_neg hid]
  split
  · next hnone =>
    rw [hc] at hnone
    cases hnone
  · next c' hc' => rw [Option.some.inj (hc.symm.trans hc')]

end Hierarchy

/-! ## Virtual bases as they are met -/

namespace VirtualPaths

/-- The virtual bases that are known are those of `l`, each where it is met first. -/
def Notes (known : VirtualPaths) (l : List ClassId) : Prop := known.map (·.1) = l.eraseDups

variable {known : VirtualPaths} {l : List ClassId} {base : ClassId}

theorem keys_add_of_mem (h : base ∈ known.map (·.1)) (path : BasePath) :
    (add base path known).map (·.1) = known.map (·.1) := by
  induction known with
  | nil => cases h
  | cons e rest ih =>
    obtain ⟨b, paths⟩ := e
    simp only [add]
    split
    · rfl
    · next hb => rw [List.map_cons, List.map_cons, ih (List.mem_of_ne_of_mem (Ne.symm hb) h)]

theorem keys_add_of_notMem (h : base ∉ known.map (·.1)) (path : BasePath) :
    (add base path known).map (·.1) = known.map (·.1) ++ [base] := by
  induction known with
  | nil => rfl
  | cons e rest ih =>
    obtain ⟨b, paths⟩ := e
    simp only [List.map_cons, List.mem_cons, not_or] at h
    rw [add, if_neg (Ne.symm h.1), List.map_cons, List.map_cons, ih h.2, List.cons_append]

namespace Notes

theorem add (h : known.Notes l) (base : ClassId) (path : BasePath) :
    (VirtualPaths.add base path known).Notes (l ++ [base]) := by
  rw [Notes] at h ⊢
  by_cases hmem : base ∈ l
  · rw [keys_add_of_mem (by rwa [h, List.mem_eraseDups]), h, eraseDups_concat_of_mem hmem]
  · rw [keys_add_of_notMem (by rwa [h, List.mem_eraseDups]), h, eraseDups_concat_of_notMem hmem]

theorem addNew (h : known.Notes l) (base : ClassId) (path : BasePath) :
    (VirtualPaths.addNew base path known).Notes (l ++ [base]) := by
  unfold VirtualPaths.addNew
  split
  · next hknown =>
    obtain ⟨paths, hpaths, hp⟩ := (Option.any_eq_true ..).mp hknown
    obtain ⟨_, hmem, -⟩ := has_of_lookup hpaths (List.contains_iff_mem.mp hp)
    have hbase : base ∈ l := by
      rw [← List.mem_eraseDups, ← h]
      exact List.mem_map_of_mem hmem
    rw [Notes, eraseDups_concat_of_mem hbase, h]
  · exact h.add base path

theorem addPaths (h : known.Notes l) (base first : ClassId) {paths : List BasePath} (hne : paths ≠ []) :
    (paths.foldl (fun known path => VirtualPaths.addNew base (first :: path) known) known).Notes
      (l ++ [base]) := by
  induction paths generalizing known l with
  | nil => exact absurd rfl hne
  | cons path rest ih =>
    have hfirst := h.addNew base (first :: path)
    by_cases hrest : rest = []
    · subst hrest
      exact hfirst
    · have hall := ih hfirst hrest
      rw [Notes, eraseDups_concat_of_mem (List.mem_append_right l (List.mem_singleton_self base))] at hall
      exact hall

theorem addAll (h : known.Notes l) (first : ClassId) {entries : List BaseSubobject}
    (hpaths : ∀ s ∈ entries, s.paths ≠ []) :
    (entries.foldl (fun known s => s.paths.foldl
      (fun known path => VirtualPaths.addNew s.base (first :: path) known) known) known).Notes
      (l ++ entries.map (·.base)) := by
  induction entries generalizing known l with
  | nil => rwa [List.map_nil, List.append_nil]
  | cons s rest ih =>
    simp only [List.mem_cons, forall_eq_or_imp] at hpaths
    have hrest := ih (h.addPaths s.base first hpaths.1) hpaths.2
    rwa [List.append_assoc] at hrest

theorem addPart (h : known.Notes l) {p : BasePart}
    (hpaths : ∀ s ∈ p.table.virtualBases, s.paths ≠ []) :
    (known.addPart p).Notes (l ++ (p.spec.virtualStep ++ p.table.virtualBases.map (·.base))) := by
  rw [← List.append_assoc]
  refine addAll ?_ _ hpaths
  rw [BaseSpec.virtualStep]
  split
  · exact h.add _ _
  · rwa [List.append_nil]

end Notes

/-- The virtual bases of a class are met one direct base after the other: first the base itself, where it is
    virtual, and then its own. -/
theorem notes_ofParts {parts : List BasePart}
    (hpaths : ∀ p ∈ parts, ∀ s ∈ p.table.virtualBases, s.paths ≠ []) :
    (ofParts parts).Notes
      (parts.flatMap fun p => p.spec.virtualStep ++ p.table.virtualBases.map (·.base)) := by
  suffices ∀ (known : VirtualPaths) (l : List ClassId), known.Notes l →
      (parts.foldl addPart known).Notes
        (l ++ parts.flatMap fun p => p.spec.virtualStep ++ p.table.virtualBases.map (·.base)) from
    this [] [] rfl
  induction parts with
  | nil => exact fun known l h => by rwa [List.flatMap_nil, List.append_nil]
  | cons p rest ih =>
    intro known l h
    simp only [List.mem_cons, forall_eq_or_imp] at hpaths
    have hrest := ih hpaths.2 _ _ (h.addPart hpaths.1)
    rwa [List.append_assoc] at hrest

end VirtualPaths

/-! ## The virtual bases of a table -/

section
variable {h : Hierarchy} {id : ClassId} {t : BaseOffsetTable}

/-- **The virtual bases of a table** are in the order in which the walk takes the first step to each. -/
theorem Resolves.map_virtualBases (hr : Resolves h id t) {pending : List ClassId}
    (hp : Pending h pending id) :
    t.virtualBases.map (·.base) = (h.virtualSteps pending id).eraseDups := by
  revert hp pending
  refine hr.inherits_induction (P := fun id t => ∀ {pending : List ClassId}, Pending h pending id →
    t.virtualBases.map (·.base) = (h.virtualSteps pending id).eraseDups) ?_
  intro id t hr ih pending hp
  obtain ⟨c, parts, _, _, _, ha⟩ := hr.assembled
  have hid : id ∉ pending := fun hmem => hr.not_inherits_self (hp id hmem)
  have hnotes : (VirtualPaths.ofParts parts).Notes _ :=
    VirtualPaths.notes_ofParts fun p hpart => (ha.parts_resolved p hpart).paths_ne_nil
  rw [ha.map_virtualBases, hnotes, Hierarchy.virtualSteps_eq hid ha.defined, ← ha.specs, List.flatMap_map]
  refine eraseDups_flatMap_congr fun p hpart => eraseDups_append_congr rfl ?_
  have hstep := directBase_of_part ha.defined ha.specs hpart
  rw [ih _ _ (.single hstep) (ha.parts_resolved p hpart) (hp.cons hstep)]
  exact eraseDups_of_nodup (nodup_eraseDups _)

/-- Below a class with a table, the walk never comes back to where it is from. -/
theorem Resolves.virtualSteps_pending (hr : Resolves h id t) {pending : List ClassId}
    (hp : Pending h pending id) : h.virtualSteps pending id = h.virtualSteps [] id := by
  revert hp pending
  refine hr.inherits_induction (P := fun id _ => ∀ {pending : List ClassId}, Pending h pending id →
    h.virtualSteps pending id = h.virtualSteps [] id) ?_
  intro id t hr ih pending hp
  obtain ⟨c, parts, _, _, _, ha⟩ := hr.assembled
  have hid : id ∉ pending := fun hmem => hr.not_inherits_self (hp id hmem)
  rw [Hierarchy.virtualSteps_eq hid ha.defined, Hierarchy.virtualSteps_eq List.not_mem_nil ha.defined,
    ← ha.specs, List.flatMap_map, List.flatMap_map]
  refine List.flatMap_congr fun p hpart => ?_
  have hstep := directBase_of_part ha.defined ha.specs hpart
  have hbelow {pending : List ClassId} (hp : Pending h pending p.spec.base) :
      h.virtualSteps pending p.spec.base = h.virtualSteps [] p.spec.base :=
    ih _ _ (.single hstep) (ha.parts_resolved p hpart) hp
  rw [hbelow (hp.cons hstep), hbelow ((Pending.nil id).cons hstep)]

/-- The walk from a class with a table goes through its direct bases, one after the other. -/
theorem Resolves.virtualSteps_eq {c : ClassType} (hr : Resolves h id t)
    (hc : h.classes.get? id = some c) :
    h.virtualSteps [] id = c.bases.flatMap fun spec => spec.virtualStep ++ h.virtualSteps [] spec.base := by
  rw [Hierarchy.virtualSteps_eq List.not_mem_nil hc]
  refine List.flatMap_congr fun spec hspec => ?_
  have hstep : h.DirectBase id spec.base := ⟨c, hc, spec, hspec, rfl⟩
  obtain ⟨tb, hb⟩ := hr.of_directBase hstep
  rw [hb.virtualSteps_pending ((Pending.nil id).cons hstep)]

end

end ClassRecovery
