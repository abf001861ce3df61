/-
  What attribution leaves behind.

  A ledger holds the recorded functions and the progress of the classes.  The plan of a class says what
  attributing it comes to: nothing, a rejection, or trials of candidates in a certain order.
  `Ledger.finishClass` is the outcome for one class without any interruption, and takes up what an earlier
  run left.  `Ledger.complete` is that for all classes: every one of them is settled
  (`Ledger.settled_complete`), and settled classes are not touched again (`Ledger.complete_of_settled`).
-/
import ClassRecovery.Attribution.Run
import ClassRecovery.Proofs.OrderedMap

namespace ClassRecovery

/-- The recorded functions, and the progress of the classes. -/
structure Ledger where
  attributed : OrderedMap Address AttributedFunction
  progress : OrderedMap ClassId Progress

def ClassModel.ledger (m : ClassModel) : Ledger := ⟨m.attributed, m.progress⟩

/-- A candidate, and what is recorded if it is accepted. -/
structure Trial where
  function : Address
  records : Option (List AttributedFunction)

/-- What attributing a class comes to. -/
inductive ClassPlan where
  /-- The class cannot be analysed. -/
  | skipped
  /-- The class has no offset table. -/
  | untabled
  | trials (trials : List Trial)

namespace Ledger

/-! ## Finishing classes -/

def progressOf (l : Ledger) (id : ClassId) : Progress := (l.progress.get? id).getD {}

/-- Records functions one after the other. -/
def recordAll (l : Ledger) (functions : List AttributedFunction) : Ledger :=
  { l with attributed := functions.foldl (fun a f => a.insert f.function f) l.attributed }

/-- The trials that were not made yet. -/
def left (analyzed : OrderedSet Address) (trials : List Trial) : List Trial :=
  trials.filter fun t => !analyzed.contains t.function

/-- Makes trials and closes the class; `accepted` says whether some candidate was accepted before. -/
def conclude (l : Ledger) (id : ClassId) (accepted : Bool) (trials : List Trial) : Ledger where
  attributed := (l.recordAll (trials.flatMap (·.records.getD []))).attributed
  progress := l.progress.insert id
    { state := if accepted || trials.any (·.records.isSome) then .attributed else .rejected }

/-- Attributes a class without interruption. -/
def finishClass (l : Ledger) (id : ClassId) (plan : ClassPlan) : Ledger :=
  let p := l.progressOf id
  if p.isOpen then
    match plan with
    | .skipped => l
    | .untabled => { l with progress := l.progress.insert id { p with state := .rejected } }
    | .trials trials => l.conclude id p.interrupted (left p.analyzed trials)
  else l

/-- Attributes classes without interruption. -/
def complete (plan : ClassId → ClassPlan) (l : Ledger) (ids : List ClassId) : Ledger :=
  ids.foldl (fun l id => l.finishClass id (plan id)) l

/-- Nothing is left to do for the class. -/
def Settled (plan : ClassId → ClassPlan) (l : Ledger) (id : ClassId) : Prop :=
  plan id = .skipped ∨ (l.progressOf id).isOpen = false

/-- Only interrupted classes remember their candidates. -/
def Tidy (l : Ledger) : Prop :=
  ∀ id, (l.progressOf id).interrupted = false → (l.progressOf id).analyzed = .empty

/-! ## Settled classes -/

section
variable {plan : ClassId → ClassPlan} {l l' : Ledger} {id : ClassId}

theorem finishClass_of_isOpen (h : (l.progressOf id).isOpen = true) (plan : ClassPlan) :
    l.finishClass id plan =
      match plan with
      | .skipped => l
      | .untabled =>
        { l with progress := l.progress.insert id { l.progressOf id with state := .rejected } }
      | .trials trials =>
        l.conclude id (l.progressOf id).interrupted (left (l.progressOf id).analyzed trials) :=
  if_pos h

theorem finishClass_of_closed (h : (l.progressOf id).isOpen = false) (plan : ClassPlan) :
    l.finishClass id plan = l := if_neg (by simp [h])

theorem Settled.finishClass_eq (h : l.Settled plan id) : l.finishClass id (plan id) = l := by
  cases hopen : (l.progressOf id).isOpen with
  | false => exact finishClass_of_closed hopen _
  | true =>
    rcases h with h | h
    · rw [finishClass_of_isOpen hopen, h]
    · rw [h] at hopen
      cases hopen

theorem Settled.congr (h : l.Settled plan id) (hsame : l'.progress.get? id = l.progress.get? id) :
    l'.Settled plan id := by
  rcases h with h | h
  · exact .inl h
  · refine .inr ?_
    rwa [progressOf, hsame]

theorem progressOf_insert (a : OrderedMap Address AttributedFunction)
    (progress : OrderedMap ClassId Progress) (id : ClassId) (p : Progress) :
    Ledger.progressOf ⟨a, progress.insert id p⟩ id = p := by
  simp [progressOf, OrderedMap.get?_insert_self]

/-- **A finished class is settled.** -/
theorem settled_finishClass (plan : ClassId → ClassPlan) (l : Ledger) (id : ClassId) :
    (l.finishClass id (plan id)).Settled plan id := by
  cases hopen : (l.progressOf id).isOpen with
  | false =>
    rw [finishClass_of_closed hopen]
    exact .inr hopen
  | true =>
    rw [finishClass_of_isOpen hopen]
    cases hplan : plan id with
    | skipped => exact .inl hplan
    | untabled =>
      refine .inr ?_
      rw [progressOf_insert]
      rfl
    | trials trials =>
      refine .inr ?_
      simp only [conclude, progressOf_insert]
      split <;> rfl

/-- Finishing a class does not touch the progress of others. -/
theorem get?_finishClass (l : Ledger) (plan : ClassPlan) {id id' : ClassId} (hne : id' ≠ id) :
    (l.finishClass id plan).progress.get? id' = l.progress.get? id' := by
  cases hopen : (l.progressOf id).isOpen with
  | false => rw [finishClass_of_closed hopen]
  | true =>
    rw [finishClass_of_isOpen hopen]
    cases plan with
    | skipped => rfl
    | untabled | trials => exact OrderedMap.get?_insert_of_ne _ _ hne

theorem Settled.finishClass (h : l.Settled plan id) (id' : ClassId) :
    (l.finishClass id' (plan id')).Settled plan id := by
  by_cases hid : id = id'
  · subst hid
    exact settled_finishClass plan l id
  · exact h.congr (get?_finishClass l (plan id') hid)

theorem Tidy.finishClass (h : l.Tidy) (id : ClassId) (plan : ClassPlan) :
    (l.finishClass id plan).Tidy := by
  intro id' hid'
  by_cases hne : id' = id
  · subst hne
    cases hopen : (l.progressOf id').isOpen with
    | false =>
      rw [finishClass_of_closed hopen] at hid' ⊢
      exact h id' hid'
    | true =>
      rw [finishClass_of_isOpen hopen] at hid' ⊢
      cases plan with
      | skipped => exact h id' hid'
      | untabled =>
        simp only [progressOf_insert] at hid' ⊢
        exact h id' hid'
      | trials trials => simp only [conclude, progressOf_insert]
  · have hsame : (l.finishClass id plan).progressOf id' = l.progressOf id' := by
      rw [progressOf, get?_finishClass l plan hne, progressOf]
    rw [hsame] at hid' ⊢
    exact h id' hid'

/-! ## All classes -/

theorem complete_cons (plan : ClassId → ClassPlan) (l : Ledger) (id : ClassId) (ids : List ClassId) :
    l.complete plan (id :: ids) = (l.finishClass id (plan id)).complete plan ids := rfl

/-- Completing settled classes changes nothing. -/
theorem complete_of_settled {ids : List ClassId} (h : ∀ id ∈ ids, l.Settled plan id) :
    l.complete plan ids = l := by
  induction ids with
  | nil => rfl
  | cons id ids ih =>
    simp only [List.mem_cons, forall_eq_or_imp] at h
    rw [complete_cons, h.1.finishClass_eq, ih h.2]

/-- Settled classes stay settled. -/
theorem Settled.complete (h : l.Settled plan id) (ids : List ClassId) :
    (l.complete plan ids).Settled plan id := by
  induction ids generalizing l with
  | nil => exact h
  | cons id' ids ih => exact ih (h.finishClass id')

/-- **All completed classes are settled.** -/
theorem settled_complete (plan : ClassId → ClassPlan) (l : Ledger) (ids : List ClassId) :
    ∀ id ∈ ids, (l.complete plan ids).Settled plan id := by
  induction ids generalizing l with
  | nil => simp
  | cons id ids ih =>
    simp only [List.mem_cons, forall_eq_or_imp]
    exact ⟨(settled_finishClass plan l id).complete ids, ih _⟩

end

/-! ## Trials -/

theorem left_of_fresh {analyzed : OrderedSet Address} {trials : List Trial}
    (h : ∀ t ∈ trials, analyzed.contains t.function = false) : left analyzed trials = trials :=
  List.filter_eq_self.mpr fun t ht => by simp [h t ht]

theorem left_append_of_done {analyzed : OrderedSet Address} {front : List Trial}
    (h : ∀ t ∈ front, analyzed.contains t.function = true) (trials : List Trial) :
    left analyzed (front ++ trials) = left analyzed trials := by
  have hfront : left analyzed front = [] :=
    List.filter_eq_nil_iff.mpr fun t ht => by simp [h t ht]
  rw [left, List.filter_append, ← left, hfront]
  rfl

theorem left_cons_of_done {analyzed : OrderedSet Address} {t : Trial}
    (h : analyzed.contains t.function = true) (trials : List Trial) :
    left analyzed (t :: trials) = left analyzed trials := by
  simp [left, h]

theorem left_cons_of_fresh {analyzed : OrderedSet Address} {t : Trial}
    (h : analyzed.contains t.function = false) (trials : List Trial) :
    left analyzed (t :: trials) = t :: left analyzed trials := by
  simp [left, h]

theorem left_add {analyzed : OrderedSet Address} {function : Address} {trials : List Trial}
    (h : ∀ t ∈ trials, t.function ≠ function) :
    left (analyzed.add function) trials = left analyzed trials :=
  List.filter_congr fun t ht => by
    rw [OrderedMap.add, OrderedMap.contains_insert_of_ne _ _ (h t ht)]

theorem conclude_cons (l : Ledger) (id : ClassId) (accepted : Bool) (t : Trial)
    (trials : List Trial) :
    l.conclude id accepted (t :: trials) =
      (l.recordAll (t.records.getD [])).conclude id (accepted || t.records.isSome) trials := by
  simp [conclude, recordAll, Bool.or_assoc]

/-- Where the class stands before does not matter. -/
theorem conclude_insert (l : Ledger) (id : ClassId) (p : Progress) (accepted : Bool)
    (trials : List Trial) :
    Ledger.conclude ⟨l.attributed, l.progress.insert id p⟩ id accepted trials =
      l.conclude id accepted trials := by
  simp only [conclude, recordAll, OrderedMap.insert_insert]

/-- Trials of which none is accepted come to nothing. -/
theorem conclude_append_of_none (l : Ledger) (id : ClassId) (accepted : Bool)
    {front trials : List Trial} (h : ∀ t ∈ front, t.records = none) :
    l.conclude id accepted (front ++ trials) = l.conclude id accepted trials := by
  induction front with
  | nil => rfl
  | cons t front ih =>
    simp only [List.mem_cons, forall_eq_or_imp] at h
    rw [List.cons_append, conclude_cons, h.1]
    simpa [recordAll] using ih h.2

/-- A class that was interrupted goes on with the trials that were not made. -/
theorem finishClass_of_interrupted (l : Ledger) (id : ClassId) {analyzed : OrderedSet Address}
    {front : List Trial} (h : ∀ t ∈ front, analyzed.contains t.function = true)
    (trials : List Trial) :
    Ledger.finishClass ⟨l.attributed, l.progress.insert id ⟨.attributed, analyzed, true⟩⟩ id
        (.trials (front ++ trials)) =
      l.conclude id true (left analyzed trials) := by
  rw [finishClass_of_isOpen (by rw [progressOf_insert]; rfl)]
  simp only [progressOf_insert, left_append_of_done h]
  exact conclude_insert l id _ true _

/-- A class that was left before any candidate was accepted begins anew. -/
theorem finishClass_of_untouched (l : Ledger) (id : ClassId) {front : List Trial}
    (h : ∀ t ∈ front, t.records = none) (trials : List Trial) :
    Ledger.finishClass ⟨l.attributed, l.progress.insert id ⟨.notAnalyzed, .empty, false⟩⟩ id
        (.trials (front ++ trials)) =
      l.conclude id false trials := by
  have hleft : left .empty (front ++ trials) = front ++ trials := left_of_fresh fun _ _ => rfl
  rw [finishClass_of_isOpen (by rw [progressOf_insert]; rfl)]
  simp only [progressOf_insert, hleft]
  exact (conclude_insert l id _ false _).trans (conclude_append_of_none l id false h)

end Ledger

end ClassRecovery
