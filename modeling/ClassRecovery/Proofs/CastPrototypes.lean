/-
  What the prototypes of the casts say.

  Every override that a pass reports comes from a call at which the registers of both descriptors are known
  (`CastResolver.mem_plan_iff`).  Its prototype points to the two classes by their display names.  Layouts
  are registered under type names, so a cast shows the layouts of its classes just if these were free
  to take their display names (`CastResolver.overridden_names`).
-/
import ClassRecovery.Session
import ClassRecovery.Proofs.DynamicCast
import ClassRecovery.Proofs.Lists
import ClassRecovery.Proofs.Model.Operations

namespace ClassRecovery

/-- The override is for a cast from a pointer to the one type to a pointer to the other. -/
structure CallSiteOverride.Casts (o : CallSiteOverride) (source destination : String) : Prop where
  parameter : o.prototype.parameters[0]? = some ("", .pointer (.named source))
  returned : o.prototype.returnType = .pointer (.named destination)

/-- Prototypes of different casts are different. -/
theorem CallSiteOverride.Casts.iff {o : CallSiteOverride} {source destination : String}
    (h : o.Casts source destination) (source' destination' : String) :
    o.Casts source' destination' ↔ source' = source ∧ destination' = destination := by
  constructor
  · rintro ⟨hparameter, hreturned⟩
    rw [h.parameter] at hparameter
    rw [h.returned] at hreturned
    simp only [Option.some.injEq, Prod.mk.injEq, CType.pointer.injEq, CType.named.injEq, true_and]
      at hparameter hreturned
    exact ⟨hparameter.symm, hreturned.symm⟩
  · rintro ⟨rfl, rfl⟩
    exact h

deriving instance DecidableEq for CastRoutine

namespace CastResolver

/-! ## The routine -/

theorem prototype_of_routine {r : CastResolver} {f : FunctionInfo} {routine : CastRoutine}
    (h : (r.routine f).value = .ok routine) :
    routine.prototype = r.config.abi.castPrototype f.name r.config.pointerSize := by
  simp only [CastResolver.routine, checkPrototype] at h
  split at h
  · simp only [pure, Noted.value_bind] at h
    obtain ⟨source, -, h⟩ := bind_eq_ok_iff.mp h
    obtain ⟨destination, -, h⟩ := bind_eq_ok_iff.mp h
    cases h
    rfl
  · cases h

/-- The parameters of the routine are its object and the descriptors behind it, whatever the ABI. -/
theorem casts_override {r : CastResolver} {f : FunctionInfo} {routine : CastRoutine}
    (h : (r.routine f).value = .ok routine) (callSite : Address) (source destination : ClassType) :
    (r.override routine callSite source destination).Casts source.name destination.name := by
  refine ⟨?_, rfl⟩
  rw [override, callPrototype, prototype_of_routine h]
  cases r.config.abi <;> rfl

/-! ## The calls -/

/-- **A call is for a cast** just if both registers hold descriptors of known classes. -/
theorem target_eq_classes_iff {r : CastResolver} {routine : CastRoutine} {callSite : Address}
    {source destination : ClassType} :
    (r.target routine callSite).1 = .classes source destination ↔
      (r.classInRegister routine.source callSite).1 = .ok (some source) ∧
        (r.classInRegister routine.destination callSite).1 = .ok (some destination) := by
  unfold target
  rcases r.classInRegister routine.source callSite with ⟨_ | _ | found, count⟩ <;>
    rcases r.classInRegister routine.destination callSite with ⟨_ | _ | found', count'⟩ <;> simp

theorem offer_eq_some_iff {r : CastResolver} {routine : CastRoutine} {reference : Reference}
    {o : CallSiteOverride} :
    r.offer routine reference = some o ↔ reference.kind.isDirectCall = true ∧
      ∃ source destination, (r.target routine reference.source).1 = .classes source destination ∧
        o = r.override routine reference.source source destination := by
  unfold offer
  split
  · next hdirect =>
    cases (r.target routine reference.source).1 <;> simp [hdirect, eq_comm]
  · next hdirect => simp [hdirect]

/-- The overrides of a program, call by call. -/
theorem mem_plan_iff {r : CastResolver} {o : CallSiteOverride} :
    o ∈ r.plan ↔ ∃ f routine, r.program.functionsNamed r.config.castEntryName = [f] ∧
      (r.routine f).value = .ok routine ∧
        ∃ reference ∈ r.calls routine, r.offer routine reference = some o := by
  unfold plan
  rcases r.program.functionsNamed r.config.castEntryName with _ | ⟨f, _ | ⟨g, rest⟩⟩
  · simp
  · cases h : (r.routine f).value <;> simp [h]
  · simp

/-! ## What a pass reports -/

theorem offer_of_visit {r : CastResolver} {routine : CastRoutine} {reference : Reference}
    {store : OverrideStore} {o : CallSiteOverride}
    (h : (r.visit routine reference store).value.1 = .overridden o) :
    r.offer routine reference = some o := by
  simp only [visit] at h
  split at h
  · cases h
  · next hskip =>
    have hdirect : reference.kind.isDirectCall = true := by
      cases hkind : reference.kind.isDirectCall <;> simp_all
    rcases htarget : r.target routine reference.source with ⟨target, queries⟩
    rw [htarget] at h
    cases target with
    | unresolved | failed => cases h
    | classes source destination =>
      refine offer_eq_some_iff.mpr ⟨hdirect, source, destination, by rw [htarget], ?_⟩
      simp only at h
      split at h
      · cases h
        rfl
      · cases h

/-- One more call adds to a report the override it was offered, if any. -/
theorem mem_overridden_add {r : CastReport} {outcome : CastOutcome} {o : CallSiteOverride} :
    o ∈ (r.add outcome).overridden ↔ o ∈ r.overridden ∨ outcome = .overridden o := by
  cases outcome <;> simp [CastReport.add, eq_comm]

/-- **What is reported was offered**, by the calls visited or before. -/
theorem offer_of_visitAll {r : CastResolver} {policy : CancelPolicy} {routine : CastRoutine}
    {references : List Reference} {report : CastReport} {s : CastState} {o : CallSiteOverride}
    (h : o ∈ (r.visitAll policy routine references report s).value.1.overridden) :
    o ∈ report.overridden ∨ ∃ reference ∈ references, r.offer routine reference = some o := by
  induction references generalizing report s with
  | nil => exact .inl h
  | cons reference references ih =>
    simp only [visitAll] at h
    split at h
    · exact .inl h
    · simp only [Noted.value_bind] at h
      rcases ih h with hmem | ⟨reference', hmem, hoffer⟩
      · rcases mem_overridden_add.mp hmem with hmem | houtcome
        · exact .inl hmem
        · exact .inr ⟨reference, List.mem_cons_self, offer_of_visit houtcome⟩
      · exact .inr ⟨reference', List.mem_cons_of_mem _ hmem, hoffer⟩

/-- **A pass reports overrides of its plan only.** -/
theorem mem_plan_of_run {r : CastResolver} {policy : CancelPolicy} {s : CastState} {report : CastReport}
    (h : (r.run policy s).value.1 = .ok report) : ∀ o ∈ report.overridden, o ∈ r.plan := by
  intro o ho
  rw [mem_plan_iff]
  simp only [run] at h
  generalize hfound : r.program.functionsNamed r.config.castEntryName = found at h ⊢
  rcases found with _ | ⟨f, _ | ⟨g, rest⟩⟩
  · cases h
    cases ho
  · simp only [Noted.value_bind] at h
    cases hroutine : (r.routine f).value with
    | error e =>
      rw [hroutine] at h
      cases h
    | ok routine =>
      rw [hroutine] at h
      cases h
      rcases offer_of_visitAll ho with hnone | hoffer
      · cases hnone
      · exact ⟨f, routine, rfl, hroutine, hoffer⟩
  · cases h

/-- **What an override says.**  It stands at a call whose registers hold the descriptors of two classes, and
    casts between these by their display names; so it casts between their layouts just if both have
    their display names as type names. -/
theorem overridden_names {r : CastResolver} {policy : CancelPolicy} {s : CastState}
    {report : CastReport} (h : (r.run policy s).value.1 = .ok report) :
    ∀ o ∈ report.overridden, ∃ f routine source destination,
      r.program.functionsNamed r.config.castEntryName = [f] ∧
        (r.routine f).value = .ok routine ∧
        (r.classInRegister routine.source o.callSite).1 = .ok (some source) ∧
        (r.classInRegister routine.destination o.callSite).1 = .ok (some destination) ∧
        o.Casts source.name destination.name ∧
        ∀ sourceType destinationType, r.model.typeName? source.id = some sourceType →
          r.model.typeName? destination.id = some destinationType →
          (o.Casts sourceType destinationType ↔
            sourceType = source.name ∧ destinationType = destination.name) := by
  intro o ho
  obtain ⟨f, routine, hfound, hroutine, reference, -, hoffer⟩ :=
    mem_plan_iff.mp (mem_plan_of_run h o ho)
  obtain ⟨-, source, destination, htarget, rfl⟩ := offer_eq_some_iff.mp hoffer
  obtain ⟨hsource, hdestination⟩ := target_eq_classes_iff.mp htarget
  have hcasts := casts_override hroutine reference.source source destination
  exact ⟨f, routine, source, destination, hfound, hroutine, hsource, hdestination, hcasts,
    fun sourceType destinationType _ _ => hcasts.iff sourceType destinationType⟩

/-- The routine of a program for x86-64. -/
def itaniumEntry : FunctionInfo where
  entry := 0x9000
  name := "__dynamic_cast"
  prototype := some (Abi.itanium.castPrototype "__dynamic_cast" 8).text
  parameters := [.register "rdi", .register "rsi", .register "rdx", .register "rcx"]

/-- A class, and another one of the same display name. -/
def widgets : ClassType × ClassType :=
  ({ id := 0xa0, name := "Widget", memberSize := 8, memberAlign := 8 },
    { id := 0xb0, name := "Widget", memberSize := 24, memberAlign := 8 })

/-- A cast from the second of the two classes to the first. -/
def widgetCast : CastResolver :=
  let classes := [widgets.1, widgets.2]
  let program := Program.ofSnapshot
    { functions := [itaniumEntry], references := [⟨0x4010, 0x9000, .call⟩], classes
      registerConstants := [⟨0x4010, "rsi", 0xb0⟩, ⟨0x4010, "rdx", 0xa0⟩] }
  ⟨program, program.dataflow, .ofClasses .itanium 8 classes, {}⟩

/-- The routine as it is found there. -/
def widgetRoutine : CastRoutine :=
  ⟨0x9000, Abi.itanium.castPrototype "__dynamic_cast" 8, ⟨.x86_64, 6⟩, ⟨.x86_64, 2⟩⟩

theorem run_widgetCast :
    ∃ report, (widgetCast.run .never ⟨{}, {}⟩).value.1 = .ok report ∧
      report.overridden = [widgetCast.override widgetRoutine 0x4010 widgets.2 widgets.1] := by
  have hrun : (widgetCast.run .never ⟨{}, {}⟩).value.1.toOption.map (·.overridden) =
      some [widgetCast.override widgetRoutine 0x4010 widgets.2 widgets.1] := by decide +kernel
  obtain ⟨report, hreport, ho⟩ := Option.map_eq_some_iff.mp hrun
  exact ⟨report, toOption_eq_some_iff.mp hreport, ho⟩

/-- The one override there is casts from `Widget` to `Widget`. -/
theorem overridden_names_widgets :
    ∃ report, (widgetCast.run .never ⟨{}, {}⟩).value.1 = .ok report ∧
      report.overridden.length = 1 ∧
      ∀ o ∈ report.overridden, ∃ source destination : ClassType,
        o.Casts source.name destination.name := by
  obtain ⟨report, hreport, ho⟩ := run_widgetCast
  refine ⟨report, hreport, by rw [ho]; rfl, fun o hmem => ?_⟩
  obtain ⟨-, -, source, destination, -, -, -, -, hcasts, -⟩ := overridden_names hreport o hmem
  exact ⟨source, destination, hcasts⟩

/-- It is from the class of type name `Widget_b0`, but says that it is from `Widget`, which is the type
    name of the other class. -/
theorem overridden_names_shared :
    ∃ report, (widgetCast.run .never ⟨{}, {}⟩).value.1 = .ok report ∧
      ∃ o ∈ report.overridden, ∃ f routine source destination,
        widgetCast.program.functionsNamed widgetCast.config.castEntryName = [f] ∧
          (widgetCast.routine f).value = .ok routine ∧
          (widgetCast.classInRegister routine.source o.callSite).1 = .ok (some source) ∧
          (widgetCast.classInRegister routine.destination o.callSite).1 = .ok (some destination) ∧
          widgetCast.model.typeName? source.id = some "Widget_b0" ∧
          widgetCast.model.typeName? destination.id = some "Widget" ∧
          ¬ o.Casts "Widget_b0" "Widget" := by
  obtain ⟨report, hreport, ho⟩ := run_widgetCast
  have hroutine : (widgetCast.routine itaniumEntry).value.toOption = some widgetRoutine := by
    decide +kernel
  have hsource :
      (widgetCast.classInRegister widgetRoutine.source 0x4010).1 = .ok (some widgets.2) := by
    have hvalue : widgetCast.dataflow 0x4010 widgetRoutine.source = .ok (some 0xb0) := by
      decide +kernel
    rw [classInRegister, classAt, hvalue]
    rfl
  have hdestination :
      (widgetCast.classInRegister widgetRoutine.destination 0x4010).1 = .ok (some widgets.1) := by
    have hvalue : widgetCast.dataflow 0x4010 widgetRoutine.destination = .ok (some 0xa0) := by
      decide +kernel
    rw [classInRegister, classAt, hvalue]
    rfl
  have hmem : widgetCast.override widgetRoutine 0x4010 widgets.2 widgets.1 ∈ report.overridden := by
    rw [ho]
    exact List.mem_singleton_self _
  refine ⟨report, hreport, _, hmem, itaniumEntry, widgetRoutine, widgets.2, widgets.1,
    by decide +kernel, toOption_eq_some_iff.mp hroutine, hsource, hdestination,
    by decide +kernel, by decide +kernel, ?_⟩
  rintro ⟨h, -⟩
  revert h
  decide +kernel

end CastResolver

end ClassRecovery
