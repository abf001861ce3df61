/-
  Prototypes for the calls of the dynamic-cast routine.

  Each direct call of the routine passes the descriptors of two classes in registers.  Where dataflow tells
  which descriptors these are, the call gets a prototype of its own: the object is a pointer to the source
  class, the result one to the destination class, and the descriptors are pointers to
  their record types.  The prototype of the routine itself is left as it is.
-/
import ClassRecovery.Attribution.Run
import ClassRecovery.Signature

namespace ClassRecovery

/-- What the pass over the calls gave. -/
structure CastReport where
  /-- The routine, if there is one. -/
  entryPoint : Option Address := none
  overridden : List CallSiteOverride := []
  /-- The calls whose classes could not be told. -/
  unresolved : List Address := []
  failed : List (Address × HostError) := []
  /-- The calls that were left alone: they carry an override, or are not direct. -/
  skipped : List Address := []
  cancelled : Bool := false

/-- The value that a register holds before an instruction, as dataflow tells it. -/
abbrev Dataflow := Address → Register → Except HostError (Option Word)

/-- The dataflow of a program. -/
def Program.dataflow (p : Program) : Dataflow := fun address r => .ok (p.constant? address r)

/-- What the pass works with. -/
structure CastResolver where
  program : Program
  dataflow : Dataflow
  model : ClassModel
  config : AnalysisConfig

/-- The routine, as far as the pass needs it. -/
structure CastRoutine where
  entry : Address
  prototype : Prototype
  /-- The registers of the two descriptors. -/
  source : Register
  destination : Register

/-- What a call of the routine is for. -/
inductive CastTarget where
  /-- It casts between two known classes. -/
  | classes (source destination : ClassType)
  | unresolved
  | failed (cause : HostError)

/-- What became of a call. -/
inductive CastOutcome where
  | overridden (o : CallSiteOverride)
  | unresolved (callSite : Address)
  | failed (callSite : Address) (cause : HostError)
  | skipped (callSite : Address)

/-- The report with one more call. -/
def CastReport.add (r : CastReport) : CastOutcome → CastReport
  | .overridden o => { r with overridden := r.overridden ++ [o] }
  | .unresolved callSite => { r with unresolved := r.unresolved ++ [callSite] }
  | .failed callSite cause => { r with failed := r.failed ++ [(callSite, cause)] }
  | .skipped callSite => { r with skipped := r.skipped ++ [callSite] }

namespace CastResolver

/-! ## The routine -/

/-- The register in which the routine takes a parameter. -/
def parameterRegister (r : CastResolver) (f : FunctionInfo) (index : Nat) :
    Except AnalysisError Register :=
  match f.parameters[index]? with
  | some (.register name) => (Register.ofName? r.config.arch name).mapError .target
  | _ => .error (.unsupportedParameterStorage f.name index)

/-- Checks that the routine has the prototype that the ABI gives it. -/
def checkPrototype (r : CastResolver) (f : FunctionInfo) :
    Noted (Except AnalysisError Prototype) := do
  let prototype := r.config.abi.castPrototype f.name r.config.pointerSize
  let expected := prototype.text
  let found := f.prototype.getD ""
  if normalizeBlanks found = normalizeBlanks expected then return .ok prototype
  else
    Noted.note (.castEntryMismatch f.entry expected found)
    return .error (.abiMismatch f.name expected found)

/-- The routine, once its prototype and the places of its parameters are known to be right. -/
def routine (r : CastResolver) (f : FunctionInfo) : Noted (Except AnalysisError CastRoutine) := do
  match ← r.checkPrototype f with
  | .error e => return .error e
  | .ok prototype =>
    let (source, destination) := r.config.abi.descriptorPositions
    return do
      let source ← r.parameterRegister f source
      let destination ← r.parameterRegister f destination
      return ⟨f.entry, prototype, source, destination⟩

/-! ## One call -/

/-- The class whose descriptor a register holds before an instruction. -/
def classAt (r : CastResolver) (register : Register) (address : Address) :
    Except HostError (Option ClassType) := do
  let value ← r.dataflow address register
  return value.bind r.model.get?

/-- The class whose descriptor a register holds at a call, or else behind its delay slots; and the number of
    queries that took. -/
def classInRegister (r : CastResolver) (register : Register) (callSite : Address) :
    Except HostError (Option ClassType) × Nat :=
  match r.classAt register callSite with
  | .ok none =>
    let next := if r.config.dynamicCast.retryAfterDelaySlot then
      (r.program.afterDelaySlots? callSite).filter (· != callSite) else none
    match next with
    | some next => (r.classAt register next, 2)
    | none => (.ok none, 1)
  | found => (found, 1)

/-- What a call is for, and the number of queries that took.  Without an answer for the source, the
    destination is not asked for. -/
def target (r : CastResolver) (routine : CastRoutine) (callSite : Address) : CastTarget × Nat :=
  match r.classInRegister routine.source callSite with
  | (.error e, count) => (.failed e, count)
  | (.ok source, count) =>
    let (destination, more) := r.classInRegister routine.destination callSite
    let target : CastTarget :=
      match source, destination with
      | _, .error e => .failed e
      | some source, .ok (some destination) => .classes source destination
      | _, .ok _ => .unresolved
    (target, count + more)

/-- The prototype of a call that casts between two classes. -/
def callPrototype (r : CastResolver) (routine : CastRoutine) (source destination : ClassType) :
    Prototype :=
  let abi := r.config.abi
  let pointerTo (name : String) : String × CType := ("", .pointer (.named name))
  let (first, second) := abi.descriptorPositions
  { routine.prototype with
    returnType := .pointer (.named destination.name)
    parameters :=
      ((routine.prototype.parameters.set 0 (pointerTo source.name)).set
        first (pointerTo (source.descriptorTypeName abi))).set
        second (pointerTo (destination.descriptorTypeName abi)) }

/-- The override for a call that casts between two classes. -/
def override (r : CastResolver) (routine : CastRoutine) (callSite : Address)
    (source destination : ClassType) : CallSiteOverride where
  callSite
  name := "prt" ++ hexDigits callSite.toNat
  category := "/auto_proto"
  prototype := r.callPrototype routine source destination

/-- Deals with one call that is not data: what became of it, the overrides afterwards, and the number of
    queries. -/
def visit (r : CastResolver) (routine : CastRoutine) (reference : Reference)
    (store : OverrideStore) : Noted (CastOutcome × OverrideStore × Nat) := do
  let callSite := reference.source
  if !reference.kind.isDirectCall || store.contains callSite then
    return (.skipped callSite, store, 0)
  else
    let (target, queries) := r.target routine callSite
    match target with
    | .unresolved =>
      Noted.note (.castTypesUnresolved callSite)
      return (.unresolved callSite, store, queries)
    | .failed e =>
      Noted.note (.dataflowFailed callSite e)
      return (.failed callSite e, store, queries)
    | .classes source destination =>
      let o := r.override routine callSite source destination
      match store.add o with
      | .ok store =>
        Noted.note (.castOverridden callSite source.name destination.name)
        return (.overridden o, store, queries)
      | .error e =>
        Noted.note (.castNotOverridden callSite e)
        return (.failed callSite e, store, queries)

/-! ## All calls -/

/-- The overrides and the work the pass has come to. -/
structure CastState where
  store : OverrideStore
  work : Workload := {}

/-- Deals with calls one after the other, unless cancelled. -/
def visitAll (r : CastResolver) (policy : CancelPolicy) (routine : CastRoutine) :
    List Reference → CastReport → CastState → Noted (CastReport × CastState)
  | [], report, s => return (report, s)
  | reference :: rest, report, s => do
    let work := s.work.checked
    if policy s.work then return ({ report with cancelled := true }, { s with work })
    else
      let (outcome, store, queries) ← r.visit routine reference s.store
      r.visitAll policy routine rest (report.add outcome)
        ⟨store, { work with queries := work.queries + queries }⟩

/-- The references to the routine that are not data, by call site. -/
def calls (r : CastResolver) (routine : CastRoutine) : List Reference :=
  ((r.program.referencesTo routine.entry).mergeSort fun a b => a.source ≤ b.source).filter fun c =>
    !c.kind.isData

/-- Runs the pass.  A missing routine gives an empty report; one that is defined several times, or does not
    look as the ABI says, is an error. -/
def run (r : CastResolver) (policy : CancelPolicy) (s : CastState) :
    Noted (Except AnalysisError CastReport × CastState) := do
  let name := r.config.castEntryName
  match r.program.functionsNamed name with
  | [] =>
    Noted.note (.castEntryMissing name)
    return (.ok {}, s)
  | [f] =>
    match ← r.routine f with
    | .error e => return (.error e, s)
    | .ok routine =>
      let (report, s) ←
        r.visitAll policy routine (r.calls routine) { entryPoint := some f.entry } s
      return (.ok report, s)
  | several => return (.error (.ambiguousEntryPoint name several.length), s)

end CastResolver

end ClassRecovery
