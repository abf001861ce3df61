/-
  Matching a candidate against the offset table of its class.

  A constructor of a class with `n` direct bases begins with `n` calls of base constructors.  A destructor
  ends with `n` calls of base destructors and one more call.  Each of these calls has to pass the
  candidate's own `this`, moved by the offset of a direct base, and no base may be called for twice.
  Then the callee is the constructor or destructor of that base.
-/
import ClassRecovery.Attribution.Candidates

namespace ClassRecovery

/-- A call that was matched with a direct base. -/
structure AttributedCall where
  callSite : Address
  base : ClassId
  /-- The offset of the base. -/
  offset : Word
  /-- The callee, past thunks. -/
  function : Address
  deriving DecidableEq, Repr

/-- A candidate that was matched. -/
structure Attribution where
  owner : ClassId
  function : Address
  role : FunctionRole
  /-- In program order. -/
  calls : List AttributedCall
  deriving DecidableEq, Repr

/-- What candidates are matched with: the program, and the settings. -/
structure Attributor where
  program : Program
  config : AttributionConfig
  pointerSize : Word

/-- The calls among which those for `count` bases have to be, if there are that many. -/
def FunctionRole.window? (role : FunctionRole) (count : Nat) (calls : List CallSite) :
    Option (List CallSite) :=
  match role with
  | .constructor => if count ≤ calls.length then some (calls.take count) else none
  | .destructor =>
    if count + 1 ≤ calls.length then
      some ((calls.drop (calls.length - (count + 1))).take count)
    else none

/-- The number of calls that are there, of the `count` calls for bases. -/
def FunctionRole.available (role : FunctionRole) (count : Nat) (calls : List CallSite) : Nat :=
  match role with
  | .constructor => min calls.length count
  | .destructor => min (calls.length - 1) count

/-- The bases in the order in which objects are built: the direct virtual bases, then the other direct ones. -/
def BaseOffsetTable.constructionOrder (t : BaseOffsetTable) : List ClassId :=
  (t.direct.filter (·.isVirtual) ++ t.direct.filter (!·.isVirtual)).map (·.base)

/-- The order in which a function of the given role calls for the bases. -/
def BaseOffsetTable.callOrder (t : BaseOffsetTable) (role : FunctionRole) : List ClassId :=
  match role with
  | .constructor => t.constructionOrder
  | .destructor => t.constructionOrder.reverse

/-- Compares calls with the order of the bases. -/
def checkOrder : List AttributedCall → List ClassId → Except Rejection Unit
  | call :: calls, expected :: order =>
    if call.base = expected then checkOrder calls order
    else .error (.orderViolation call.callSite expected call.base)
  | _, _ => .ok ()

/-- The least signed word. -/
def leastSigned : Int64 := -0x8000000000000000

/-- Matches a call with a direct base.  `this` is the caller's own, `seen` are the bases of the calls before. -/
def matchCall (table : BaseOffsetTable) (this : Variable) (resolve : Address → Address)
    (seen : List ClassId) (call : CallSite) : Except Rejection AttributedCall :=
  match call.target, call.thisArgument with
  | none, _ => .error (.indirectCall call.address)
  | some _, none => .error (.missingThisArgument call.address)
  | some target, some argument =>
    if argument.origin ≠ some this then .error (.foreignThisArgument call.address)
    else
      let offset := argument.totalOffset?.getD leastSigned
      match (wordOfSigned? offset).bind table.directAt? with
      | none => .error (.offsetNotInTable call.address offset)
      | some s =>
        if seen.contains s.base then .error (.duplicateBase call.address s.base)
        else .ok ⟨call.address, s.base, s.offset, resolve target⟩

/-- Matches calls one after the other, up to the first that does not fit. -/
def matchCalls (table : BaseOffsetTable) (this : Variable) (resolve : Address → Address)
    (seen : List ClassId) : List CallSite → Except Rejection (List AttributedCall)
  | [] => .ok []
  | call :: rest => do
    let first ← matchCall table this resolve seen call
    let more ← matchCalls table this resolve (first.base :: seen) rest
    return first :: more

namespace Attributor

/-- Matches the body of a candidate. -/
def matchBody (a : Attributor) (id : ClassId) (table : BaseOffsetTable) (candidate : Candidate)
    (body : FunctionBody) : Except Rejection Attribution :=
  match body.thisParameter with
  | none => .error (.noThisParameter candidate.function)
  | some this =>
    let count := table.direct.length
    match candidate.role.window? count body.calls with
    | none => .error (.callWindow count (candidate.role.available count body.calls))
    | some window => do
      let calls ← matchCalls table this a.program.resolveThunk [] window
      if a.config.enforceOrder then
        checkOrder calls (table.callOrder candidate.role)
      return ⟨id, candidate.function, candidate.role, calls⟩

/-- Matches a candidate of a class with the given table. -/
def matchCandidate (a : Attributor) (id : ClassId) (table : BaseOffsetTable)
    (candidate : Candidate) : Except Rejection Attribution :=
  match a.program.functionAt? candidate.function with
  | none => .error (.host (.noFunction candidate.function))
  | some f =>
    if f.isThunk then .error (.thunk candidate.function)
    else match a.program.body candidate.function with
      | .error e => .error (.host e)
      | .ok body => a.matchBody id table candidate body

/-- Whether matching a candidate takes its decompiled body. -/
def decompiles (a : Attributor) (candidate : Candidate) : Bool :=
  (a.program.functionAt? candidate.function).any fun f => !f.isThunk

/-- What a matched candidate shows: the role of the functions it calls for its bases, and its own. -/
def records (a : Attributor) (found : Attribution) : List AttributedFunction :=
  found.calls.map (fun call => ⟨call.function, call.base, found.role⟩) ++
    if a.config.commitCandidate then [⟨found.function, found.owner, found.role⟩] else []

end Attributor

end ClassRecovery
