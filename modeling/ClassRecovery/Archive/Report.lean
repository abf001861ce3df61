/-
  What an analysis found, as JSON.
-/
import ClassRecovery.Archive.Program
import ClassRecovery.Session

namespace ClassRecovery

open Json (ofWord ofSigned ofNat ofOption ofList)

/-! ## Errors -/

/-- The members that stand for an error. -/
def HostError.toMembers : HostError → Json.Members
  | noFunction address => [("NoFunction", ofWord address)]
  | decompile function reason =>
    [("Decompile", .obj [("function", ofWord function), ("reason", .str reason)])]
  | dataflow address reason =>
    [("Dataflow", .obj [("address", ofWord address), ("reason", .str reason)])]
  | signature address reason =>
    [("Signature", .obj [("address", ofWord address), ("reason", .str reason)])]

def HostError.toJson (e : HostError) : Json := .obj e.toMembers

/-- The name of a rejection, and its particulars. -/
def Rejection.toMembers : Rejection → String × Json.Members
  | noBases => ("no_bases", [])
  | noVtable => ("no_vtable", [])
  | ambiguousParents bases parents =>
    ("ambiguous_parents", [("bases", ofNat bases), ("parents", ofNat parents)])
  | thunk function => ("thunk", [("function", ofWord function)])
  | noThisParameter function => ("no_this_parameter", [("function", ofWord function)])
  | callWindow expected found =>
    ("call_window", [("expected", ofNat expected), ("found", ofNat found)])
  | indirectCall call => ("indirect_call", [("call", ofWord call)])
  | missingThisArgument call => ("missing_this_argument", [("call", ofWord call)])
  | foreignThisArgument call => ("foreign_this_argument", [("call", ofWord call)])
  | offsetNotInTable call offset =>
    ("offset_not_in_table", [("call", ofWord call), ("offset", ofSigned offset)])
  | duplicateBase call base => ("duplicate_base", [("call", ofWord call), ("base", ofWord base)])
  | orderViolation call expected found =>
    ("order_violation",
      [("call", ofWord call), ("expected", ofWord expected), ("found", ofWord found)])
  | structural cause => ("structural", [("message", .str cause.message)])
  | host cause => ("host", cause.toMembers)

def Rejection.toJson (r : Rejection) : Json :=
  let (reason, members) := r.toMembers
  .obj (("reason", .str reason) :: members)

/-! ## Attribution -/

def Candidate.toJson (c : Candidate) : Json :=
  .obj [("function", ofWord c.function), ("role", c.role.toJson)]

def AttributedCall.toJson (c : AttributedCall) : Json :=
  .obj
    [("call_site", ofWord c.callSite), ("base", ofWord c.base), ("offset", ofWord c.offset),
      ("function", ofWord c.function)]

def Attribution.toJson (a : Attribution) : Json :=
  .obj
    [("class", ofWord a.owner), ("function", ofWord a.function), ("role", a.role.toJson),
      ("calls", ofList AttributedCall.toJson a.calls)]

def ClassAttribution.toJson (a : ClassAttribution) : Json :=
  .obj
    [("class", ofWord a.owner), ("state", a.state.toJson),
      ("attributions", ofList Attribution.toJson a.attributions),
      ("rejections", ofList (fun r => .arr [ofWord r.1, r.2.toJson]) a.rejections),
      ("skipped", ofOption Rejection.toJson a.skipped)]

/-! ## Reports -/

def CastReport.toJson (r : CastReport) : Json :=
  .obj
    [("entry_point", ofOption ofWord r.entryPoint),
      ("overridden", ofList CallSiteOverride.toJson r.overridden),
      ("unresolved", ofList ofWord r.unresolved),
      ("failed", ofList (fun f => .arr [ofWord f.1, f.2.toJson]) r.failed),
      ("skipped", ofList ofWord r.skipped), ("cancelled", .bool r.cancelled)]

def AnalysisReport.toJson (r : AnalysisReport) : Json :=
  .obj
    [("classes", ofNat r.classes), ("classes_laid_out", ofNat r.classesLaidOut),
      ("layout_failures",
        ofList (fun f => .arr [ofWord f.1, .str f.2.message]) r.layoutFailures),
      ("classes_attributed", ofNat r.classesAttributed),
      ("classes_rejected", ofNat r.classesRejected),
      ("classes_skipped", ofNat r.classesSkipped),
      ("functions_committed", ofNat r.functionsCommitted),
      ("attributions", ofList ClassAttribution.toJson r.attributions),
      ("dynamic_cast", ofOption CastReport.toJson r.dynamicCast),
      ("cancelled", .bool r.cancelled)]

end ClassRecovery
