/-
  What can go wrong in an analysis.

  A `ModelError` concerns one class, a `HostError` one function or call site, a `DiscoveryError` the model of
  all classes, an `AnalysisError` the whole run.  That a candidate does not fit is no error but a `Rejection`.
-/
import ClassRecovery.Architecture
import ClassRecovery.Layout
import ClassRecovery.Vtable.Basic

namespace ClassRecovery

/-- What is wrong with a class. -/
inductive ModelError where
  | unknownClass (id : ClassId)
  | cyclicInheritance (id : ClassId)
  | offsetOverflow (id : ClassId)
  | layout (id : ClassId) (cause : LayoutError)
  deriving DecidableEq, Repr

def ModelError.message : ModelError → String
  | unknownClass id => "class " ++ hex id ++ " is not in the model"
  | cyclicInheritance id => "cyclic inheritance through class " ++ hex id
  | offsetOverflow id => "offset arithmetic overflowed while laying out class " ++ hex id
  | layout id cause => "layout of class " ++ hex id ++ " is inconsistent: " ++ cause.message

/-- What the program under analysis does not give. -/
inductive HostError where
  | noFunction (address : Address)
  | decompile (function : Address) (reason : String)
  | dataflow (address : Address) (reason : String)
  | signature (address : Address) (reason : String)
  deriving DecidableEq, Repr

def HostError.message : HostError → String
  | noFunction address => "no function at " ++ hex address
  | decompile function reason =>
    "decompilation of function " ++ hex function ++ " failed: " ++ reason
  | dataflow address reason => "dataflow query at " ++ hex address ++ " failed: " ++ reason
  | signature address reason =>
    "signature override at " ++ hex address ++ " was not applied: " ++ reason

/-- Why the classes of a program are not discovered. -/
inductive DiscoveryError where
  | target (cause : TargetError)
  /-- A section that reaches the last address does not fit into the image of all sections.  There is no
      message: the analysis is aborted. -/
  | sectionOutOfRange
  deriving DecidableEq, Repr

/-- Why a whole run ends. -/
inductive AnalysisError where
  | abiMismatch (entryPoint expected found : String)
  | ambiguousEntryPoint (name : String) (count : Nat)
  | unsupportedParameterStorage (entryPoint : String) (index : Nat)
  | cancelled
  | target (cause : TargetError)
  deriving DecidableEq, Repr

def AnalysisError.message : AnalysisError → String
  | abiMismatch entryPoint expected found =>
    "ABI mismatch: " ++ entryPoint ++ " has prototype `" ++ found ++ "`, expected `" ++
      expected ++ "`"
  | ambiguousEntryPoint name count =>
    "runtime entry point " ++ name ++ " is defined " ++ toString count ++ " times"
  | unsupportedParameterStorage entryPoint index =>
    "parameter " ++ toString index ++ " of " ++ entryPoint ++ " is not passed in a register"
  | cancelled => "analysis cancelled"
  | target cause => cause.message

/-- Why a class or a candidate function is not attributed. -/
inductive Rejection where
  | noBases
  | noVtable
  | ambiguousParents (bases parents : Nat)
  | thunk (function : Address)
  | noThisParameter (function : Address)
  | callWindow (expected found : Nat)
  | indirectCall (call : Address)
  | missingThisArgument (call : Address)
  | foreignThisArgument (call : Address)
  | offsetNotInTable (call : Address) (offset : Int64)
  | duplicateBase (call : Address) (base : ClassId)
  | orderViolation (call : Address) (expected found : ClassId)
  | structural (cause : ModelError)
  | host (cause : HostError)
  deriving DecidableEq, Repr

def Rejection.message : Rejection → String
  | noBases => "class has no direct bases"
  | noVtable => "class owns no valid vtable"
  | ambiguousParents bases parents =>
    toString bases ++ " direct bases but only " ++ toString parents ++ " distinct parents"
  | thunk function => "function " ++ hex function ++ " is a thunk"
  | noThisParameter function => "function " ++ hex function ++ " has no this parameter"
  | callWindow expected found =>
    "expected " ++ toString expected ++ " base calls, found " ++ toString found
  | indirectCall call => "call at " ++ hex call ++ " is indirect"
  | missingThisArgument call => "call at " ++ hex call ++ " passes no this argument"
  | foreignThisArgument call => "call at " ++ hex call ++ " does not pass the caller's this"
  | offsetNotInTable call offset =>
    "call at " ++ hex call ++ " passes this+" ++ hexSigned offset ++ ", which is not a direct base"
  | duplicateBase call base =>
    "call at " ++ hex call ++ " targets base " ++ hex base ++ " a second time"
  | orderViolation call expected found =>
    "call at " ++ hex call ++ " targets base " ++ hex found ++ " where " ++ hex expected ++
      " was expected"
  | structural cause => cause.message
  | host cause => cause.message

end ClassRecovery
