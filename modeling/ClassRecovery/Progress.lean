/-
  What is recorded about the constructors and destructors of classes, and how far the search for
  them has come.
-/
import ClassRecovery.OrderedMap
import ClassRecovery.Vtable.Basic

namespace ClassRecovery

/-- Whether a function builds or tears down its object. -/
inductive FunctionRole where
  | constructor
  | destructor
  deriving DecidableEq, Repr

def FunctionRole.name : FunctionRole → String
  | constructor => "constructor"
  | destructor => "destructor"

/-- A function that is recorded as a constructor or destructor of a class. -/
structure AttributedFunction where
  function : Address
  owner : ClassId
  role : FunctionRole
  deriving DecidableEq, Repr

/-- How far the attribution of a class has come. -/
inductive AttributionState where
  | notAnalyzed
  | analyzing
  /-- Some candidate was accepted. -/
  | attributed
  /-- No candidate was accepted, or the class has no offset table. -/
  | rejected
  deriving DecidableEq, Repr

def AttributionState.describe : AttributionState → String
  | notAnalyzed => "NotAnalyzed"
  | analyzing => "Analyzing"
  | attributed => "AttributedOk"
  | rejected => "Rejected"

/-- The progress of one class. -/
structure Progress where
  state : AttributionState := .notAnalyzed
  /-- The candidates that were looked at, while the class is not finished. -/
  analyzed : OrderedSet Address := .empty
  /-- Whether the attribution stopped after a candidate was accepted, with others still to come. -/
  interrupted : Bool := false
  deriving DecidableEq

/-- Whether attribution has not run, or stopped before it was finished. -/
def Progress.isOpen (p : Progress) : Bool :=
  match p.state with
  | .notAnalyzed | .analyzing => true
  | .attributed => p.interrupted
  | .rejected => false

end ClassRecovery
