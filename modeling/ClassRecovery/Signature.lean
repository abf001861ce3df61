/-
  Prototypes of single call sites.

  A call site carries at most one override.  A store of overrides may refuse certain call sites.
-/
import ClassRecovery.CType
import ClassRecovery.Error
import ClassRecovery.OrderedMap

namespace ClassRecovery

/-- A prototype for one call site, in place of that of the function called. -/
structure CallSiteOverride where
  callSite : Address
  name : String
  category : String
  prototype : Prototype
  deriving DecidableEq, Repr

/-- The overrides of a program, by call site. -/
structure OverrideStore where
  overrides : OrderedMap Address CallSiteOverride := .empty
  /-- The call sites at which no override is accepted. -/
  refused : OrderedSet Address := .empty

namespace OverrideStore

def get? (s : OverrideStore) (callSite : Address) : Option CallSiteOverride :=
  s.overrides.get? callSite

def contains (s : OverrideStore) (callSite : Address) : Bool := s.overrides.contains callSite

/-- Adds an override, unless the call site is refused or carries one already. -/
def add (s : OverrideStore) (o : CallSiteOverride) : Except HostError OverrideStore :=
  if s.refused.contains o.callSite then
    .error (.signature o.callSite "signature store rejected the override")
  else if s.contains o.callSite then
    .error (.signature o.callSite "call site already carries an override")
  else .ok { s with overrides := s.overrides.insert o.callSite o }

end OverrideStore

end ClassRecovery
