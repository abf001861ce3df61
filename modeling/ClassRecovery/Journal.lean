/-
  The journal of an analysis: what is worth telling about its course.

  Every step that can be told is an `Event`; a `Noted` computation collects events beside its value.
  The value never depends on the events.
-/
import ClassRecovery.Config
import ClassRecovery.Error
import ClassRecovery.Progress

namespace ClassRecovery

/-! ## Events -/

/-- How much an event matters. -/
inductive Level where
  | error
  | warn
  | info
  | debug
  | trace
  deriving DecidableEq, Repr

namespace Level

def name : Level → String
  | error => "ERROR"
  | warn => "WARN"
  | info => "INFO"
  | debug => "DEBUG"
  | trace => "TRACE"

/-- The position in the order from the most to the least important. -/
def rank : Level → Nat
  | error => 1
  | warn => 2
  | info => 3
  | debug => 4
  | trace => 5

end Level

/-- A step of an analysis. -/
inductive Event where
  | effectiveConfig (config : AnalysisConfig)
  /-- The sections span this many bytes, too many for one image. -/
  | sectionsTooFarApart (span : Word)
  | unreadableDescriptor (address : Address)
  | sectionsScanned (vtables descriptors : Nat)
  | nameDisambiguated (id : ClassId) (name typeName : String)
  | modelReady (classes : Nat)
  | offsetsResolved (id : ClassId) (size : Word) (bases : Nat)
  /-- A hidden pointer gave way to an inherited field. -/
  | inheritedFieldKept (pointer : Field)
  | layoutBuilt (layout : Layout)
  | layoutRegistered (id : ClassId) (layout : Layout)
  | layoutFailed (id : ClassId) (cause : ModelError)
  | classNotAnalyzed (id : ClassId) (cause : Rejection)
  | classSkipped (id : ClassId) (cause : ModelError)
  | stateSet (id : ClassId) (state : AttributionState)
  | candidateRejected (id : ClassId) (function : Address) (cause : Rejection)
  | functionReattributed (function : Address) (previous owner : ClassId)
  | functionAttributed (function : Address) (ownerName : String) (role : FunctionRole)
  | castEntryMissing (name : String)
  | castEntryMismatch (address : Address) (expected found : String)
  | castTypesUnresolved (callSite : Address)
  | dataflowFailed (callSite : Address) (cause : HostError)
  | castOverridden (callSite : Address) (source destination : String)
  | castNotOverridden (callSite : Address) (cause : HostError)
  | cancelled
  | finished (classes laidOut attributed rejected overrides : Nat) (stopped : Bool)

namespace Event

def level : Event → Level
  | castEntryMismatch .. => .error
  | sectionsTooFarApart .. | layoutFailed .. | classSkipped .. | functionReattributed .. |
      dataflowFailed .. | castNotOverridden .. => .warn
  | modelReady .. | functionAttributed .. | castEntryMissing .. | castOverridden .. | cancelled |
      finished .. => .info
  | effectiveConfig .. | unreadableDescriptor .. | sectionsScanned .. | nameDisambiguated .. |
      layoutBuilt .. | layoutRegistered .. | classNotAnalyzed .. | stateSet .. |
      candidateRejected .. | castTypesUnresolved .. => .debug
  | offsetsResolved .. | inheritedFieldKept .. => .trace

/-- What happened, and the particulars. -/
def particulars : Event → String × List (String × String)
  | effectiveConfig config => ("effective configuration", [("config", config.describe)])
  | sectionsTooFarApart span =>
    ("sections too far apart to flatten, parsing descriptors per section",
      [("span", wordText span)])
  | unreadableDescriptor address => ("unreadable type descriptor", [("address", hex address)])
  | sectionsScanned vtables descriptors =>
    ("scanned sections", [("vtables", toString vtables), ("descriptors", toString descriptors)])
  | nameDisambiguated id name typeName =>
    ("disambiguated class name",
      [("class", hex id), ("name", quoted name), ("type_name", typeName)])
  | modelReady classes => ("class model ready", [("classes", toString classes)])
  | offsetsResolved id size bases =>
    ("resolved base offsets",
      [("class", hex id), ("size", wordText size), ("bases", toString bases)])
  | inheritedFieldKept pointer =>
    ("kept inherited field", [("field", pointer.name), ("offset", wordText pointer.offset)])
  | layoutBuilt layout =>
    ("built layout",
      [("class", layout.name), ("fields", toString layout.fields.length),
        ("size", wordText layout.size)])
  | layoutRegistered id layout =>
    ("registered layout",
      [("class", hex id), ("name", layout.name), ("size", wordText layout.size)])
  | layoutFailed id cause => ("layout failed", [("class", hex id), ("error", cause.message)])
  | classNotAnalyzed id cause =>
    ("class not analysed", [("class", hex id), ("rejection", cause.message)])
  | classSkipped id cause => ("skipping class", [("class", hex id), ("error", cause.message)])
  | stateSet id state => ("attribution state", [("class", hex id), ("state", state.describe)])
  | candidateRejected id function cause =>
    ("candidate rejected",
      [("class", hex id), ("function", hex function), ("rejection", cause.message)])
  | functionReattributed function previous owner =>
    ("function re-attributed",
      [("function", hex function), ("previous", hex previous), ("class", hex owner)])
  | functionAttributed function ownerName role =>
    ("attributed function",
      [("function", hex function), ("class", quoted ownerName), ("role", quoted role.name)])
  | castEntryMissing name =>
    ("runtime entry point not found", [("entry_point", quoted name)])
  | castEntryMismatch address expected found =>
    ("runtime entry point does not match the ABI",
      [("entry_point", hex address), ("expected", expected), ("found", quoted found)])
  | castTypesUnresolved callSite =>
    ("type arguments unresolved", [("call_site", hex callSite)])
  | dataflowFailed callSite cause =>
    ("dataflow query failed", [("call_site", hex callSite), ("error", cause.message)])
  | castOverridden callSite source destination =>
    ("applied dynamic-cast override",
      [("call_site", hex callSite), ("src", source), ("dst", destination)])
  | castNotOverridden callSite cause =>
    ("override not applied", [("call_site", hex callSite), ("error", cause.message)])
  | cancelled => ("analysis cancelled", [])
  | finished classes laidOut attributed rejected overrides stopped =>
    ("analysis finished",
      [("classes", toString classes), ("laid_out", toString laidOut),
        ("attributed", toString attributed), ("rejected", toString rejected),
        ("overrides", toString overrides), ("cancelled", boolText stopped)])

/-- The line of the journal: the level, what happened, and the particulars. -/
def text (e : Event) : String :=
  let (what, fields) := e.particulars
  " ".intercalate (e.level.name :: what :: fields.map fun f => f.1 ++ "=" ++ f.2)

end Event

/-! ## Computations with a journal -/

/-- A value, and the events on the way to it. -/
structure Noted (α : Type) where
  value : α
  events : List Event

namespace Noted

instance : Monad Noted where
  pure a := ⟨a, []⟩
  bind x f :=
    let y := f x.value
    ⟨y.value, x.events ++ y.events⟩

/-- Notes one event. -/
def note (e : Event) : Noted Unit := ⟨(), [e]⟩

/-- Notes several events. -/
def noteAll (es : List Event) : Noted Unit := ⟨(), es⟩

@[simp]
theorem value_pure {α : Type} (a : α) : (pure a : Noted α).value = a := rfl

@[simp]
theorem value_bind {α β : Type} (x : Noted α) (f : α → Noted β) :
    (x >>= f).value = (f x.value).value := rfl

@[simp]
theorem value_map {α β : Type} (x : Noted α) (f : α → β) : (f <$> x).value = f x.value := rfl

end Noted

end ClassRecovery
