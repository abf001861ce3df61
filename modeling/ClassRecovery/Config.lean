/-
  The settings of an analysis.
-/
import ClassRecovery.Abi
import ClassRecovery.Decimal.Text
import ClassRecovery.Memory

namespace ClassRecovery

/-- What counts as a table of virtual functions. -/
structure ScanConfig where
  /-- The least number of entries. -/
  minEntries : Word := 1
  /-- The number of entries at which a table is taken to end. -/
  maxEntries : Word := 1000
  /-- Tables begin at multiples of the pointer size. -/
  requireAlignment : Bool := true
  /-- The word before a table is read as its descriptor address. -/
  detectRtti : Bool := true
  /-- Tables may hold null entries. -/
  allowGaps : Bool := false
  /-- The most null entries in a row. -/
  maxGapSize : Word := 1
  /-- The least confidence of a table that is reported. -/
  minConfidence : Float := 0.3

/-- How constructors and destructors are attributed. -/
structure AttributionConfig where
  /-- Base calls have to come in order of construction or destruction. -/
  enforceOrder : Bool := true
  /-- The analysed function is itself recorded for its class. -/
  commitCandidate : Bool := true
  deriving DecidableEq, Repr

/-- How calls of the dynamic-cast routine are typed. -/
structure CastConfig where
  enabled : Bool := true
  /-- The name of the routine, where it is not the usual one. -/
  entryPoint : Option String := none
  /-- A register without a descriptor is looked at again behind the delay slots of the call. -/
  retryAfterDelaySlot : Bool := true
  deriving DecidableEq, Repr

/-- The settings of an analysis. -/
structure AnalysisConfig where
  abi : Abi := .itanium
  arch : Architecture := .x86_64
  pointerSize : Word := 8
  order : ByteOrder := .little
  attribution : AttributionConfig := {}
  dynamicCast : CastConfig := {}
  scan : ScanConfig := {}

namespace AnalysisConfig

/-- The default settings for an architecture, which gives the pointer size. -/
def forArch (arch : Architecture) : AnalysisConfig := { arch, pointerSize := arch.pointerSize }

/-- The format of pointers, if pointers of that size can be read. -/
def pointerFormat? (c : AnalysisConfig) : Except TargetError PointerFormat :=
  PointerFormat.ofSize? c.pointerSize c.order

/-- The name of the dynamic-cast routine in effect. -/
def castEntryName (c : AnalysisConfig) : String :=
  c.dynamicCast.entryPoint.getD c.abi.castEntryName

end AnalysisConfig

/-! ## Settings in messages

A group of settings is written as its name and its settings in braces. -/

/-- A named group of settings. -/
def settingsText (name : String) (settings : List (String × String)) : String :=
  name ++ " \x7b " ++ ", ".intercalate (settings.map fun s => s.1 ++ ": " ++ s.2) ++ " \x7d"

/-- A truth value in messages. -/
def boolText (b : Bool) : String := if b then "true" else "false"

/-- A number in messages. -/
def wordText (w : Word) : String := toString w.toNat

def ScanConfig.describe (c : ScanConfig) : String :=
  settingsText "VtableConfig"
    [("min_entries", wordText c.minEntries), ("max_entries", wordText c.maxEntries),
      ("require_alignment", boolText c.requireAlignment), ("detect_rtti", boolText c.detectRtti),
      ("allow_gaps", boolText c.allowGaps), ("max_gap_size", wordText c.maxGapSize),
      ("min_confidence", floatText .message c.minConfidence)]

def AttributionConfig.describe (c : AttributionConfig) : String :=
  settingsText "AttributionConfig"
    [("enforce_order", boolText c.enforceOrder), ("commit_candidate", boolText c.commitCandidate)]

def CastConfig.describe (c : CastConfig) : String :=
  settingsText "DynamicCastConfig"
    [("enabled", boolText c.enabled),
      ("entry_point", c.entryPoint.elim "None" fun name => "Some(" ++ quoted name ++ ")"),
      ("retry_after_delay_slot", boolText c.retryAfterDelaySlot)]

def Abi.describe : Abi → String
  | itanium => "Itanium"
  | msvc => "Msvc"

def Architecture.describe : Architecture → String
  | x86_64 => "X86_64"
  | x86 => "X86"
  | arm64 => "Arm64"
  | riscV64 => "RiscV64"
  | mips32 => "Mips32"

def ByteOrder.describe : ByteOrder → String
  | little => "Little"
  | big => "Big"

def AnalysisConfig.describe (c : AnalysisConfig) : String :=
  settingsText "AnalysisConfig"
    [("abi", c.abi.describe), ("arch", c.arch.describe), ("pointer_size", wordText c.pointerSize),
      ("endianness", c.order.describe), ("attribution", c.attribution.describe),
      ("dynamic_cast", c.dynamicCast.describe), ("vtable", c.scan.describe)]

end ClassRecovery
