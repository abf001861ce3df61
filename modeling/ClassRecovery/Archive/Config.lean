/-
  The settings of an analysis as JSON.

  Every setting may be missing; it then has its default.
-/
import ClassRecovery.Config
import ClassRecovery.Json.Decoder

namespace ClassRecovery

open Json (ofWord ofFloat ofOption)

/-! ## Names -/

def Architecture.archiveNames : List (String × Architecture) :=
  [("x86_64", .x86_64), ("x86", .x86), ("arm64", .arm64), ("risc_v64", .riscV64),
    ("mips32", .mips32)]

def Architecture.toJson : Architecture → Json
  | x86_64 => .str "x86_64"
  | x86 => .str "x86"
  | arm64 => .str "arm64"
  | riscV64 => .str "risc_v64"
  | mips32 => .str "mips32"

def Architecture.ofJson? : Json → Option Architecture := Json.name? archiveNames

def ByteOrder.toJson : ByteOrder → Json
  | little => .str "little"
  | big => .str "big"

def ByteOrder.ofJson? : Json → Option ByteOrder := Json.name? [("little", little), ("big", big)]

def Abi.toJson : Abi → Json
  | itanium => .str "itanium"
  | msvc => .str "msvc"

def Abi.ofJson? : Json → Option Abi := Json.name? [("itanium", itanium), ("msvc", msvc)]

/-! ## Settings -/

def ScanConfig.toJson (c : ScanConfig) : Json :=
  .obj
    [("min_entries", ofWord c.minEntries), ("max_entries", ofWord c.maxEntries),
      ("require_alignment", .bool c.requireAlignment), ("detect_rtti", .bool c.detectRtti),
      ("allow_gaps", .bool c.allowGaps), ("max_gap_size", ofWord c.maxGapSize),
      ("min_confidence", ofFloat c.minConfidence)]

def ScanConfig.ofJson? (j : Json) : Option ScanConfig := do
  let ms ← j.members?
  let usual : ScanConfig := {}
  return {
    minEntries := ← ms.orElse "min_entries" Json.word? usual.minEntries
    maxEntries := ← ms.orElse "max_entries" Json.word? usual.maxEntries
    requireAlignment := ← ms.orElse "require_alignment" Json.bool? usual.requireAlignment
    detectRtti := ← ms.orElse "detect_rtti" Json.bool? usual.detectRtti
    allowGaps := ← ms.orElse "allow_gaps" Json.bool? usual.allowGaps
    maxGapSize := ← ms.orElse "max_gap_size" Json.word? usual.maxGapSize
    minConfidence := ← ms.orElse "min_confidence" Json.float? usual.minConfidence }

def AttributionConfig.toJson (c : AttributionConfig) : Json :=
  .obj
    [("enforce_order", .bool c.enforceOrder), ("commit_candidate", .bool c.commitCandidate)]

def AttributionConfig.ofJson? (j : Json) : Option AttributionConfig := do
  let ms ← j.members?
  let usual : AttributionConfig := {}
  return {
    enforceOrder := ← ms.orElse "enforce_order" Json.bool? usual.enforceOrder
    commitCandidate := ← ms.orElse "commit_candidate" Json.bool? usual.commitCandidate }

def CastConfig.toJson (c : CastConfig) : Json :=
  .obj
    [("enabled", .bool c.enabled), ("entry_point", ofOption Json.str c.entryPoint),
      ("retry_after_delay_slot", .bool c.retryAfterDelaySlot)]

def CastConfig.ofJson? (j : Json) : Option CastConfig := do
  let ms ← j.members?
  let usual : CastConfig := {}
  return {
    enabled := ← ms.orElse "enabled" Json.bool? usual.enabled
    entryPoint := ← ms.optional "entry_point" Json.string?
    retryAfterDelaySlot :=
      ← ms.orElse "retry_after_delay_slot" Json.bool? usual.retryAfterDelaySlot }

def AnalysisConfig.toJson (c : AnalysisConfig) : Json :=
  .obj
    [("abi", c.abi.toJson), ("arch", c.arch.toJson), ("pointer_size", ofWord c.pointerSize),
      ("endianness", c.order.toJson), ("attribution", c.attribution.toJson),
      ("dynamic_cast", c.dynamicCast.toJson), ("vtable", c.scan.toJson)]

/-- Reads settings.  The pointer size is not derived from the architecture. -/
def AnalysisConfig.ofJson? (j : Json) : Option AnalysisConfig := do
  let ms ← j.members?
  let usual : AnalysisConfig := {}
  return {
    abi := ← ms.orElse "abi" Abi.ofJson? usual.abi
    arch := ← ms.orElse "arch" Architecture.ofJson? usual.arch
    pointerSize := ← ms.orElse "pointer_size" Json.word? usual.pointerSize
    order := ← ms.orElse "endianness" ByteOrder.ofJson? usual.order
    attribution := ← ms.orElse "attribution" AttributionConfig.ofJson? usual.attribution
    dynamicCast := ← ms.orElse "dynamic_cast" CastConfig.ofJson? usual.dynamicCast
    scan := ← ms.orElse "vtable" ScanConfig.ofJson? usual.scan }

end ClassRecovery
