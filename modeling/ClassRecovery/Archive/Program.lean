/-
  Snapshots of programs, and overrides of call sites, as JSON.
-/
import ClassRecovery.Archive.Classes
import ClassRecovery.Archive.Config
import ClassRecovery.Archive.Types
import ClassRecovery.Json.Parser
import ClassRecovery.Json.Printer
import ClassRecovery.Program.Snapshot
import ClassRecovery.Signature

namespace ClassRecovery

open Json (ofWord ofSigned ofOption ofList)

/-! ## Functions and references -/

def ParameterStorage.toJson : ParameterStorage → Json
  | register name => .obj [("register", .str name)]
  | stack offset => .obj [("stack", ofSigned offset)]

def ParameterStorage.ofJson? : Json → Option ParameterStorage
  | .obj [("register", j)] => j.string?.map register
  | .obj [("stack", j)] => j.signed?.map stack
  | _ => none

def FunctionInfo.toJson (f : FunctionInfo) : Json :=
  .obj
    [("entry", ofWord f.entry), ("name", .str f.name), ("size", ofWord f.size),
      ("thunk_target", ofOption ofWord f.thunkTarget), ("user_defined", .bool f.isUserDefined),
      ("prototype", ofOption Json.str f.prototype),
      ("parameters", ofList ParameterStorage.toJson f.parameters)]

def FunctionInfo.ofJson? (j : Json) : Option FunctionInfo := do
  let ms ← j.members?
  return {
    entry := ← ms.required "entry" Json.word?
    name := ← ms.required "name" Json.string?
    size := ← ms.orElse "size" Json.word? 0
    thunkTarget := ← ms.optional "thunk_target" Json.word?
    isUserDefined := ← ms.orElse "user_defined" Json.bool? false
    prototype := ← ms.optional "prototype" Json.string?
    parameters := ← ms.orElse "parameters" (Json.list? ParameterStorage.ofJson?) [] }

def ReferenceKind.toJson : ReferenceKind → Json
  | data => .str "data"
  | read => .str "read"
  | write => .str "write"
  | call => .str "call"
  | computedCall => .str "computed_call"
  | indirectCall => .str "indirect_call"

def ReferenceKind.ofJson? : Json → Option ReferenceKind :=
  Json.name?
    [("data", data), ("read", read), ("write", write), ("call", call),
      ("computed_call", computedCall), ("indirect_call", indirectCall)]

def Reference.toJson (r : Reference) : Json :=
  .obj [("from", ofWord r.source), ("to", ofWord r.target), ("kind", r.kind.toJson)]

def Reference.ofJson? (j : Json) : Option Reference := do
  let ms ← j.members?
  return {
    source := ← ms.required "from" Json.word?
    target := ← ms.required "to" Json.word?
    kind := ← ms.required "kind" ReferenceKind.ofJson? }

/-! ## Decompiled bodies -/

/-- Writes the number of a variable. -/
def ofVariable (v : Variable) : Json := .int v.toNat

def ThisArgument.toJson (a : ThisArgument) : Json :=
  .obj
    [("variable", ofOption ofVariable a.origin), ("offset", ofSigned a.offset),
      ("field_offset", ofOption ofSigned a.fieldOffset)]

def ThisArgument.ofJson? (j : Json) : Option ThisArgument := do
  let ms ← j.members?
  return {
    origin := ← ms.optional "variable" Json.word32?
    offset := ← ms.orElse "offset" Json.signed? 0
    fieldOffset := ← ms.optional "field_offset" Json.signed? }

def CallSite.toJson (c : CallSite) : Json :=
  .obj
    [("address", ofWord c.address), ("target", ofOption ofWord c.target),
      ("this_arg", ofOption ThisArgument.toJson c.thisArgument)]

def CallSite.ofJson? (j : Json) : Option CallSite := do
  let ms ← j.members?
  return {
    address := ← ms.required "address" Json.word?
    target := ← ms.optional "target" Json.word?
    thisArgument := ← ms.optional "this_arg" ThisArgument.ofJson? }

def FunctionBody.toJson (b : FunctionBody) : Json :=
  .obj
    [("entry", ofWord b.entry), ("this_param", ofOption ofVariable b.thisParameter),
      ("calls", ofList CallSite.toJson b.calls)]

def FunctionBody.ofJson? (j : Json) : Option FunctionBody := do
  let ms ← j.members?
  return {
    entry := ← ms.required "entry" Json.word?
    thisParameter := ← ms.optional "this_param" Json.word32?
    calls := ← ms.orElse "calls" (Json.list? CallSite.ofJson?) [] }

/-! ## Snapshots -/

def RegisterConstant.toJson (c : RegisterConstant) : Json :=
  .obj
    [("address", ofWord c.address), ("register", .str c.register), ("value", ofWord c.value)]

def RegisterConstant.ofJson? (j : Json) : Option RegisterConstant := do
  let ms ← j.members?
  return {
    address := ← ms.required "address" Json.word?
    register := ← ms.required "register" Json.string?
    value := ← ms.required "value" Json.word? }

def DelaySlot.toJson (s : DelaySlot) : Json :=
  .obj [("address", ofWord s.address), ("next", ofWord s.next)]

def DelaySlot.ofJson? (j : Json) : Option DelaySlot := do
  let ms ← j.members?
  return {
    address := ← ms.required "address" Json.word?
    next := ← ms.required "next" Json.word? }

def Section.toJson (s : Section) : Json :=
  .obj
    [("name", .str s.name), ("address", ofWord s.address),
      ("bytes", ofList (fun b => Json.int b.toNat) s.bytes.toList)]

def Section.ofJson? (j : Json) : Option Section := do
  let ms ← j.members?
  return {
    name := ← ms.required "name" Json.string?
    address := ← ms.required "address" Json.word?
    bytes := (← ms.orElse "bytes" (Json.list? Json.byte?) []).toArray }

def RecordKind.toJson : RecordKind → Json
  | plain => .str "class"
  | single => .str "single_inheritance"
  | multiple => .str "virtual_multiple_inheritance"

def RecordKind.ofJson? : Json → Option RecordKind :=
  Json.name?
    [("class", plain), ("single_inheritance", single), ("virtual_multiple_inheritance", multiple)]

def RecordTable.toJson (t : RecordTable) : Json :=
  .obj [("address", ofWord t.address), ("kind", t.kind.toJson)]

def RecordTable.ofJson? (j : Json) : Option RecordTable := do
  let ms ← j.members?
  return {
    address := ← ms.required "address" Json.word?
    kind := ← ms.required "kind" RecordKind.ofJson? }

def ProgramSnapshot.toJson (s : ProgramSnapshot) : Json :=
  .obj
    [("config", ofOption AnalysisConfig.toJson s.config),
      ("functions", ofList FunctionInfo.toJson s.functions),
      ("references", ofList Reference.toJson s.references),
      ("high_functions", ofList FunctionBody.toJson s.bodies),
      ("register_constants", ofList RegisterConstant.toJson s.registerConstants),
      ("delay_slots", ofList DelaySlot.toJson s.delaySlots),
      ("decompile_failures", ofList ofWord s.decompileFailures),
      ("sections", ofList Section.toJson s.sections),
      ("typeinfo_vtables", ofList RecordTable.toJson s.recordTables),
      ("classes", ofList ClassType.toJson s.classes)]

/-- Reads a snapshot.  Everything in it may be missing. -/
def ProgramSnapshot.ofJson? (j : Json) : Option ProgramSnapshot := do
  let ms ← j.members?
  let all {α : Type} (key : String) (item? : Json → Option α) : Option (List α) :=
    ms.orElse key (Json.list? item?) []
  return {
    config := ← ms.optional "config" AnalysisConfig.ofJson?
    functions := ← all "functions" FunctionInfo.ofJson?
    references := ← all "references" Reference.ofJson?
    bodies := ← all "high_functions" FunctionBody.ofJson?
    registerConstants := ← all "register_constants" RegisterConstant.ofJson?
    delaySlots := ← all "delay_slots" DelaySlot.ofJson?
    decompileFailures := ← all "decompile_failures" Json.word?
    sections := ← all "sections" Section.ofJson?
    recordTables := ← all "typeinfo_vtables" RecordTable.ofJson?
    classes := ← all "classes" ClassType.ofJson? }

/-- The text that a snapshot is saved as. -/
def ProgramSnapshot.text (s : ProgramSnapshot) : String := s.toJson.pretty

/-- The snapshot that a text holds. -/
def ProgramSnapshot.ofText? (text : String) : Option ProgramSnapshot :=
  (Json.parse text).bind ProgramSnapshot.ofJson?

/-- The settings that a text holds. -/
def AnalysisConfig.ofText? (text : String) : Option AnalysisConfig :=
  (Json.parse text).bind AnalysisConfig.ofJson?

/-! ## Overrides -/

def CallSiteOverride.toJson (o : CallSiteOverride) : Json :=
  .obj
    [("call_site", ofWord o.callSite), ("name", .str o.name), ("category", .str o.category),
      ("prototype", o.prototype.toJson)]

def CallSiteOverride.ofJson? (j : Json) : Option CallSiteOverride := do
  let ms ← j.members?
  return {
    callSite := ← ms.required "call_site" Json.word?
    name := ← ms.required "name" Json.string?
    category := ← ms.required "category" Json.string?
    prototype := ← ms.required "prototype" Prototype.ofJson? }

end ClassRecovery
