/-
  Classes, tables of virtual functions, type descriptors and offset tables as JSON.
-/
import ClassRecovery.Class
import ClassRecovery.Json.Decoder
import ClassRecovery.Offsets.Table
import ClassRecovery.Progress
import ClassRecovery.Rtti.Descriptor

namespace ClassRecovery

open Json (ofWord ofSigned ofFloat ofOption ofList)

/-! ## Tables of virtual functions -/

def ThunkInfo.toJson (t : ThunkInfo) : Json :=
  .obj [("this_adjustment", ofSigned t.adjustment), ("target_function", ofWord t.target)]

def ThunkInfo.ofJson? (j : Json) : Option ThunkInfo := do
  let ms ← j.members?
  return {
    adjustment := ← ms.required "this_adjustment" Json.signed?
    target := ← ms.required "target_function" Json.word? }

def VtableEntry.toJson (e : VtableEntry) : Json :=
  .obj
    [("offset", ofWord e.offset), ("target", ofWord e.target),
      ("name", ofOption Json.str e.name), ("is_pure_virtual", .bool e.isPure),
      ("thunk", ofOption ThunkInfo.toJson e.thunk)]

def VtableEntry.ofJson? (j : Json) : Option VtableEntry := do
  let ms ← j.members?
  return {
    offset := ← ms.required "offset" Json.word?
    target := ← ms.required "target" Json.word?
    name := ← ms.optional "name" Json.string?
    isPure := ← ms.orElse "is_pure_virtual" Json.bool? false
    thunk := ← ms.optional "thunk" ThunkInfo.ofJson? }

def Vtable.toJson (v : Vtable) : Json :=
  .obj
    [("address", ofWord v.address), ("owner", ofOption ofWord v.owner),
      ("typeinfo_addr", ofOption ofWord v.descriptor),
      ("offset_to_top", ofOption ofSigned v.offsetToTop),
      ("entries", ofList VtableEntry.toJson v.entries), ("is_primary", .bool v.isPrimary),
      ("confidence", ofFloat v.confidence)]

def Vtable.ofJson? (j : Json) : Option Vtable := do
  let ms ← j.members?
  return {
    address := ← ms.required "address" Json.word?
    owner := ← ms.optional "owner" Json.word?
    descriptor := ← ms.optional "typeinfo_addr" Json.word?
    offsetToTop := ← ms.optional "offset_to_top" Json.signed?
    entries := ← ms.required "entries" (Json.list? VtableEntry.ofJson?)
    isPrimary := ← ms.orElse "is_primary" Json.bool? true
    confidence := ← ms.orElse "confidence" Json.float? 0 }

/-! ## Classes -/

/-- How a base is inherited. -/
def inheritanceNames : List (String × Bool) := [("non_virtual", false), ("virtual", true)]

/-- Writes a base.  Only a recorded offset is written. -/
def BaseSpec.toJson (b : BaseSpec) : Json :=
  .obj
    ([("class", ofWord b.base),
      ("inheritance", .str (if b.isVirtual then "virtual" else "non_virtual")),
      ("is_public", .bool b.isPublic)] ++
        b.offset.elim [] fun offset => [("offset", ofWord offset)])

def BaseSpec.ofJson? (j : Json) : Option BaseSpec := do
  let ms ← j.members?
  return {
    base := ← ms.required "class" Json.word?
    isVirtual := ← ms.orElse "inheritance" (Json.name? inheritanceNames) false
    isPublic := ← ms.orElse "is_public" Json.bool? true
    offset := ← ms.optional "offset" Json.word? }

def ClassType.toJson (c : ClassType) : Json :=
  .obj
    [("id", ofWord c.id), ("name", .str c.name), ("bases", ofList BaseSpec.toJson c.bases),
      ("vtable", ofOption Vtable.toJson c.vtable), ("member_size", ofWord c.memberSize),
      ("member_align", ofWord c.memberAlign),
      ("descriptor_type", ofOption Json.str c.descriptorType)]

def ClassType.ofJson? (j : Json) : Option ClassType := do
  let ms ← j.members?
  return {
    id := ← ms.required "id" Json.word?
    name := ← ms.required "name" Json.string?
    bases := ← ms.orElse "bases" (Json.list? BaseSpec.ofJson?) []
    vtable := ← ms.optional "vtable" Vtable.ofJson?
    memberSize := ← ms.orElse "member_size" Json.word? 0
    memberAlign := ← ms.orElse "member_align" Json.word? 1
    descriptorType := ← ms.optional "descriptor_type" Json.string? }

/-! ## Type descriptors -/

def BaseFlags.toJson (f : BaseFlags) : Json :=
  .obj
    [("is_virtual", .bool f.isVirtual), ("is_public", .bool f.isPublic), ("raw", ofWord f.raw)]

def BaseFlags.ofJson? (j : Json) : Option BaseFlags := do
  let ms ← j.members?
  return {
    isVirtual := ← ms.required "is_virtual" Json.bool?
    isPublic := ← ms.required "is_public" Json.bool?
    raw := ← ms.required "raw" Json.word? }

def HierarchyFlags.toJson (f : HierarchyFlags) : Json :=
  .obj
    [("non_diamond_repeat_mask", .bool f.repeated), ("diamond_shaped_mask", .bool f.diamond),
      ("raw", .int f.raw.toNat)]

def HierarchyFlags.ofJson? (j : Json) : Option HierarchyFlags := do
  let ms ← j.members?
  return {
    repeated := ← ms.required "non_diamond_repeat_mask" Json.bool?
    diamond := ← ms.required "diamond_shaped_mask" Json.bool?
    raw := ← ms.required "raw" Json.word32? }

def BaseRecord.toJson (b : BaseRecord) : Json :=
  .obj
    [("typeinfo_addr", ofWord b.descriptor), ("type_name", ofOption Json.str b.name),
      ("offset", ofSigned b.offset), ("flags", b.flags.toJson)]

def BaseRecord.ofJson? (j : Json) : Option BaseRecord := do
  let ms ← j.members?
  return {
    descriptor := ← ms.required "typeinfo_addr" Json.word?
    name := ← ms.optional "type_name" Json.string?
    offset := ← ms.required "offset" Json.signed?
    flags := ← ms.required "flags" BaseFlags.ofJson? }

def DescriptorKind.toJson : DescriptorKind → Json
  | noBase => .obj [("kind", .str "no_base")]
  | single base => .obj [("kind", .str "single_inheritance"), ("base", base.toJson)]
  | multiple flags bases =>
    .obj
      [("kind", .str "virtual_multiple_inheritance"), ("flags", flags.toJson),
        ("bases", ofList BaseRecord.toJson bases)]
  | unknown => .obj [("kind", .str "unknown")]

/-- Reads a kind.  Its members are looked at in any order, so all of them have to be readable. -/
def DescriptorKind.ofJson? (j : Json) : Option DescriptorKind := do
  guard j.isReadable
  let ms ← j.members?
  match ← ms.required "kind" Json.string? with
  | "no_base" => some noBase
  | "single_inheritance" => (ms.required "base" BaseRecord.ofJson?).map single
  | "virtual_multiple_inheritance" =>
    return multiple (← ms.required "flags" HierarchyFlags.ofJson?)
      (← ms.required "bases" (Json.list? BaseRecord.ofJson?))
  | "unknown" => some unknown
  | _ => none

def TypeDescriptor.toJson (d : TypeDescriptor) : Json :=
  .obj
    [("address", ofWord d.address), ("name", .str d.name), ("mangled_name", .str d.mangledName),
      ("kind", d.kind.toJson), ("vtable_addr", ofWord d.vtable)]

def TypeDescriptor.ofJson? (j : Json) : Option TypeDescriptor := do
  let ms ← j.members?
  return {
    address := ← ms.required "address" Json.word?
    name := ← ms.required "name" Json.string?
    mangledName := ← ms.required "mangled_name" Json.string?
    kind := ← ms.required "kind" DescriptorKind.ofJson?
    vtable := ← ms.required "vtable_addr" Json.word? }

/-! ## Offset tables -/

def BaseSubobject.toJson (s : BaseSubobject) : Json :=
  .obj
    [("class", ofWord s.base), ("offset", ofWord s.offset), ("is_virtual", .bool s.isVirtual),
      ("in_virtual_base", .bool s.inVirtualBase), ("paths", ofList (ofList ofWord) s.paths)]

def BaseOffsetTable.toJson (t : BaseOffsetTable) : Json :=
  .obj
    [("class", ofWord t.owner), ("entries", ofList BaseSubobject.toJson t.entries),
      ("primary_base", ofOption ofWord t.primaryBase),
      ("vptr_offset", ofOption ofWord t.vptrOffset), ("owns_vptr", .bool t.ownsVptr),
      ("vbptr_offset", ofOption ofWord t.vbptrOffset), ("owns_vbptr", .bool t.ownsVbptr),
      ("members_offset", ofWord t.membersOffset), ("nv_size", ofWord t.nvSize),
      ("nv_align", ofWord t.nvAlign), ("size", ofWord t.size), ("align", ofWord t.align)]

/-! ## Attribution -/

def FunctionRole.toJson (r : FunctionRole) : Json := .str r.name

def FunctionRole.ofJson? : Json → Option FunctionRole :=
  Json.name? [("constructor", constructor), ("destructor", destructor)]

def AttributionState.toJson : AttributionState → Json
  | notAnalyzed => .str "not_analyzed"
  | analyzing => .str "analyzing"
  | attributed => .str "attributed_ok"
  | rejected => .str "rejected"

def AttributionState.ofJson? : Json → Option AttributionState :=
  Json.name?
    [("not_analyzed", notAnalyzed), ("analyzing", analyzing), ("attributed_ok", attributed),
      ("rejected", rejected)]

def AttributedFunction.toJson (f : AttributedFunction) : Json :=
  .obj
    [("function", ofWord f.function), ("class", ofWord f.owner),
      ("is_destructor", .bool (f.role == .destructor))]

end ClassRecovery
