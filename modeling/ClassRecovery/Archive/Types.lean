/-
  Types, layouts and the store of layouts as JSON.
-/
import ClassRecovery.Json.Decoder
import ClassRecovery.TypeDatabase

namespace ClassRecovery

open Json (ofWord ofSigned ofOption ofList)

/-! ## C types -/

def CType.toJson : CType → Json
  | void => .str "void"
  | int size signed => .obj [("int", .obj [("size", ofWord size), ("signed", .bool signed)])]
  | pointer target => .obj [("pointer", target.toJson)]
  | array element length =>
    .obj [("array", .obj [("element", element.toJson), ("length", ofOption ofWord length)])]
  | synonym name target =>
    .obj [("typedef", .obj [("name", .str name), ("target", target.toJson)])]
  | named name => .obj [("named", .str name)]

theorem sizeOf_lt_of_find? {ms : Json.Members} {key : String} {j : Json}
    (h : ms.find? key = some (some j)) : sizeOf j < sizeOf ms := by
  unfold Json.Members.find? at h
  split at h
  · simp at h
  · next m hm =>
    have hj : m.2 = j := by simpa using h
    have hmem : m ∈ ms := (List.mem_filter.mp (hm ▸ List.mem_singleton_self m)).1
    have := List.sizeOf_lt_of_mem hmem
    have hm : sizeOf m = 1 + sizeOf m.1 + sizeOf m.2 := by cases m; rfl
    rw [← hj]
    omega
  · simp at h

/-- Reads a type.  `isUnit` says what may be the value of `void`, if it is given one. -/
def CType.ofJsonWith? (isUnit : Json → Bool) : Json → Option CType
  | .str name => if name = "void" then some void else none
  | .obj [("void", value)] => if isUnit value then some void else none
  | .obj [("int", value)] => do
    let ms ← value.members?
    return int (← ms.required "size" Json.word?) (← ms.required "signed" Json.bool?)
  | .obj [("pointer", value)] => (CType.ofJsonWith? isUnit value).map pointer
  | .obj [("array", .obj ms)] => do
    let length ← Json.Members.optional ms "length" Json.word?
    match _h : Json.Members.find? ms "element" with
    | some (some j) => return array (← CType.ofJsonWith? isUnit j) length
    | _ => none
  | .obj [("typedef", .obj ms)] => do
    let name ← Json.Members.required ms "name" Json.string?
    match _h : Json.Members.find? ms "target" with
    | some (some j) => return synonym name (← CType.ofJsonWith? isUnit j)
    | _ => none
  | .obj [("named", value)] => value.string?.map named
  | _ => none
termination_by j => sizeOf j
decreasing_by
  · simp; omega
  all_goals
    have := sizeOf_lt_of_find? _h
    simp
    omega

/-- Reads a type that stands for itself. -/
def CType.ofJson? : Json → Option CType := CType.ofJsonWith? Json.isNull

/-! ## Prototypes -/

def Prototype.toJson (p : Prototype) : Json :=
  .obj
    [("name", .str p.name), ("return_type", p.returnType.toJson),
      ("parameters", ofList (fun q => .arr [.str q.1, q.2.toJson]) p.parameters),
      ("variadic", .bool p.variadic)]

def Prototype.ofJson? (j : Json) : Option Prototype := do
  let ms ← j.members?
  return {
    name := ← ms.required "name" Json.string?
    returnType := ← ms.required "return_type" CType.ofJson?
    parameters := ← ms.required "parameters" (Json.list? (Json.pair? Json.string? CType.ofJson?))
    variadic := ← ms.required "variadic" Json.bool? }

/-! ## Layouts -/

def FieldKind.toJson : FieldKind → Json
  | undefined => .obj [("kind", .str "undefined")]
  | virtualPointer table =>
    .obj [("kind", .str "virtual_pointer"), ("table", ofOption Json.str table)]
  | virtualBasePointer => .obj [("kind", .str "virtual_base_pointer")]
  | base layout => .obj [("kind", .str "base"), ("class", .str layout)]
  | member type => .obj [("kind", .str "member"), ("ty", type.toJson)]

/-- Reads a kind.  Its members are looked at in any order, so all of them have to be readable, and
    an object without members passes for `null` where that is all there can be. -/
def FieldKind.ofJson? (j : Json) : Option FieldKind := do
  guard j.isReadable
  let ms ← j.members?
  match ← ms.required "kind" Json.string? with
  | "undefined" => some undefined
  | "virtual_pointer" => (ms.optional "table" Json.string?).map virtualPointer
  | "virtual_base_pointer" => some virtualBasePointer
  | "base" => (ms.required "class" Json.string?).map base
  | "member" => (ms.required "ty" (CType.ofJsonWith? Json.isVoid)).map member
  | _ => none

def Field.toJson (f : Field) : Json :=
  .obj
    [("name", .str f.name), ("offset", ofWord f.offset), ("size", ofWord f.size),
      ("kind", f.kind.toJson)]

def Field.ofJson? (j : Json) : Option Field := do
  let ms ← j.members?
  return {
    name := ← ms.required "name" Json.string?
    offset := ← ms.required "offset" Json.word?
    size := ← ms.required "size" Json.word?
    kind := ← ms.required "kind" FieldKind.ofJson? }

def Layout.toJson (l : Layout) : Json :=
  .obj
    [("name", .str l.name), ("fields", ofList Field.toJson l.fields), ("size", ofWord l.size),
      ("alignment", ofWord l.alignment)]

def Layout.ofJson? (j : Json) : Option Layout := do
  let ms ← j.members?
  return {
    name := ← ms.required "name" Json.string?
    fields := ← ms.required "fields" (Json.list? Field.ofJson?)
    size := ← ms.required "size" Json.word?
    alignment := ← ms.required "alignment" Json.word? }

/-! ## The store of layouts -/

def TypeDatabase.toJson (db : TypeDatabase) : Json :=
  .obj [("layouts", .obj (db.layouts.entries.map fun e => (e.1, e.2.toJson)))]

/-- The entry of one layout, under the key it is registered under. -/
def TypeDatabase.entry? (m : String × Json) : Option (String × Layout) :=
  (Layout.ofJson? m.2).map fun l => (m.1, l)

def TypeDatabase.ofJson? (j : Json) : Option TypeDatabase := do
  let ms ← j.members?
  let layouts ← ms.required "layouts" Json.members?
  return ⟨.ofList (← layouts.mapM TypeDatabase.entry?)⟩

end ClassRecovery
