/-
  Resolving classes: computing the offset tables of a class and of all classes it is derived from.

  Tables that are known already are used again.  A class that is met while its own table is being computed
  inherits from itself and has no table.  What was computed before a failure is kept.
-/
import ClassRecovery.Offsets.Placement
import ClassRecovery.OrderedMap

namespace ClassRecovery

/-- Classes with their bases, and the target they are laid out for. -/
structure Hierarchy where
  abi : Abi
  pointerSize : Word
  classes : OrderedMap ClassId ClassType

/-- The offset tables known so far, the latest first. -/
abbrev OffsetMemo := List BaseOffsetTable

def OffsetMemo.find? (memo : OffsetMemo) (id : ClassId) : Option BaseOffsetTable :=
  List.find? (fun t => t.owner == id) memo

/-- What resolving a class gives, and the tables known afterwards. -/
abbrev Resolver := ClassId → OffsetMemo → Except ModelError BaseOffsetTable × OffsetMemo

/-- Resolves direct bases in order of declaration, up to the first that fails. -/
def resolveBases (resolve : Resolver) :
    List BaseSpec → OffsetMemo → Except ModelError (List BasePart) × OffsetMemo
  | [], memo => (.ok [], memo)
  | spec :: rest, memo =>
    match resolve spec.base memo with
    | (.error e, memo) => (.error e, memo)
    | (.ok table, memo) =>
      let (parts, memo) := resolveBases resolve rest memo
      (parts.map (⟨spec, table⟩ :: ·), memo)

namespace Hierarchy

/-- Resolves a class while those in `pending` are being resolved. -/
def resolveWithin (h : Hierarchy) : Nat → List ClassId → Resolver
  | 0, _, id, memo => (.error (.cyclicInheritance id), memo)
  | fuel + 1, pending, id, memo =>
    match memo.find? id with
    | some table => (.ok table, memo)
    | none =>
      if pending.contains id then (.error (.cyclicInheritance id), memo)
      else match h.classes.get? id with
        | none => (.error (.unknownClass id), memo)
        | some c =>
          match resolveBases (h.resolveWithin fuel (id :: pending)) c.bases memo with
          | (.error e, memo) => (.error e, memo)
          | (.ok parts, memo) =>
            -- the table is that of the listed identity, whatever the class says of itself
            match { c with id }.offsetTable h.abi h.pointerSize parts memo.find? with
            | .error e => (.error e, memo)
            | .ok table => (.ok table, table :: memo)

/-- Resolves a class.  The classes being resolved are all different, so there are never more of
    them than classes. -/
def resolve (h : Hierarchy) : Resolver := h.resolveWithin (h.classes.size + 1) []

end Hierarchy

end ClassRecovery
