/-
  Candidates: the functions that may be constructors or destructors of a class.

  These are the functions that refer to the class's table of virtual functions, each
  taken to the end of its chain of thunks.
-/
import ClassRecovery.Model
import ClassRecovery.Program.Basic

namespace ClassRecovery

/-! ## Thunks -/

namespace Program

/-- The function at the end of a chain of thunks, if the chain ends.  Each thunk spends
    fuel. -/
def followThunksWithin (p : Program) : Nat → FunctionInfo → Option FunctionInfo
  | 0, _ => none
  | fuel + 1, f =>
    match f.thunkTarget with
    | none => some f
    | some target => (p.functionAt? target).bind (p.followThunksWithin fuel)

/-- The function at the end of a chain of thunks, if there is one: a chain that visits more functions than
    there are runs in a circle. -/
def followThunks (p : Program) (f : FunctionInfo) : Option FunctionInfo :=
  p.followThunksWithin (p.functions.size + 1) f

/-- The address at the end of a chain of thunks, or where the chain comes to an address that was
    visited. -/
def resolveThunkWithin (p : Program) (visited : List Address) : Nat → Address → Address
  | 0, address => address
  | fuel + 1, address =>
    if visited.contains address then address
    else match (p.functionAt? address).bind (·.thunkTarget) with
      | none => address
      | some target => p.resolveThunkWithin (address :: visited) fuel target

/-- The address behind a callee, past any number of thunks.  The visited addresses are different, and all but the
    last are those of functions. -/
def resolveThunk (p : Program) (address : Address) : Address :=
  p.resolveThunkWithin [] (p.functions.size + 2) address

end Program

/-! ## Candidates -/

/-- A function that may be a constructor or destructor. -/
structure Candidate where
  function : Address
  role : FunctionRole
  deriving DecidableEq, Repr

namespace Vtable

/-- The addresses in the storage of the table at which a pointer begins. -/
def pointerAddresses (v : Vtable) (pointerSize : Word) : List Address :=
  let start := (v.storageStart pointerSize).toNat
  let stop := (v.storageStop pointerSize).toNat
  let step := max pointerSize.toNat 1
  (List.range ((stop - start + step - 1) / step)).map fun k => UInt64.ofNat (start + k * step)

/-- The role in which a function refers to the table: a destructor stands in it. -/
def roleOf (v : Vtable) (function : Address) : FunctionRole :=
  if v.containsFunction function then .destructor else .constructor

end Vtable

namespace Program

/-- The functions, at the ends of their chains of thunks, that refer to data at an address. -/
def functionsReferringTo (p : Program) (address : Address) : List FunctionInfo :=
  ((p.referencesTo address).filter (·.kind.isData)).filterMap fun r =>
    (p.functionContaining? r.source).bind p.followThunks

/-- The candidates of a class, by address.  Functions with a signature from the user are left alone. -/
def candidates (p : Program) (pointerSize : Word) (c : ClassType) : List Candidate :=
  match c.validVtable? with
  | none => []
  | some v =>
    let found := ((v.pointerAddresses pointerSize).flatMap p.functionsReferringTo).filter fun f =>
      !f.isUserDefined
    let byEntry : OrderedMap Address Candidate :=
      .ofList (found.map fun f => (f.entry, ⟨f.entry, v.roleOf f.entry⟩))
    byEntry.values

end Program

/-- Whether a class can be analysed: it has bases and a table, and its bases are different known classes. -/
def ClassModel.checkAnalyzable (m : ClassModel) (id : ClassId) : Except Rejection Unit :=
  match m.get? id with
  | none => .error (.structural (.unknownClass id))
  | some c =>
    if c.bases.isEmpty then .error .noBases
    else if c.validVtable?.isNone then .error .noVtable
    else if m.knownParents id < c.bases.length then
      .error (.ambiguousParents c.bases.length (m.knownParents id))
    else .ok ()

end ClassRecovery
