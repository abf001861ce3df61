/-
  Programs under analysis.

  Of several entries of a snapshot for one function, body, register or delay slot the last one counts.
-/
import ClassRecovery.Error
import ClassRecovery.OrderedMap
import ClassRecovery.Program.Snapshot
import ClassRecovery.Register

namespace ClassRecovery

/-- A program, arranged for looking things up. -/
structure Program where
  functions : OrderedMap Address FunctionInfo := .empty
  references : List Reference := []
  bodies : OrderedMap Address FunctionBody := .empty
  /-- By address, then by register name in small letters. -/
  constants : OrderedMap Address (OrderedMap String Word) := .empty
  delaySlots : OrderedMap Address Address := .empty
  decompileFailures : OrderedSet Address := .empty
  sections : List Section := []
  recordTables : List RecordTable := []
  classes : List ClassType := []

namespace Program

/-! ## Making programs -/

def addFunction (p : Program) (f : FunctionInfo) : Program :=
  { p with functions := p.functions.insert f.entry f }

def addReference (p : Program) (r : Reference) : Program :=
  { p with references := p.references ++ [r] }

def addBody (p : Program) (b : FunctionBody) : Program :=
  { p with bodies := p.bodies.insert b.entry b }

def addConstant (p : Program) (c : RegisterConstant) : Program :=
  let known := (p.constants.get? c.address).getD .empty
  { p with
    constants := p.constants.insert c.address (known.insert (lowerAscii c.register) c.value) }

def addDelaySlot (p : Program) (s : DelaySlot) : Program :=
  { p with delaySlots := p.delaySlots.insert s.address s.next }

def addDecompileFailure (p : Program) (entry : Address) : Program :=
  { p with decompileFailures := p.decompileFailures.add entry }

def addSection (p : Program) (s : Section) : Program := { p with sections := p.sections ++ [s] }

def addRecordTable (p : Program) (t : RecordTable) : Program :=
  { p with recordTables := p.recordTables ++ [t] }

def addClass (p : Program) (c : ClassType) : Program := { p with classes := p.classes ++ [c] }

/-- The program of a snapshot; the settings in the snapshot are not part of it. -/
def ofSnapshot (s : ProgramSnapshot) : Program :=
  let p : Program :=
    { references := s.references
      sections := s.sections
      recordTables := s.recordTables
      classes := s.classes }
  let p := s.functions.foldl addFunction p
  let p := s.bodies.foldl addBody p
  let p := s.registerConstants.foldl addConstant p
  let p := s.delaySlots.foldl addDelaySlot p
  s.decompileFailures.foldl addDecompileFailure p

/-! ## Looking things up -/

/-- The function with the given entry. -/
def functionAt? (p : Program) (address : Address) : Option FunctionInfo := p.functions.get? address

/-- The function with the last entry that is not behind the address, if its body contains the address. -/
def functionContaining? (p : Program) (address : Address) : Option FunctionInfo :=
  ((p.functions.floor? address).map (·.2)).filter (·.contains address)

/-- The functions of the given name, by address. -/
def functionsNamed (p : Program) (name : String) : List FunctionInfo :=
  p.functions.values.filter fun f => f.name == name

/-- The references to an address. -/
def referencesTo (p : Program) (address : Address) : List Reference :=
  p.references.filter fun r => r.target == address

/-- The first instruction behind the delay slots of another. -/
def afterDelaySlots? (p : Program) (address : Address) : Option Address :=
  p.delaySlots.get? address

/-- The decompiled body of the function with the given entry. -/
def body (p : Program) (entry : Address) : Except HostError FunctionBody :=
  if p.decompileFailures.contains entry then
    .error (.decompile entry "decompiler reported a failure")
  else match p.bodies.get? entry with
    | some b => .ok b
    | none => .error (.decompile entry "no decompiled body")

/-- The value that a register is known to hold before the instruction at an address. -/
def constant? (p : Program) (address : Address) (r : Register) : Option Word :=
  (p.constants.get? address).bind fun known => known.get? r.name

end Program

end ClassRecovery
