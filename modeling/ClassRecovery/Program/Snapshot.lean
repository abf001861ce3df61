/-
  Snapshots: all that the analyses use of a program, as lists.

  A snapshot is what is stored; a `Program` is what is made of it for looking things up.
-/
import ClassRecovery.Class
import ClassRecovery.Config
import ClassRecovery.Program.Function
import ClassRecovery.Rtti.Descriptor

namespace ClassRecovery

/-- A section of raw data. -/
structure Section where
  name : String
  address : Address
  bytes : Array UInt8 := #[]
  deriving DecidableEq

namespace Section

/-- The address behind the last byte. -/
def stop (s : Section) : Address := saturatingAdd s.address (UInt64.ofNat s.bytes.size)

/-- Whether the address is that of a byte of the section. -/
def covers (s : Section) (address : Address) : Bool := s.address ≤ address && address < s.stop

/-- The bytes of the section. -/
def region (s : Section) : Region := Region.ofBytes s.bytes

end Section

/-- The value that a register is known to hold before an instruction. -/
structure RegisterConstant where
  address : Address
  register : String
  value : Word
  deriving DecidableEq, Repr

/-- The instruction behind the delay slots of another. -/
structure DelaySlot where
  address : Address
  next : Address
  deriving DecidableEq, Repr

/-- The table of virtual functions that marks the records of one kind. -/
structure RecordTable where
  address : Address
  kind : RecordKind
  deriving DecidableEq, Repr

/-- A program, as far as the analyses need it. -/
structure ProgramSnapshot where
  config : Option AnalysisConfig := none
  functions : List FunctionInfo := []
  references : List Reference := []
  bodies : List FunctionBody := []
  registerConstants : List RegisterConstant := []
  delaySlots : List DelaySlot := []
  /-- The functions that cannot be decompiled. -/
  decompileFailures : List Address := []
  sections : List Section := []
  recordTables : List RecordTable := []
  /-- Classes that are described directly; they replace discovered ones. -/
  classes : List ClassType := []

end ClassRecovery
