/-
  Target architectures, byte orders, and what can be wrong with the description of a target.
-/
import ClassRecovery.Text.Quoted

namespace ClassRecovery

/-- The processor architectures whose registers are known. -/
inductive Architecture where
  | x86_64
  | x86
  | arm64
  | riscV64
  | mips32
  deriving DecidableEq, Repr

/-- The order of the bytes of a number in memory. -/
inductive ByteOrder where
  | little
  | big
  deriving DecidableEq, Repr

namespace Architecture

/-- The bytes of a pointer. -/
def pointerSize : Architecture → Word
  | x86_64 | arm64 | riscV64 => 8
  | x86 | mips32 => 4

/-- The name shown to the user. -/
def name : Architecture → String
  | x86_64 => "x86_64"
  | x86 => "x86"
  | arm64 => "arm64"
  | riscV64 => "riscv64"
  | mips32 => "mips32"

end Architecture

/-- What is wrong with the description of a target. -/
inductive TargetError where
  /-- Pointers of this many bytes cannot be read. -/
  | unsupportedPointerSize (size : Word)
  /-- The architecture has no register of this name. -/
  | unknownRegister (arch : Architecture) (name : String)
  deriving DecidableEq, Repr

def TargetError.message : TargetError → String
  | unsupportedPointerSize size => "unsupported pointer size: " ++ toString size.toNat ++ " bytes"
  | unknownRegister arch name => "unknown register " ++ quoted name ++ " for " ++ arch.name

end ClassRecovery
