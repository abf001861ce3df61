/-
  The general purpose registers, which carry the arguments of calls.

  A register is known by its number; the number is its position in the table of its architecture.
-/
import ClassRecovery.Architecture
import ClassRecovery.Text.Blank

namespace ClassRecovery

/-- A general purpose register.  Numbers outside the table of the architecture are allowed, they
    have no name. -/
structure Register where
  arch : Architecture
  id : UInt16
  deriving DecidableEq, Repr

namespace Architecture

/-- The names of the registers, in order of their numbers. -/
def registerNames : Architecture → List String
  | x86_64 =>
    ["rax", "rcx", "rdx", "rbx", "rsp", "rbp", "rsi", "rdi",
      "r8", "r9", "r10", "r11", "r12", "r13", "r14", "r15"]
  | x86 => ["eax", "ecx", "edx", "ebx", "esp", "ebp", "esi", "edi"]
  | arm64 => (List.range 31).map (fun n => "x" ++ toString n) ++ ["sp"]
  | riscV64 =>
    ["zero", "ra", "sp", "gp", "tp", "t0", "t1", "t2", "s0", "s1",
      "a0", "a1", "a2", "a3", "a4", "a5", "a6", "a7",
      "s2", "s3", "s4", "s5", "s6", "s7", "s8", "s9", "s10", "s11", "t3", "t4", "t5", "t6"]
  | mips32 =>
    ["zero", "at", "v0", "v1", "a0", "a1", "a2", "a3", "t0", "t1", "t2", "t3", "t4", "t5", "t6", "t7",
      "s0", "s1", "s2", "s3", "s4", "s5", "s6", "s7", "t8", "t9", "k0", "k1", "gp", "sp", "fp", "ra"]

end Architecture

namespace Register

/-- The register of the given name, whose ASCII letters may be capital or small. -/
def ofName? (arch : Architecture) (name : String) : Except TargetError Register :=
  match arch.registerNames.findIdx? (· == lowerAscii name) with
  | some i => .ok ⟨arch, UInt16.ofNat i⟩
  | none => .error (.unknownRegister arch name)

def name (r : Register) : String := r.arch.registerNames.getD r.id.toNat "unknown"

/-- The bits of the register. -/
def bits (r : Register) : Word := r.arch.pointerSize * 8

end Register

end ClassRecovery
