/-
  The two C++ ABIs, and what depends on them.
-/
import ClassRecovery.CType

namespace ClassRecovery

/-- The ABI the program was compiled for. -/
inductive Abi where
  | itanium
  | msvc
  deriving DecidableEq, Repr

namespace Abi

/-- The ABI of the given name.  Compilers name their ABI; capital letters count as small ones. -/
def ofName? (text : String) : Option Abi :=
  let name := lowerAscii text
  if name = "itanium" || name = "gcc" || name = "clang" then some .itanium
  else if name = "msvc" || name = "microsoft" then some .msvc
  else none

/-- What is said about a name that no ABI has. -/
def unknownNameMessage (text : String) : String := "unknown ABI: " ++ lowerAscii text

/-- The name of the virtual pointer field. -/
def virtualPointerName : Abi → String
  | itanium => "_vptr"
  | msvc => "_vfptr"

/-- The name of the virtual base pointer field. -/
def virtualBasePointerName : Abi → String
  | itanium | msvc => "_vbptr"

/-- Whether classes with virtual bases carry a virtual base pointer. -/
def usesVirtualBasePointer : Abi → Bool
  | itanium => false
  | msvc => true

/-- The usual name of the dynamic-cast routine. -/
def castEntryName : Abi → String
  | itanium => "__dynamic_cast"
  | msvc => "__RTDynamicCast"

/-- The positions of the source and the destination descriptor among the parameters of the
    dynamic-cast routine. -/
def descriptorPositions : Abi → Nat × Nat
  | itanium => (1, 2)
  | msvc => (2, 3)

/-- The name of the record type of a descriptor of unknown kind. -/
def defaultDescriptorType : Abi → String
  | itanium => "__class_type_info"
  | msvc => "TypeDescriptor"

/-- The prototype of the dynamic-cast routine under the given name. -/
def castPrototype (abi : Abi) (name : String) (pointerSize : Word) : Prototype :=
  match abi with
  | itanium =>
    { name
      returnType := .voidPointer
      parameters :=
        [("src_ptr", .voidPointer), ("src_type", .pointer (.named "__class_type_info")),
          ("dst_type", .pointer (.named "__class_type_info")), ("src2dst", .ptrdiff pointerSize)] }
  | msvc =>
    { name
      returnType := .voidPointer
      parameters :=
        [("inptr", .voidPointer), ("VfDelta", .synonym "long" .signedInt),
          ("SrcType", .voidPointer), ("TargetType", .voidPointer), ("isReference", .signedInt)] }

end Abi

end ClassRecovery
