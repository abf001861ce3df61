/-
  Where the walk from a callee along its thunks ends.

  The walk keeps the addresses that it comes to, and stays where it has been before (`Program.Settles`).  As there are
  finitely many functions, it ends before fuel runs out (`Program.settles_resolveThunkWithin`), at one address only,
  and that is what resolving gives (`Program.settles_iff`).
-/
import ClassRecovery.Attribution.Candidates
import ClassRecovery.Proofs.OrderedMap

namespace ClassRecovery

namespace Program

/-- The walk from an address to the address behind its thunks, with the addresses that were come to.  It stays
    at one of them, and where there is no thunk. -/
inductive Settles (p : Program) : List Address → Address → Address → Prop where
  | again {visited : List Address} {address : Address} (h : address ∈ visited) :
    Settles p visited address address
  | arrived {visited : List Address} {address : Address} (fresh : address ∉ visited)
    (h : (p.functionAt? address).bind (·.thunkTarget) = none) : Settles p visited address address
  | thunk {visited : List Address} {address next last : Address} (fresh : address ∉ visited)
    (isThunk : (p.functionAt? address).bind (·.thunkTarget) = some next)
    (rest : Settles p (address :: visited) next last) : Settles p visited address last

variable {p : Program} {visited : List Address} {address last last' : Address}

/-- **The walk to an address ends** before the fuel does: it has fuel for each function that was not come to. -/
theorem settles_resolveThunkWithin {fuel : Nat} (hnodup : visited.Nodup)
    (hknown : ∀ v ∈ visited, (p.functionAt? v).isSome = true)
    (hfuel : p.functions.size < fuel + visited.length) :
    p.Settles visited address (p.resolveThunkWithin visited fuel address) := by
  induction fuel generalizing visited address with
  | zero =>
    have hle : visited.length ≤ p.functions.size := OrderedMap.length_le_size hnodup hknown
    omega
  | succ fuel ih =>
    unfold resolveThunkWithin
    split
    · next hmem => exact .again (List.contains_iff_mem.mp hmem)
    · next hfresh =>
      rw [List.contains_iff_mem] at hfresh
      split
      · next hnone => exact .arrived hfresh hnone
      · next next hthunk =>
        obtain ⟨f, hf, -⟩ := Option.bind_eq_some_iff.mp hthunk
        refine .thunk hfresh hthunk (ih (List.nodup_cons.mpr ⟨hfresh, hnodup⟩) ?_ ?_)
        · exact List.forall_mem_cons.mpr ⟨by rw [hf]; rfl, hknown⟩
        · rw [List.length_cons]
          omega

theorem settles_resolveThunk (p : Program) (address : Address) :
    p.Settles [] address (p.resolveThunk address) :=
  settles_resolveThunkWithin .nil (by simp) (by simp)

theorem Settles.unique (h : p.Settles visited address last) (h' : p.Settles visited address last') :
    last = last' := by
  induction h with
  | again hmem =>
    cases h' with
    | again | arrived => rfl
    | thunk hfresh => exact absurd hmem hfresh
  | arrived hfresh hnone =>
    cases h' with
    | again | arrived => rfl
    | thunk _ hthunk => cases hnone.symm.trans hthunk
  | thunk hfresh hthunk _ ih =>
    cases h' with
    | again hmem => exact absurd hmem hfresh
    | arrived _ hnone => cases hnone.symm.trans hthunk
    | thunk _ hthunk' hrest =>
      obtain rfl := Option.some.inj (hthunk.symm.trans hthunk')
      exact ih hrest

/-- **Where the walk ends** is what resolving gives. -/
theorem settles_iff : p.Settles [] address last ↔ p.resolveThunk address = last :=
  ⟨(p.settles_resolveThunk address).unique, fun h => h ▸ p.settles_resolveThunk address⟩

end Program

end ClassRecovery
