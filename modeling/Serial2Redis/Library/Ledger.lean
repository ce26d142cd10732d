import Mathlib.Data.List.Count
import Mathlib.Data.List.Nodup

/-!
A ledger of resources that are acquired and released. `held` replays it, newest
entry first, and fails as soon as something is released that was not held; a ledger
that replays has every acquisition released once or still held.
-/

namespace Ledger

variable {Resource : Type*} [DecidableEq Resource]

inductive Entry (Resource : Type*) where
  | acquired (resource : Resource)
  | released (resource : Resource)
  deriving DecidableEq

/-- What is held after the entries. -/
def held : List (Entry Resource) → Option (List Resource)
  | [] => some []
  | .acquired resource :: earlier => (held earlier).map (resource :: ·)
  | .released resource :: earlier =>
      (held earlier).bind fun kept =>
        if resource ∈ kept then some (kept.erase resource) else none

theorem held_acquired {earlier : List (Entry Resource)} {kept : List Resource}
    (replayed : held earlier = some kept) (resource : Resource) :
    held (.acquired resource :: earlier) = some (resource :: kept) := by
  rw [held, replayed]
  rfl

theorem held_released {earlier : List (Entry Resource)} {resource : Resource}
    {kept : List Resource} (replayed : held earlier = some (resource :: kept)) :
    held (.released resource :: earlier) = some kept := by
  rw [held, replayed]
  simp

/-- Acquisitions are released or held: the count balances for each resource. -/
theorem acquired_balance (entries : List (Entry Resource)) (kept : List Resource)
    (replayed : held entries = some kept) (resource : Resource) :
    entries.count (.acquired resource) =
      entries.count (.released resource) + kept.count resource := by
  induction entries generalizing kept with
  | nil =>
      cases replayed
      rfl
  | cons entry earlier induction =>
      cases entry with
      | acquired other =>
          rw [held, Option.map_eq_some_iff] at replayed
          obtain ⟨before, replayed, rfl⟩ := replayed
          have balance := induction before replayed
          simp only [List.count_cons, beq_iff_eq, Entry.acquired.injEq, reduceCtorEq, if_false]
          omega
      | released other =>
          rw [held, Option.bind_eq_some_iff] at replayed
          obtain ⟨before, replayed, taken⟩ := replayed
          have balance := induction before replayed
          by_cases member : other ∈ before
          · rw [if_pos member, Option.some.injEq] at taken
            subst taken
            simp only [List.count_cons, beq_iff_eq, Entry.released.injEq, reduceCtorEq, if_false,
              List.count_erase]
            by_cases same : other = resource
            · subst same
              have present := List.count_pos_iff.mpr member
              simp only [if_true]
              omega
            · simp only [same, if_false]
              omega
          · rw [if_neg member] at taken
            cases taken

/-- Where each acquisition of a resource but its first is refused, none is refused exactly
when nothing is acquired twice. -/
theorem refused_nil_iff {Item : Type*} [BEq Item] [LawfulBEq Item] (acquired refused : List Item)
    (reported : ∀ resource, refused.count resource = acquired.count resource - 1) :
    refused = [] ↔ acquired.Nodup := by
  rw [List.nodup_iff_count_le_one]
  constructor
  · intro none resource
    have count := reported resource
    rw [none, List.count_nil] at count
    omega
  · intro once
    apply List.eq_nil_iff_forall_not_mem.mpr
    intro resource member
    have positive := List.count_pos_iff.mpr member
    have count := reported resource
    have bound := once resource
    omega

end Ledger
