import Mathlib.Data.Int.ModEq
import Mathlib.Data.List.Count
import Mathlib.Data.List.Nodup
import Mathlib.Data.List.Perm.Subperm

/-!
Turns handed out in a ring. Any window over whole rounds gives everybody the same number
of turns, and any other window at most one more to some.
-/

namespace RoundRobin

/-- The places served in the turns `first`, `first + 1` and so on. -/
def turns (places first count : Nat) : List Nat :=
  (List.range count).map fun turn => (first + turn) % places

theorem turns_append (places first count more : Nat) :
    turns places first (count + more) =
      turns places first count ++ turns places (first + count) more := by
  unfold turns
  rw [List.range_add, List.map_append, List.map_map]
  rw [List.append_cancel_left_eq]
  apply List.map_congr_left
  intro turn _
  rw [Function.comp, Nat.add_assoc]

/-- Nobody has a second turn before a round is over. -/
theorem turns_nodup {places count : Nat} (first : Nat) (short : count ≤ places) :
    (turns places first count).Nodup := by
  apply List.Nodup.map_on _ List.nodup_range
  intro left leftMember right rightMember same
  have leftBound := List.mem_range.mp leftMember
  have rightBound := List.mem_range.mp rightMember
  have equal : left % places = right % places := Nat.ModEq.add_left_cancel' first same
  rwa [Nat.mod_eq_of_lt (by omega), Nat.mod_eq_of_lt (by omega)] at equal

/-- A round serves every place. -/
theorem turns_round {places : Nat} (first : Nat) (positive : 0 < places) :
    (turns places first places).Perm (List.range places) := by
  have inside : turns places first places ⊆ List.range places := by
    intro place member
    obtain ⟨turn, _, rfl⟩ := List.mem_map.mp member
    exact List.mem_range.mpr (Nat.mod_lt _ positive)
  apply (List.subperm_of_subset (turns_nodup first (Nat.le_refl places)) inside).perm_of_length_le
  rw [turns, List.length_map, List.length_range]

theorem count_turns_round {places place : Nat} (first : Nat) (served : place < places) :
    (turns places first places).count place = 1 := by
  rw [(turns_round first (by omega)).count_eq]
  exact List.count_eq_one_of_mem List.nodup_range (List.mem_range.mpr served)

/-- Whatever the window, a place has its share of turns or one more. -/
theorem count_turns {places place : Nat} (first count : Nat) (served : place < places) :
    count / places ≤ (turns places first count).count place ∧
      (turns places first count).count place ≤ count / places + 1 := by
  induction count using Nat.strong_induction_on generalizing first with
  | _ count induction =>
      by_cases short : count < places
      · rw [Nat.div_eq_of_lt short]
        exact ⟨Nat.zero_le _, List.nodup_iff_count_le_one.mp (turns_nodup first (by omega)) place⟩
      · obtain ⟨rest, rfl⟩ := Nat.exists_eq_add_of_le (Nat.not_lt.mp short)
        have later := induction rest (by omega) (first + places)
        rw [turns_append, List.count_append, count_turns_round first served,
          Nat.add_div_left rest (by omega)]
        omega

end RoundRobin
