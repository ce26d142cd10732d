import Mathlib.Data.List.Basic

/-!
Searching a list from both ends: the first place where a pattern occurs, and the last
place where a letter does.
-/

namespace ListSearch

variable {α : Type*} [DecidableEq α]

def firstOccurrence (pattern : List α) : List α → Option Nat
  | [] => if pattern = [] then some 0 else none
  | letter :: rest =>
      if pattern <+: letter :: rest then some 0
      else (firstOccurrence pattern rest).map (· + 1)

def lastIndex (wanted : α) : List α → Option Nat
  | [] => none
  | letter :: rest =>
      match lastIndex wanted rest with
      | some index => some (index + 1)
      | none => if letter = wanted then some 0 else none

theorem first_occurrence_zero_iff (pattern source : List α) :
    firstOccurrence pattern source = some 0 ↔ pattern <+: source := by
  cases source with
  | nil => simp [firstOccurrence]
  | cons letter rest =>
      rw [firstOccurrence]
      by_cases here : pattern <+: letter :: rest
      · simp [here]
      · simp [here]

theorem last_index_none_iff (wanted : α) (source : List α) :
    lastIndex wanted source = none ↔ wanted ∉ source := by
  induction source with
  | nil => simp [lastIndex]
  | cons letter rest induction =>
      rw [lastIndex, List.mem_cons, not_or, ← induction]
      cases lastIndex wanted rest with
      | some index => simp
      | none => simp [eq_comm]

theorem last_index_some_iff (wanted : α) (source : List α) (index : Nat) :
    lastIndex wanted source = some index ↔
      source[index]? = some wanted ∧ wanted ∉ source.drop (index + 1) := by
  induction source generalizing index with
  | nil => simp [lastIndex]
  | cons letter rest induction =>
      have absent := last_index_none_iff wanted rest
      rw [lastIndex, List.drop_succ_cons]
      cases index with
      | zero =>
          rw [List.drop_zero, ← absent]
          cases lastIndex wanted rest with
          | some later => simp
          | none => simp
      | succ index =>
          rw [List.getElem?_cons_succ, ← induction]
          cases lastIndex wanted rest with
          | some later => simp
          | none => simp

end ListSearch
