import Mathlib.Data.List.Infix

/-!
The runs of a stream between the elements that delimit it, and the last block and the
open block of a run that is cut into blocks of one size. A stream splits into the runs a delimiter
has ended and one open run at its end.
-/

namespace DelimitedRuns

variable {α : Type*} (delimits : α → Bool)

/-- The nonempty runs that a delimiter has ended, in order. -/
def completeRuns (stream : List α) : List (List α) :=
  (stream.splitOnP delimits).dropLast.filter fun run => !run.isEmpty

/-- What follows the last delimiter. -/
def openRun (stream : List α) : List α :=
  (stream.splitOnP delimits).getLast (List.splitOnP_ne_nil delimits stream)

def Clean (run : List α) : Prop := ∀ element ∈ run, delimits element = false

variable {delimits}

theorem Clean.nil : Clean delimits [] := fun _ member => absurd member List.not_mem_nil

theorem Clean.append {left right : List α} (first : Clean delimits left)
    (second : Clean delimits right) : Clean delimits (left ++ right) := by
  intro element member
  rcases List.mem_append.mp member with earlier | later
  · exact first element earlier
  · exact second element later

theorem Clean.push {run : List α} (clean : Clean delimits run) {element : α}
    (inside : delimits element = false) : Clean delimits (run ++ [element]) := by
  apply clean.append
  intro other member
  rwa [List.mem_singleton.mp member]

theorem complete_runs_clean (run : List α) (clean : Clean delimits run) :
    completeRuns delimits run = [] := by
  rw [completeRuns, List.splitOnP_eq_singleton clean]
  rfl

theorem open_run_clean (run : List α) (clean : Clean delimits run) :
    openRun delimits run = run := by
  unfold openRun
  simp only [List.splitOnP_eq_singleton clean, List.getLast_singleton]

theorem complete_runs_cons (run rest : List α) (clean : Clean delimits run) (delimiter : α)
    (ends : delimits delimiter = true) :
    completeRuns delimits (run ++ delimiter :: rest) =
      (if run = [] then [] else [run]) ++ completeRuns delimits rest := by
  rw [completeRuns, List.splitOnP_append_cons_of_forall_mem clean delimiter ends,
    List.dropLast_cons_of_ne_nil (List.splitOnP_ne_nil delimits rest), List.filter_cons]
  cases run <;> rfl

theorem open_run_cons (run rest : List α) (clean : Clean delimits run) (delimiter : α)
    (ends : delimits delimiter = true) :
    openRun delimits (run ++ delimiter :: rest) = openRun delimits rest := by
  unfold openRun
  simp only [List.splitOnP_append_cons_of_forall_mem clean delimiter ends]
  exact List.getLast_cons (List.splitOnP_ne_nil delimits rest)

/-- Every run is a clean piece of the stream. -/
theorem runs_are_pieces (delimits : α → Bool) (stream : List α) :
    (∀ run ∈ completeRuns delimits stream, run ≠ [] ∧ run <:+: stream ∧ Clean delimits run) ∧
      openRun delimits stream <:+: stream ∧ Clean delimits (openRun delimits stream) := by
  have collected : ∀ run, Clean delimits run →
      (∀ piece ∈ completeRuns delimits (run ++ stream),
        piece ≠ [] ∧ piece <:+: run ++ stream ∧ Clean delimits piece) ∧
      openRun delimits (run ++ stream) <:+: run ++ stream ∧
        Clean delimits (openRun delimits (run ++ stream)) := by
    induction stream with
    | nil =>
        intro run clean
        rw [List.append_nil, complete_runs_clean run clean, open_run_clean run clean]
        exact ⟨by simp, List.infix_rfl, clean⟩
    | cons element rest induction =>
        intro run clean
        by_cases ends : delimits element = true
        · have later := induction [] Clean.nil
          rw [List.nil_append] at later
          have inside : rest <:+: run ++ element :: rest := ⟨run ++ [element], [], by simp⟩
          rw [complete_runs_cons run rest clean element ends,
            open_run_cons run rest clean element ends]
          refine ⟨?_, later.2.1.trans inside, later.2.2⟩
          intro piece member
          rcases List.mem_append.mp member with first | other
          · by_cases empty : run = []
            · simp [empty] at first
            · rw [if_neg empty, List.mem_singleton] at first
              rw [first]
              exact ⟨empty, (List.prefix_append run _).isInfix, clean⟩
          · obtain ⟨nonempty, within, piecesClean⟩ := later.1 piece other
            exact ⟨nonempty, within.trans inside, piecesClean⟩
        · have step := induction (run ++ [element]) (clean.push (by simpa using ends))
          rwa [List.append_assoc, List.singleton_append] at step
  exact collected [] Clean.nil

/-- The end of a run cut into blocks of `size`: what a buffer holds that is emptied
whenever it is full and one more element arrives. -/
def lastBlock (size : Nat) (run : List α) : List α := run.drop ((run.length - 1) / size * size)

theorem last_block_length (size : Nat) (run : List α) (nonempty : run ≠ []) :
    (lastBlock size run).length = (run.length - 1) % size + 1 := by
  have positive := List.length_pos_of_ne_nil nonempty
  have division := Nat.div_add_mod' (run.length - 1) size
  rw [lastBlock, List.length_drop]
  omega

theorem last_block_length_le (size : Nat) (positive : 0 < size) (run : List α) :
    (lastBlock size run).length ≤ size := by
  by_cases empty : run = []
  · subst empty
    simp [lastBlock]
  · rw [last_block_length size run empty]
    exact Nat.mod_lt _ positive

theorem last_block_eq_self (size : Nat) (run : List α) (small : run.length ≤ size) :
    lastBlock size run = run := by
  cases run with
  | nil => exact List.drop_nil
  | cons element rest =>
      rw [List.length_cons] at small
      rw [lastBlock, List.length_cons, Nat.add_sub_cancel, Nat.div_eq_of_lt small, Nat.zero_mul,
        List.drop_zero]

theorem last_block_nonempty (size : Nat) (run : List α) (nonempty : run ≠ []) :
    lastBlock size run ≠ [] := by
  intro empty
  have length := last_block_length size run nonempty
  rw [empty, List.length_nil] at length
  omega

/-- One more element fills the current block exactly when the next one starts. -/
theorem next_block_start (size : Nat) (positive : 0 < size) (index : Nat) :
    (index + 1) / size * size =
      if index % size + 1 = size then index + 1 else index / size * size := by
  have division := Nat.div_add_mod' index size
  have bounded := Nat.mod_lt index positive
  rw [Nat.succ_div]
  by_cases full : index % size + 1 = size
  · have divides : size ∣ index + 1 := ⟨index / size + 1, by rw [Nat.mul_add, Nat.mul_comm]; omega⟩
    rw [if_pos divides, if_pos full, Nat.add_mul]
    omega
  · have remains : ¬size ∣ index + 1 := by
      intro divides
      have split : index + 1 = index / size * size + (index % size + 1) := by omega
      rw [split] at divides
      have short := (Nat.dvd_add_right (Nat.dvd_mul_left size _)).mp divides
      have large := Nat.le_of_dvd (Nat.succ_pos _) short
      omega
    rw [if_neg remains, if_neg full, Nat.add_zero]

theorem last_block_append (size : Nat) (positive : 0 < size) (run : List α) (element : α) :
    lastBlock size (run ++ [element]) =
      if (lastBlock size run).length = size then [element]
      else lastBlock size run ++ [element] := by
  by_cases empty : run = []
  · subst empty
    rw [List.nil_append, last_block_eq_self size [element] positive,
      last_block_eq_self size [] (Nat.zero_le size)]
    exact (if_neg positive.ne).symm
  · have length := List.length_pos_of_ne_nil empty
    have predecessor : run.length = run.length - 1 + 1 := by omega
    have start := next_block_start size positive (run.length - 1)
    rw [← predecessor] at start
    rw [last_block_length size run empty, lastBlock, List.length_append, List.length_singleton,
      Nat.add_sub_cancel, start]
    by_cases full : (run.length - 1) % size + 1 = size
    · rw [if_pos full, if_pos full, List.drop_left]
    · rw [if_neg full, if_neg full, List.drop_append_of_le_length]
      · rfl
      · exact (Nat.div_mul_le_self _ _).trans (Nat.sub_le _ _)

theorem last_block_full (size blocks : Nat) (positive : 0 < size) (run : List α)
    (whole : run.length = (blocks + 1) * size) : (lastBlock size run).length = size := by
  have filled : run ≠ [] := by
    intro empty
    rw [empty, List.length_nil, Nat.add_mul] at whole
    omega
  have last : run.length - 1 = size - 1 + blocks * size := by
    rw [whole, Nat.add_mul]
    omega
  rw [last_block_length size run filled, last, Nat.add_mul_mod_self_right,
    Nat.mod_eq_of_lt (by omega)]
  omega

/-- From anywhere in a run the current block is full at most `size` elements later. -/
theorem next_full_block (size : Nat) (positive : 0 < size) (length : Nat) :
    ∃ count ≤ size, length + count = (length / size + 1) * size := by
  have division := Nat.div_add_mod' length size
  have bounded := Nat.mod_lt length positive
  refine ⟨size - length % size, Nat.sub_le _ _, ?_⟩
  rw [Nat.add_mul]
  omega

/-- What a buffer holds that is emptied as soon as it has `size` elements. -/
def openBlock (size : Nat) (run : List α) : List α := run.drop (run.length / size * size)

theorem open_block_length (size : Nat) (run : List α) :
    (openBlock size run).length = run.length % size := by
  have division := Nat.div_add_mod' run.length size
  rw [openBlock, List.length_drop]
  omega

theorem open_block_length_lt (size : Nat) (positive : 0 < size) (run : List α) :
    (openBlock size run).length < size := by
  rw [open_block_length]
  exact Nat.mod_lt _ positive

theorem open_block_eq_self (size : Nat) (run : List α) (small : run.length < size) :
    openBlock size run = run := by
  rw [openBlock, Nat.div_eq_of_lt small, Nat.zero_mul, List.drop_zero]

theorem open_block_append (size : Nat) (positive : 0 < size) (run : List α) (element : α) :
    openBlock size (run ++ [element]) =
      if (openBlock size run).length + 1 = size then [] else openBlock size run ++ [element] := by
  rw [open_block_length, openBlock, List.length_append, List.length_singleton,
    next_block_start size positive run.length]
  by_cases full : run.length % size + 1 = size
  · rw [if_pos full, if_pos full]
    exact List.drop_eq_nil_of_le (by rw [List.length_append, List.length_singleton])
  · rw [if_neg full, if_neg full, List.drop_append_of_le_length (Nat.div_mul_le_self _ _)]
    rfl

end DelimitedRuns
