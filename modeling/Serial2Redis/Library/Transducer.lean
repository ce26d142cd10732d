import Mathlib.Data.List.Basic

/-!
Machines that read one letter at a time and may emit any number of outputs per
letter. How a stream is cut into chunks cannot matter to such a machine, and an
invariant of one letter is an invariant of every stream.
-/

namespace Transducer

variable {State Input Output Other : Type*}

def feed (step : State → Input → State × List Output) : State → List Input → State × List Output
  | state, [] => (state, [])
  | state, input :: rest =>
      ((feed step (step state input).1 rest).1,
        (step state input).2 ++ (feed step (step state input).1 rest).2)

@[simp] theorem feed_nil (step : State → Input → State × List Output) (state : State) :
    feed step state [] = (state, []) := rfl

theorem feed_cons (step : State → Input → State × List Output) (state : State) (input : Input)
    (rest : List Input) :
    feed step state (input :: rest) =
      ((feed step (step state input).1 rest).1,
        (step state input).2 ++ (feed step (step state input).1 rest).2) := rfl

theorem feed_append (step : State → Input → State × List Output) (state : State)
    (left right : List Input) :
    feed step state (left ++ right) =
      ((feed step (feed step state left).1 right).1,
        (feed step state left).2 ++ (feed step (feed step state left).1 right).2) := by
  induction left generalizing state with
  | nil => simp
  | cons input left induction =>
      rw [List.cons_append, feed_cons, induction, feed_cons]
      simp only [List.append_assoc]

/-- Feeding chunk after chunk is feeding the whole stream at once. -/
theorem feed_chunks (step : State → Input → State × List Output) (state : State)
    (chunks : List (List Input)) :
    feed (feed step) state chunks = feed step state chunks.flatten := by
  induction chunks generalizing state with
  | nil => rfl
  | cons chunk chunks induction =>
      rw [feed_cons, induction, List.flatten_cons, feed_append]

theorem feed_invariant (step : State → Input → State × List Output) (invariant : State → Prop)
    (preserved : ∀ state input, invariant state → invariant (step state input).1)
    (state : State) (inputs : List Input) (holds : invariant state) :
    invariant (feed step state inputs).1 := by
  induction inputs generalizing state with
  | nil => exact holds
  | cons input inputs induction => exact induction _ (preserved state input holds)

theorem feed_state (step : State → Input → State × List Output) (state : State)
    (inputs : List Input) :
    (feed step state inputs).1 =
      inputs.foldl (fun state input => (step state input).1) state := by
  induction inputs generalizing state with
  | nil => rfl
  | cons input inputs induction => exact induction (step state input).1

/-- An output of a stream is an output of one letter, in the state the letters before
it lead to. -/
theorem feed_output (step : State → Input → State × List Output) (state : State)
    (inputs : List Input) (output : Output) (emitted : output ∈ (feed step state inputs).2) :
    ∃ before input, before ++ [input] <+: inputs ∧
      output ∈ (step (feed step state before).1 input).2 := by
  induction inputs generalizing state with
  | nil => exact absurd emitted List.not_mem_nil
  | cons first inputs induction =>
      rw [feed_cons] at emitted
      rcases List.mem_append.mp emitted with now | later
      · exact ⟨[], first, ⟨inputs, rfl⟩, now⟩
      · obtain ⟨before, input, reached, output⟩ := induction (step state first).1 later
        exact ⟨first :: before, input, (List.prefix_cons_inj first).mpr reached, output⟩

/-- Codes that each give back what they encode and leave the state as it was can be
sent one after the other. -/
theorem feed_codes (step : State → Input → State × List Output) (state : State)
    (encode : Output → List Input) (outputs : List Output)
    (decoded : ∀ output ∈ outputs, feed step state (encode output) = (state, [output])) :
    feed step state (outputs.flatMap encode) = (state, outputs) := by
  induction outputs with
  | nil => rfl
  | cons output outputs induction =>
      have later := induction fun other member => decoded other (List.mem_cons_of_mem _ member)
      rw [List.flatMap_cons, feed_append, decoded output List.mem_cons_self, later]
      rfl

end Transducer
