import Serial2Redis.Library.DelimitedRuns
import Serial2Redis.Library.Transducer

/-!
Machines that read up to a delimiter and may fail there. Where the state is a function
of the run read so far, a whole stream gives what its ended runs give, up to the first
of them that fails.
-/

namespace RunReader

open Transducer DelimitedRuns

variable {α State Output Error : Type*}

/-- A step that can fail, as a machine that does nothing more once it has failed. -/
def attempt (step : State → α → Except Error (State × List Output)) :
    Except Error State → α → Except Error State × List Output
  | .error error, _ => (.error error, [])
  | .ok state, input =>
      match step state input with
      | .error error => (.error error, [])
      | .ok (next, outputs) => (.ok next, outputs)

theorem feed_attempt_error (step : State → α → Except Error (State × List Output))
    (error : Error) (inputs : List α) :
    feed (attempt step) (.error error) inputs = (.error error, []) := by
  induction inputs with
  | nil => rfl
  | cons input inputs induction =>
      rw [feed_cons]
      simp only [attempt, induction, List.append_nil]

/-- Every run that a delimiter ends, with that delimiter; `run` is what was read before. -/
def endedRuns (delimits : α → Bool) : List α → List α → List (List α × α)
  | _, [] => []
  | run, element :: rest =>
      if delimits element then (run, element) :: endedRuns delimits [] rest
      else endedRuns delimits (run ++ [element]) rest

variable {delimits : α → Bool}

theorem ended_runs_cons (run piece rest : List α) (clean : Clean delimits piece) (delimiter : α)
    (ends : delimits delimiter = true) :
    endedRuns delimits run (piece ++ delimiter :: rest) =
      (run ++ piece, delimiter) :: endedRuns delimits [] rest := by
  induction piece generalizing run with
  | nil => rw [List.nil_append, endedRuns, if_pos ends, List.append_nil]
  | cons element piece induction =>
      have inside : ¬delimits element = true := by
        rw [clean element List.mem_cons_self]
        exact Bool.false_ne_true
      have later := induction (run ++ [element]) fun other member =>
        clean other (List.mem_cons_of_mem _ member)
      rw [List.cons_append, endedRuns, if_neg inside, later, List.append_assoc,
        List.singleton_append]

/-- The outputs of the items before the first that fails, and how that one fails. -/
def upToFailure (handle : α → Except Error (List Output)) : List α → Option Error × List Output
  | [] => (none, [])
  | item :: rest =>
      match handle item with
      | .error error => (some error, [])
      | .ok outputs =>
          ((upToFailure handle rest).1, outputs ++ (upToFailure handle rest).2)

theorem up_to_failure_append (handle : α → Except Error (List Output)) (before after : List α) :
    upToFailure handle (before ++ after) =
      match (upToFailure handle before).1 with
      | some error => (some error, (upToFailure handle before).2)
      | none => ((upToFailure handle after).1,
          (upToFailure handle before).2 ++ (upToFailure handle after).2) := by
  induction before with
  | nil => rfl
  | cons item before induction =>
      rw [List.cons_append, upToFailure, upToFailure, induction]
      cases handle item with
      | error error => rfl
      | ok outputs => cases (upToFailure handle before).1 <;> simp

theorem up_to_failure_congr (left right : α → Except Error (List Output)) (items : List α)
    (agree : ∀ item ∈ items, left item = right item) :
    upToFailure left items = upToFailure right items := by
  induction items with
  | nil => rfl
  | cons item rest induction =>
      rw [upToFailure, upToFailure, agree item List.mem_cons_self,
        induction fun other member => agree other (List.mem_cons_of_mem _ member)]

/-- Items that fail by a test that can be made beforehand. -/
theorem up_to_failure_eq (handle : α → Except Error (List Output)) (works : α → Bool)
    (output : α → List Output) (failure : α → Error) (items : List α)
    (success : ∀ item ∈ items, works item = true → handle item = .ok (output item))
    (failing : ∀ item ∈ items, works item = false → handle item = .error (failure item)) :
    upToFailure handle items =
      ((items.find? fun item => !works item).map failure,
        (items.takeWhile works).flatMap output) := by
  induction items with
  | nil => rfl
  | cons item rest induction =>
      cases passes : works item with
      | true =>
          have later := induction
            (fun other member => success other (List.mem_cons_of_mem _ member))
            (fun other member => failing other (List.mem_cons_of_mem _ member))
          rw [upToFailure, success item List.mem_cons_self passes,
            List.takeWhile_cons_of_pos passes, List.flatMap_cons,
            List.find?_cons_of_neg (by simp [passes]), later]
      | false =>
          rw [upToFailure, failing item List.mem_cons_self passes,
            List.takeWhile_cons_of_neg (by simp [passes]),
            List.find?_cons_of_pos (by simp [passes])]
          rfl

theorem up_to_failure_map {β : Type*} (handle : β → Except Error (List Output)) (function : α → β)
    (items : List α) :
    upToFailure handle (items.map function) = upToFailure (handle ∘ function) items := by
  induction items with
  | nil => rfl
  | cons item rest induction =>
      rw [List.map_cons, upToFailure, upToFailure, induction]
      rfl

theorem up_to_failure_filter (handle : α → Except Error (List Output)) (counts : α → Bool)
    (ignored : ∀ item, counts item = false → handle item = .ok []) (items : List α) :
    upToFailure handle (items.filter counts) = upToFailure handle items := by
  induction items with
  | nil => rfl
  | cons item rest induction =>
      cases counted : counts item with
      | true => rw [List.filter_cons_of_pos counted, upToFailure, upToFailure, induction]
      | false =>
          rw [List.filter_cons_of_neg (by simp [counted]), induction, upToFailure,
            ignored item counted]
          rfl

/-- Where the state after a run depends on that run alone, a stream leaves the state of
its open run and puts out what its ended runs give, up to the first that fails. -/
theorem feed_runs (step : State → α → Except Error (State × List Output))
    (within : List α → State) (handle : List α × α → Except Error (List Output))
    (inside : ∀ run element, delimits element = false →
      step (within run) element = .ok (within (run ++ [element]), []))
    (ends : ∀ run element, delimits element = true →
      step (within run) element = (handle (run, element)).map fun outputs => (within [], outputs))
    (run stream : List α) (clean : Clean delimits run) :
    feed (attempt step) (.ok (within run)) stream =
      (match (upToFailure handle (endedRuns delimits run stream)).1 with
        | some error => .error error
        | none => .ok (within (openRun delimits (run ++ stream))),
        (upToFailure handle (endedRuns delimits run stream)).2) := by
  induction stream generalizing run with
  | nil =>
      rw [List.append_nil, open_run_clean run clean]
      rfl
  | cons element rest induction =>
      cases delimiter : delimits element with
      | false =>
          have later := induction (run ++ [element]) (clean.push delimiter)
          rw [List.append_assoc, List.singleton_append] at later
          rw [feed_cons, attempt, inside run element delimiter, later, endedRuns,
            if_neg (by simp [delimiter]), List.nil_append]
      | true =>
          rw [feed_cons, attempt, ends run element delimiter, endedRuns, if_pos delimiter,
            upToFailure]
          cases result : handle (run, element) with
          | error error =>
              simp only [Except.map, feed_attempt_error, List.append_nil]
          | ok outputs =>
              simp only [Except.map]
              rw [induction [] Clean.nil, List.nil_append,
                open_run_cons run rest clean element delimiter]

end RunReader
