import Mathlib.Data.List.Basic

/-!
Runs of a state machine over a list of events. A condition on single steps, given
the state before the step, is carried through a whole run by `Admits`; the rules
turn what one step preserves into what every run preserves.
-/

namespace GuardedRun

variable {State Event : Type*}

def run (step : State → Event → State) (start : State) (events : List Event) : State :=
  events.foldl step start

/-- Every step of the run meets the condition in the state it starts from. -/
def Admits (step : State → Event → State) (condition : State → Event → Prop) :
    State → List Event → Prop
  | _, [] => True
  | state, event :: rest =>
      condition state event ∧ Admits step condition (step state event) rest

@[simp] theorem run_cons (step : State → Event → State) (start : State) (event : Event)
    (rest : List Event) :
    run step start (event :: rest) = run step (step start event) rest := rfl

theorem admits_append_singleton (step : State → Event → State)
    (condition : State → Event → Prop) (start : State) (events : List Event) (last : Event) :
    Admits step condition start (events ++ [last]) ↔
      Admits step condition start events ∧ condition (run step start events) last := by
  induction events generalizing start with
  | nil => simp [Admits, run]
  | cons event events induction =>
      rw [List.cons_append, Admits, Admits, induction, run_cons, and_assoc]

theorem admitted_run_invariant (step : State → Event → State)
    (condition : State → Event → Prop) (invariant : State → Prop)
    (preserved : ∀ state event, invariant state → condition state event →
      invariant (step state event))
    (start : State) (events : List Event) (holds : invariant start)
    (admitted : Admits step condition start events) : invariant (run step start events) := by
  induction events generalizing start with
  | nil => exact holds
  | cons event events induction =>
      exact induction _ (preserved start event holds admitted.1) admitted.2

theorem run_invariant (step : State → Event → State) (invariant : State → Prop)
    (preserved : ∀ state event, invariant state → invariant (step state event))
    (start : State) (events : List Event) (holds : invariant start) :
    invariant (run step start events) := by
  induction events generalizing start with
  | nil => exact holds
  | cons event events induction => exact induction _ (preserved start event holds)

/-- What an invariant gives for single steps it gives for every step of a run. -/
theorem admits_of_invariant (step : State → Event → State) (property : State → Event → Prop)
    (invariant : State → Prop)
    (preserved : ∀ state event, invariant state → invariant (step state event))
    (implied : ∀ state event, invariant state → property state event)
    (start : State) (events : List Event) (holds : invariant start) :
    Admits step property start events := by
  induction events generalizing start with
  | nil => trivial
  | cons event events induction =>
      exact ⟨implied start event holds, induction _ (preserved start event holds)⟩

/-- One condition gives another along every run if it does so for single steps
under an invariant that the admitted steps keep. -/
theorem admits_mono (step : State → Event → State) (condition property : State → Event → Prop)
    (invariant : State → Prop)
    (preserved : ∀ state event, invariant state → condition state event →
      invariant (step state event))
    (implied : ∀ state event, invariant state → condition state event → property state event)
    (start : State) (events : List Event) (holds : invariant start)
    (admitted : Admits step condition start events) : Admits step property start events := by
  induction events generalizing start with
  | nil => trivial
  | cons event events induction =>
      exact ⟨implied start event holds admitted.1,
        induction _ (preserved start event holds admitted.1) admitted.2⟩

/-- Two conditions that an invariant makes the same are met by the same runs. -/
theorem admits_congr (step : State → Event → State) (condition property : State → Event → Prop)
    (invariant : State → Prop)
    (preserved : ∀ state event, invariant state → invariant (step state event))
    (same : ∀ state event, invariant state → (condition state event ↔ property state event))
    (start : State) (events : List Event) (holds : invariant start) :
    Admits step condition start events ↔ Admits step property start events := by
  constructor
  · exact admits_mono step condition property invariant
      (fun state event holds _ => preserved state event holds)
      (fun state event holds => (same state event holds).mp) start events holds
  · exact admits_mono step property condition invariant
      (fun state event holds _ => preserved state event holds)
      (fun state event holds => (same state event holds).mpr) start events holds

/-- What a machine keeps beside the state of another one does not matter to a condition on
that state. -/
theorem admits_simulated {Abstract : Type*} (step : State → Event → State)
    (abstractStep : Abstract → Event → Abstract) (abstraction : State → Abstract)
    (condition : Abstract → Event → Prop)
    (simulated : ∀ state event,
      abstraction (step state event) = abstractStep (abstraction state) event)
    (start : State) (events : List Event) :
    Admits step (fun state event => condition (abstraction state) event) start events ↔
      Admits abstractStep condition (abstraction start) events := by
  induction events generalizing start with
  | nil => exact Iff.rfl
  | cons event events induction =>
      rw [Admits, Admits, induction, simulated]

/-- What holds of the events alone holds of each of them where it occurs. -/
theorem admits_and_forall (step : State → Event → State) (condition : State → Event → Prop)
    (property : Event → Prop) (start : State) (events : List Event)
    (every : ∀ event ∈ events, property event) (admitted : Admits step condition start events) :
    Admits step (fun state event => property event ∧ condition state event) start events := by
  induction events generalizing start with
  | nil => trivial
  | cons event events induction =>
      have others := fun other member => every other (List.mem_cons_of_mem _ member)
      exact ⟨⟨every event List.mem_cons_self, admitted.1⟩, induction _ others admitted.2⟩

/-- An invariant that a step keeps exactly under a condition holds in every state a
run reaches exactly when the run meets the condition throughout. -/
theorem reached_iff_admits (step : State → Event → State) (invariant : State → Prop)
    (condition : State → Event → Prop)
    (kept : ∀ state event, invariant state →
      (invariant (step state event) ↔ condition state event))
    (start : State) (events : List Event) (holds : invariant start) :
    (∀ before, before <+: events → invariant (run step start before)) ↔
      Admits step condition start events := by
  induction events generalizing start with
  | nil =>
      apply iff_of_true _ trivial
      intro before empty
      rw [List.prefix_nil.mp empty]
      exact holds
  | cons event events induction =>
      constructor
      · intro reached
        have first := reached [event] ⟨events, rfl⟩
        have admitted := (kept start event holds).mp first
        apply And.intro admitted
        apply (induction (step start event) first).mp
        intro before later
        exact reached (event :: before) ((List.prefix_cons_inj event).mpr later)
      · intro admitted before later
        have first := (kept start event holds).mpr admitted.1
        cases before with
        | nil => exact holds
        | cons other before =>
            rw [List.cons_prefix_cons] at later
            rw [later.1]
            exact (induction (step start event) first).mpr admitted.2 before later.2

/-- A property that follows from an invariant holds in every state a run reaches exactly
when the run meets the condition that keeps the invariant, if a step that does not meet it
breaks the property. -/
theorem reached_property_iff_admits (step : State → Event → State)
    (invariant property : State → Prop) (condition : State → Event → Prop)
    (gives : ∀ state, invariant state → property state)
    (preserved : ∀ state event, invariant state → condition state event →
      invariant (step state event))
    (forced : ∀ state event, invariant state → property (step state event) →
      condition state event)
    (start : State) (events : List Event) (holds : invariant start) :
    (∀ before, before <+: events → property (run step start before)) ↔
      Admits step condition start events := by
  induction events generalizing start with
  | nil =>
      apply iff_of_true _ trivial
      intro before empty
      rw [List.prefix_nil.mp empty]
      exact gives start holds
  | cons event events induction =>
      constructor
      · intro reached
        have admitted := forced start event holds (reached [event] ⟨events, rfl⟩)
        apply And.intro admitted
        apply (induction (step start event) (preserved start event holds admitted)).mp
        intro before later
        exact reached (event :: before) ((List.prefix_cons_inj event).mpr later)
      · intro admitted before later
        cases before with
        | nil => exact gives start holds
        | cons other before =>
            rw [List.cons_prefix_cons] at later
            rw [later.1]
            exact (induction (step start event) (preserved start event holds admitted.1)).mpr
              admitted.2 before later.2

section Outputs

variable {Item : Type*}

/-- What the steps of a run put out, in order; the output of a step depends on the
state it starts from. -/
def collected (step : State → Event → State) (output : State → Event → List Item) :
    State → List Event → List Item
  | _, [] => []
  | state, event :: rest => output state event ++ collected step output (step state event) rest

/-- A record that every step extends by its output holds the outputs of the run. -/
theorem recorded_outputs (step : State → Event → State) (output : State → Event → List Item)
    (record : State → List Item)
    (extended : ∀ state event, record (step state event) = record state ++ output state event)
    (start : State) (events : List Event) :
    record (run step start events) = record start ++ collected step output start events := by
  induction events generalizing start with
  | nil => exact (List.append_nil _).symm
  | cons event events induction =>
      rw [run_cons, induction, extended, List.append_assoc]
      rfl

/-- What holds of everything an admitted step puts out holds of everything a run puts out. -/
theorem admitted_collected (step : State → Event → State) (condition : State → Event → Prop)
    (invariant : State → Prop) (output : State → Event → List Item) (property : Item → Prop)
    (preserved : ∀ state event, invariant state → condition state event →
      invariant (step state event))
    (provided : ∀ state event, invariant state → condition state event →
      ∀ item ∈ output state event, property item)
    (start : State) (events : List Event) (holds : invariant start)
    (admitted : Admits step condition start events) :
    ∀ item ∈ collected step output start events, property item := by
  induction events generalizing start with
  | nil =>
      intro item member
      cases member
  | cons event events induction =>
      intro item member
      rcases List.mem_append.mp member with first | later
      · exact provided start event holds admitted.1 item first
      · exact induction _ (preserved start event holds admitted.1) admitted.2 item later

/-- A machine that another one follows step by step puts out the same. -/
theorem collected_simulated {Abstract : Type*} (step : State → Event → State)
    (output : State → Event → List Item) (abstractStep : Abstract → Event → Abstract)
    (abstractOutput : Abstract → Event → List Item) (related : State → Abstract → Prop)
    (follows : ∀ state other event, related state other →
      related (step state event) (abstractStep other event) ∧
        output state event = abstractOutput other event)
    (start : State) (other : Abstract) (events : List Event) (begins : related start other) :
    related (run step start events) (run abstractStep other events) ∧
      collected step output start events = collected abstractStep abstractOutput other events := by
  induction events generalizing start other with
  | nil => exact ⟨begins, rfl⟩
  | cons event events induction =>
      obtain ⟨next, same⟩ := follows start other event begins
      obtain ⟨final, rest⟩ := induction (step start event) (abstractStep other event) next
      exact ⟨final, by rw [collected, collected, same, rest]⟩

theorem collected_filter (step : State → Event → State) (output : State → Event → List Item)
    (selected : Item → Bool) (start : State) (events : List Event) :
    (collected step output start events).filter selected =
      collected step (fun state event => (output state event).filter selected) start events := by
  induction events generalizing start with
  | nil => rfl
  | cons event events induction => rw [collected, collected, List.filter_append, induction]

theorem collected_map {Image : Type*} (step : State → Event → State)
    (output : State → Event → List Item) (function : Item → Image) (start : State)
    (events : List Event) :
    (collected step output start events).map function =
      collected step (fun state event => (output state event).map function) start events := by
  induction events generalizing start with
  | nil => rfl
  | cons event events induction => rw [collected, collected, List.map_append, induction]

theorem collected_append_perm (step : State → Event → State)
    (left right : State → Event → List Item) (start : State) (events : List Event) :
    (collected step (fun state event => left state event ++ right state event) start events).Perm
      (collected step left start events ++ collected step right start events) := by
  induction events generalizing start with
  | nil => exact List.Perm.refl _
  | cons event events induction =>
      rw [collected, collected, collected]
      have rest := induction (step start event)
      have moved := rest.append_left (left start event ++ right start event)
      apply moved.trans
      rw [List.append_assoc, List.append_assoc]
      exact (List.perm_append_comm_assoc _ _ _).append_left _

/-- Where each step only moves items from what is held or put in to what is put out or
held, so does a run. -/
theorem collected_balance (step : State → Event → State) (invariant : State → Prop)
    (input output : State → Event → List Item) (kept : State → List Item)
    (preserved : ∀ state event, invariant state → invariant (step state event))
    (balanced : ∀ state event, invariant state →
      (kept state ++ input state event).Perm (output state event ++ kept (step state event)))
    (start : State) (events : List Event) (holds : invariant start) :
    (kept start ++ collected step input start events).Perm
      (collected step output start events ++ kept (run step start events)) := by
  induction events generalizing start with
  | nil =>
      rw [collected, collected, List.append_nil]
      exact List.Perm.refl _
  | cons event events induction =>
      have first := balanced start event holds
      have later := induction (step start event) (preserved start event holds)
      calc kept start ++ (input start event ++ collected step input (step start event) events)
        _ = kept start ++ input start event ++ collected step input (step start event) events :=
          (List.append_assoc _ _ _).symm
        List.Perm _ (output start event ++ kept (step start event) ++
            collected step input (step start event) events) := first.append_right _
        _ = output start event ++ (kept (step start event) ++
            collected step input (step start event) events) := List.append_assoc _ _ _
        List.Perm _ (output start event ++ (collected step output (step start event) events ++
            kept (run step (step start event) events))) := later.append_left _
        _ = output start event ++ collected step output (step start event) events ++
            kept (run step (step start event) events) := (List.append_assoc _ _ _).symm

/-- Where a step puts out nothing exactly under the condition that keeps an invariant, a run
puts out nothing exactly when its steps meet the condition. -/
theorem collected_nil_iff (step : State → Event → State) (invariant : State → Prop)
    (condition : State → Event → Prop) (output : State → Event → List Item)
    (preserved : ∀ state event, invariant state → condition state event →
      invariant (step state event))
    (silent : ∀ state event, invariant state → (output state event = [] ↔ condition state event))
    (start : State) (events : List Event) (holds : invariant start) :
    collected step output start events = [] ↔ Admits step condition start events := by
  induction events generalizing start with
  | nil => exact iff_of_true rfl trivial
  | cons event events induction =>
      rw [collected, List.append_eq_nil_iff, silent start event holds, Admits]
      apply and_congr_right
      intro admitted
      exact induction _ (preserved start event holds admitted)

/-- Where each step takes from the front of what is kept and adds at its end, so does a
run. -/
theorem collected_queue (step : State → Event → State) (input output : State → Event → List Item)
    (kept : State → List Item)
    (queued : ∀ state event,
      kept state ++ input state event = output state event ++ kept (step state event))
    (start : State) (events : List Event) :
    kept start ++ collected step input start events =
      collected step output start events ++ kept (run step start events) := by
  induction events generalizing start with
  | nil => exact List.append_nil _
  | cons event events induction =>
      rw [collected, collected, ← List.append_assoc, queued, List.append_assoc, induction,
        List.append_assoc]
      rfl

/-- Where each step takes the items in the order they were put in, losing some of them at
most, so does a run. -/
theorem collected_in_order (step : State → Event → State) (condition : State → Event → Prop)
    (invariant : State → Prop) (input output : State → Event → List Item)
    (kept : State → List Item)
    (preserved : ∀ state event, invariant state → condition state event →
      invariant (step state event))
    (ordered : ∀ state event, invariant state → condition state event →
      (output state event ++ kept (step state event)).Sublist (kept state ++ input state event))
    (start : State) (events : List Event) (holds : invariant start)
    (admitted : Admits step condition start events) :
    (collected step output start events ++ kept (run step start events)).Sublist
      (kept start ++ collected step input start events) := by
  induction events generalizing start with
  | nil =>
      rw [collected, collected, List.append_nil]
      exact List.Sublist.refl _
  | cons event events induction =>
      have first := ordered start event holds admitted.1
      have later := induction (step start event) (preserved start event holds admitted.1) admitted.2
      calc output start event ++ collected step output (step start event) events ++
          kept (run step (step start event) events)
        _ = output start event ++ (collected step output (step start event) events ++
            kept (run step (step start event) events)) := List.append_assoc _ _ _
        List.Sublist _ (output start event ++ (kept (step start event) ++
            collected step input (step start event) events)) := later.append_left _
        _ = output start event ++ kept (step start event) ++
            collected step input (step start event) events := (List.append_assoc _ _ _).symm
        List.Sublist _ (kept start ++ input start event ++
            collected step input (step start event) events) := first.append_right _
        _ = kept start ++ (input start event ++ collected step input (step start event) events) :=
          List.append_assoc _ _ _

theorem collected_length_le (step : State → Event → State)
    (part whole : State → Event → List Item)
    (shorter : ∀ state event, (part state event).length ≤ (whole state event).length)
    (start : State) (events : List Event) :
    (collected step part start events).length ≤ (collected step whole start events).length := by
  induction events generalizing start with
  | nil => exact Nat.le_refl _
  | cons event events induction =>
      rw [collected, collected, List.length_append, List.length_append]
      exact Nat.add_le_add (shorter start event) (induction (step start event))

/-- Where every step pays for what it puts out, a run puts out no more than it starts with. -/
theorem collected_budget (step : State → Event → State) (condition : State → Event → Prop)
    (invariant : State → Prop) (output : State → Event → List Item) (budget : State → Nat)
    (preserved : ∀ state event, invariant state → condition state event →
      invariant (step state event))
    (paid : ∀ state event, invariant state → condition state event →
      (output state event).length + budget (step state event) ≤ budget state)
    (start : State) (events : List Event) (holds : invariant start)
    (admitted : Admits step condition start events) :
    (collected step output start events).length ≤ budget start := by
  induction events generalizing start with
  | nil => exact Nat.zero_le _
  | cons event events induction =>
      have first := paid start event holds admitted.1
      have later := induction (step start event) (preserved start event holds admitted.1) admitted.2
      rw [collected, List.length_append]
      omega

/-- Where no step puts out more in part than in whole, a run misses nothing exactly
when none of its steps does. -/
theorem collected_eq_iff (step : State → Event → State) (part whole : State → Event → List Item)
    (shorter : ∀ state event, (part state event).length ≤ (whole state event).length)
    (start : State) (events : List Event) :
    collected step part start events = collected step whole start events ↔
      Admits step (fun state event => part state event = whole state event) start events := by
  induction events generalizing start with
  | nil => exact iff_of_true rfl trivial
  | cons event events induction =>
      rw [collected, collected, Admits, ← induction]
      constructor
      · intro same
        have first := shorter start event
        have later := collected_length_le step part whole shorter (step start event) events
        have lengths := congrArg List.length same
        rw [List.length_append, List.length_append] at lengths
        exact List.append_inj same (by omega)
      · intro same
        rw [same.1, same.2]

/-- What a step keeps of its input: all of it under the condition, and otherwise less
than went in. -/
structure Carries (condition : Prop) (before input after : List Item) : Prop where
  kept : condition → after = before ++ input
  lost : ¬condition → after.length < before.length + input.length

theorem Carries.length_le {condition : Prop} {before input after : List Item}
    (carries : Carries condition before input after) :
    after.length ≤ before.length + input.length := by
  by_cases holds : condition
  · exact Nat.le_of_eq (by rw [carries.kept holds, List.length_append])
  · exact Nat.le_of_lt (carries.lost holds)

theorem Carries.after_kept {condition : Prop} {before first middle second after : List Item}
    (kept : middle = before ++ first) (carries : Carries condition middle second after) :
    Carries condition before (first ++ second) after := by
  subst kept
  constructor
  · intro holds
    rw [carries.kept holds, List.append_assoc]
  · intro fails
    have shorter := carries.lost fails
    rw [List.length_append] at shorter ⊢
    omega

theorem carried_length_le (step : State → Event → State) (record : State → List Item)
    (input : State → Event → List Item) (condition : State → Event → Prop)
    (carries : ∀ state event,
      Carries (condition state event) (record state) (input state event)
        (record (step state event)))
    (start : State) (events : List Event) :
    (record (run step start events)).length ≤
      (record start).length + (collected step input start events).length := by
  induction events generalizing start with
  | nil => exact Nat.le_add_right _ _
  | cons event events induction =>
      have first := (carries start event).length_le
      have later := induction (step start event)
      rw [run_cons, collected, List.length_append]
      omega

/-- What a step loses is never made up for, so a run keeps all of its inputs exactly
when every step does. -/
theorem carried_iff (step : State → Event → State) (record : State → List Item)
    (input : State → Event → List Item) (condition : State → Event → Prop)
    (carries : ∀ state event,
      Carries (condition state event) (record state) (input state event)
        (record (step state event)))
    (start : State) (events : List Event) :
    record (run step start events) = record start ++ collected step input start events ↔
      Admits step condition start events := by
  induction events generalizing start with
  | nil => exact iff_of_true (List.append_nil _).symm trivial
  | cons event events induction =>
      rw [run_cons, collected, Admits]
      by_cases holds : condition start event
      · rw [and_iff_right holds, ← induction, (carries start event).kept holds, List.append_assoc]
      · apply iff_of_false
        · intro same
          have shorter := (carries start event).lost holds
          have later := carried_length_le step record input condition carries (step start event)
            events
          have lengths := congrArg List.length same
          rw [List.length_append, List.length_append] at lengths
          omega
        · exact fun admitted => holds admitted.1

end Outputs

end GuardedRun
