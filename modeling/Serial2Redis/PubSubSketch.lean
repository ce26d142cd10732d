import Serial2Redis.PubSubLink
import Serial2Redis.Library.GuardedRun

/-!
# The timers of the sketch

`loop` of the basicPubSub sketch renews two deadlines from a clock that wraps: the sum
`millis() + period` has 32 bits, the deadline it is stored in has 64.
-/

namespace Serial2Redis

open Transducer GuardedRun

structure Sketch where
  nextSub : BitVec 64
  nextPub : BitVec 64

/-- The values of `millis()` during one call of `loop`, in the order it asks for them. -/
structure LoopClock where
  checkSub : BitVec 32
  renewSub : BitVec 32
  checkPub : BitVec 32
  tick : BitVec 32
  renewPub : BitVec 32

def isDue (next : BitVec 64) (millis : BitVec 32) : Bool := next < millis.setWidth 64

def renewed (millis period : BitVec 32) : BitVec 64 := (millis + period).setWidth 64

namespace Sketch

def start : Sketch := ⟨0, 0⟩

def subscribing (sketch : Sketch) (clock : LoopClock) : BitVec 64 × List PubSubCall :=
  if isDue sketch.nextSub clock.checkSub then
    (renewed clock.renewSub 1000, [.subscribe (text "dst/arduino/*")])
  else (sketch.nextSub, [])

def publishing (sketch : Sketch) (clock : LoopClock) : BitVec 64 × List PubSubCall :=
  if isDue sketch.nextPub clock.checkPub then
    (renewed clock.renewPub 100, [.publish loopbackTopic clock.tick])
  else (sketch.nextPub, [])

/-- One call of `loop` and what it sends. -/
def loop (sketch : Sketch) (clock : LoopClock) : Sketch × List PubSubCall :=
  (⟨(sketch.subscribing clock).1, (sketch.publishing clock).1⟩,
    (sketch.subscribing clock).2 ++ (sketch.publishing clock).2)

def next (sketch : Sketch) (clock : LoopClock) : Sketch := (sketch.loop clock).1

end Sketch

def PubSubCall.isSubscribe : PubSubCall → Bool
  | .subscribe _ => true
  | .publish _ _ => false

section Deadline

variable {State Event : Type} (step : State → Event → State) (deadline : State → BitVec 64)
  (check renew : Event → BitVec 32)

/-- The readings from which a deadline is renewed during a run. -/
def renewals : State → List Event → List (BitVec 32) :=
  collected step fun state event =>
    if isDue (deadline state) (check event) then [renew event] else []

/-- Every step renews the deadline when it is due and else leaves it. -/
def Renews (period : BitVec 32) : Prop :=
  ∀ state event, deadline (step state event) =
    if isDue (deadline state) (check event) then renewed (renew event) period else deadline state

variable {step deadline check renew}

theorem deadline_after {period : BitVec 32} (renews : Renews step deadline check renew period)
    (state : State) (events : List Event) :
    deadline (run step state events) =
      match (renewals step deadline check renew state events).getLast? with
      | some millis => renewed millis period
      | none => deadline state := by
  induction events generalizing state with
  | nil => rfl
  | cons event events induction =>
      have first := renews state event
      have later := induction (step state event)
      rw [run_cons, later]
      unfold renewals at later ⊢
      rw [collected]
      by_cases due : isDue (deadline state) (check event) = true
      · rw [if_pos due] at first ⊢
        rw [first, List.singleton_append, List.getLast?_cons]
        cases (collected step _ (step state event) events).getLast? <;> rfl
      · rw [if_neg due] at first ⊢
        rw [first, List.nil_append]

theorem never_due_iff (next : BitVec 64) :
    (∀ millis, isDue next millis = false) ↔ 0xFFFFFFFF ≤ next := by
  constructor
  · intro never
    have last := never (BitVec.allOnes 32)
    rw [isDue, decide_eq_false_iff_not] at last
    exact BitVec.not_lt.mp last
  · intro large millis
    rw [isDue, decide_eq_false_iff_not]
    bv_omega

/-- A deadline is never met again exactly when no reading of the clock is past it. -/
theorem never_renewed_iff {period : BitVec 32} (renews : Renews step deadline check renew period)
    (onto : Function.Surjective check) (state : State) :
    (∀ later, renewals step deadline check renew state later = []) ↔
      0xFFFFFFFF ≤ deadline state := by
  rw [← never_due_iff]
  constructor
  · intro silent millis
    rcases onto millis with ⟨event, rfl⟩
    have first := silent [event]
    rw [renewals, collected, collected, List.append_nil] at first
    by_contra due
    rw [if_pos (by simpa using due)] at first
    cases first
  · intro never later
    induction later generalizing state with
    | nil => rfl
    | cons event later induction =>
        have kept := renews state event
        rw [never (check event), if_neg Bool.false_ne_true] at kept
        have rest := induction (step state event) (by rw [kept]; exact never)
        unfold renewals at rest ⊢
        rw [collected, rest, never (check event)]
        rfl

theorem renewed_at_end_iff (millis period : BitVec 32) :
    0xFFFFFFFF ≤ renewed millis period ↔ millis = -1 - period := by
  unfold renewed
  bv_omega

end Deadline

namespace Sketch

theorem next_renews_sub :
    Renews next nextSub LoopClock.checkSub LoopClock.renewSub 1000 := by
  intro sketch clock
  unfold next loop subscribing
  split_ifs <;> rfl

theorem next_renews_pub :
    Renews next nextPub LoopClock.checkPub LoopClock.renewPub 100 := by
  intro sketch clock
  unfold next loop publishing
  split_ifs <;> rfl

def subRenewals : Sketch → List LoopClock → List (BitVec 32) :=
  renewals next nextSub LoopClock.checkSub LoopClock.renewSub

def pubRenewals : Sketch → List LoopClock → List (BitVec 32) :=
  renewals next nextPub LoopClock.checkPub LoopClock.renewPub

/-- What is sent over a run is one subscription for each renewal of the one deadline and
one publication for each renewal of the other. -/
theorem sent_calls (sketch : Sketch) (clocks : List LoopClock) :
    ((feed loop sketch clocks).2.filter PubSubCall.isSubscribe).length =
        (subRenewals sketch clocks).length ∧
      ((feed loop sketch clocks).2.filter fun call => !call.isSubscribe).length =
        (pubRenewals sketch clocks).length := by
  induction clocks generalizing sketch with
  | nil => exact ⟨rfl, rfl⟩
  | cons clock clocks induction =>
      rcases induction (sketch.loop clock).1 with ⟨subs, pubs⟩
      unfold subRenewals renewals at subs ⊢
      unfold pubRenewals renewals at pubs ⊢
      rw [feed_cons, collected, collected, List.filter_append, List.filter_append,
        List.length_append, List.length_append, List.length_append, List.length_append,
        subs, pubs, loop, List.filter_append, List.filter_append, subscribing, publishing]
      constructor
      · congr 1
        split_ifs <;> rfl
      · congr 1
        split_ifs <;> rfl

theorem falls_silent_iff {deadline : Sketch → BitVec 64} {check renew : LoopClock → BitVec 32}
    {period : BitVec 32} (renews : Renews next deadline check renew period)
    (onto : Function.Surjective check) (begins : deadline start = 0) (before : List LoopClock) :
    (∀ later, renewals next deadline check renew (feed loop start before).1 later = []) ↔
      (renewals next deadline check renew start before).getLast? = some (-1 - period) := by
  have reached : (feed loop start before).1 = run next start before :=
    feed_state loop start before
  rw [reached, never_renewed_iff renews onto, deadline_after renews]
  cases (renewals next deadline check renew start before).getLast? with
  | none =>
      have early : ¬(0xFFFFFFFF : BitVec 64) ≤ 0 := by decide
      rw [begins]
      exact iff_of_false early fun same => by cases same
  | some millis =>
      rw [Option.some.injEq]
      exact renewed_at_end_iff millis period

/-- The sketch never subscribes again exactly when it last renewed that deadline 1001 ms
before its clock wraps (at 2^32 - 1001), and never publishes again exactly when it last
renewed the other 101 ms before; no other run ends either. -/
theorem sketch_falls_silent_iff (before : List LoopClock) :
    ((∀ later, (feed loop (feed loop start before).1 later).2.filter PubSubCall.isSubscribe = []) ↔
      (subRenewals start before).getLast? = some 4294966295) ∧
    ((∀ later, ((feed loop (feed loop start before).1 later).2.filter
        fun call => !call.isSubscribe) = []) ↔
      (pubRenewals start before).getLast? = some 4294967195) := by
  have subs := falls_silent_iff next_renews_sub (fun millis => ⟨⟨millis, 0, 0, 0, 0⟩, rfl⟩) rfl
    before
  have pubs := falls_silent_iff next_renews_pub (fun millis => ⟨⟨0, 0, millis, 0, 0⟩, rfl⟩) rfl
    before
  have counted := fun later => sent_calls (feed loop start before).1 later
  constructor
  · rw [show (4294966295 : BitVec 32) = -1 - 1000 from rfl, subRenewals, ← subs]
    apply forall_congr'
    intro later
    rw [← List.length_eq_zero_iff, (counted later).1, List.length_eq_zero_iff]
    rfl
  · rw [show (4294967195 : BitVec 32) = -1 - 100 from rfl, pubRenewals, ← pubs]
    apply forall_congr'
    intro later
    rw [← List.length_eq_zero_iff, (counted later).2, List.length_eq_zero_iff]
    rfl

end Sketch

end Serial2Redis
