import Mathlib.Data.Nat.ModEq
import Serial2Redis.Library.GuardedRun
import Serial2Redis.Library.RoundRobin

/-!
# The poller of espUdp

`Poller.h` asks one of its sources at each tick of a timer while the link is up. Its index
has 32 bits, so it starts again in the middle of a round.
-/

namespace Serial2Redis

open GuardedRun RoundRobin

/-- The sources in `_requestables` are known by their place. -/
structure Poller where
  requestables : Nat
  idx : BitVec 32
  connected : Bool

inductive PollerEvent where
  | tick
  | connected (up : Bool)
  | register

namespace Poller

def create : Poller where
  requestables := 0
  idx := 0
  connected := false

def requested (poller : Poller) : PollerEvent → List Nat
  | .tick =>
      if poller.requestables ≠ 0 && poller.connected then
        [poller.idx.toNat % poller.requestables]
      else []
  | _ => []

def step (poller : Poller) : PollerEvent → Poller
  | .tick =>
      if poller.requestables ≠ 0 && poller.connected then { poller with idx := poller.idx + 1 }
      else poller
  | .connected up => { poller with connected := up }
  | .register => { poller with requestables := poller.requestables + 1 }

/-- `app_main` registers the sources before it starts the thread of the poller. -/
def registered (sources : Nat) : Poller := run step create (List.replicate sources .register)

def polls (sources : Nat) (events : List PollerEvent) : List Nat :=
  collected step requested (registered sources) events

theorem registered_eq (sources : Nat) : registered sources = ⟨sources, 0, false⟩ := by
  have counted : ∀ poller : Poller, run step poller (List.replicate sources .register) =
      { poller with requestables := poller.requestables + sources } := by
    induction sources with
    | zero => exact fun poller => rfl
    | succ sources induction =>
        intro poller
        rw [List.replicate_succ, run_cons, induction]
        simp only [step, Nat.add_assoc, Nat.add_comm 1]
  rw [registered, counted, create, Nat.zero_add]

/-- The sources asked from a value of the index on. -/
def asked (sources first count : Nat) : List Nat :=
  (List.range count).map fun turn => (first + turn) % 2 ^ 32 % sources

theorem asked_append (sources first count more : Nat) :
    asked sources first (count + more) =
      asked sources first count ++ asked sources (first + count) more := by
  unfold asked
  rw [List.range_add, List.map_append, List.map_map, List.append_cancel_left_eq]
  apply List.map_congr_left
  intro turn _
  rw [Function.comp, Nat.add_assoc]

theorem asked_length (sources first count : Nat) : (asked sources first count).length = count := by
  rw [asked, List.length_map, List.length_range]

theorem asked_window (sources first : Nat) {skipped window count : Nat}
    (inside : skipped + window ≤ count) :
    ((asked sources first count).drop skipped).take window =
      asked sources (first + skipped) window := by
  rcases Nat.exists_eq_add_of_le inside with ⟨rest, rfl⟩
  rw [Nat.add_assoc, asked_append, asked_append, List.drop_left' (asked_length _ _ _),
    List.take_left' (asked_length _ _ _)]

theorem asked_wrapped (sources first count : Nat) :
    asked sources (first % 2 ^ 32) count = asked sources first count := by
  apply List.map_congr_left
  intro turn _
  rw [Nat.mod_add_mod]

theorem asked_of_dvd {sources : Nat} (divides : sources ∣ 2 ^ 32) (first count : Nat) :
    asked sources first count = turns sources first count := by
  apply List.map_congr_left
  intro turn _
  exact Nat.mod_mod_of_dvd _ divides

theorem asked_before_wrap (sources : Nat) {first count : Nat} (early : first + count ≤ 2 ^ 32) :
    asked sources first count = turns sources first count := by
  apply List.map_congr_left
  intro turn member
  have bound := List.mem_range.mp member
  have below : first + turn < 2 ^ 32 := by omega
  rw [Nat.mod_eq_of_lt below]

theorem collected_asked (poller : Poller) (events : List PollerEvent)
    (settled : .register ∉ events) :
    ∃ count, collected step requested poller events =
      asked poller.requestables poller.idx.toNat count := by
  induction events generalizing poller with
  | nil => exact ⟨0, rfl⟩
  | cons event events induction =>
      have later : .register ∉ events := fun member => settled (List.mem_cons_of_mem _ member)
      rcases induction (poller.step event) later with ⟨count, rest⟩
      rw [collected, rest]
      cases event with
      | tick =>
          simp only [step, requested]
          split_ifs with live
          · refine ⟨1 + count, ?_⟩
            have next : (poller.idx + 1).toNat = (poller.idx.toNat + 1) % 2 ^ 32 :=
              BitVec.toNat_add _ _
            have first : asked poller.requestables poller.idx.toNat 1 =
                [poller.idx.toNat % poller.requestables] := by
              rw [asked, List.range_one, List.map_singleton, Nat.add_zero,
                Nat.mod_eq_of_lt poller.idx.isLt]
            rw [asked_append, first, next, asked_wrapped]
          · exact ⟨count, rfl⟩
      | connected up => exact ⟨count, rfl⟩
      | register => exact absurd List.mem_cons_self settled

theorem polls_asked (sources : Nat) (events : List PollerEvent) (settled : .register ∉ events) :
    polls sources events = asked sources 0 (polls sources events).length := by
  rcases collected_asked (registered sources) events settled with ⟨count, shape⟩
  rw [← polls, registered_eq] at shape
  have length := congrArg List.length shape
  rw [asked_length] at length
  rw [length]
  exact shape

/-- A link that stays up gives a poll at every tick. -/
theorem ticks_length (poller : Poller) (some : poller.requestables ≠ 0)
    (up : poller.connected = true) (ticks : Nat) :
    (collected step requested poller (List.replicate ticks .tick)).length = ticks := by
  induction ticks generalizing poller with
  | zero => rfl
  | succ ticks induction =>
      have live : (poller.requestables ≠ 0 && poller.connected) = true := by simp [some, up]
      rw [List.replicate_succ, collected, List.length_append]
      have first : (requested poller .tick).length = 1 := by rw [requested, if_pos live]; rfl
      have next : step poller .tick = { poller with idx := poller.idx + 1 } := if_pos live
      rw [first, next, induction]
      · exact Nat.add_comm 1 ticks
      · exact some
      · exact up

theorem dvd_of_last {sources : Nat} (positive : 0 < sources)
    (last : sources - 1 ∈ asked sources (2 ^ 32 - 1) sources) : sources ∣ 2 ^ 32 := by
  rcases List.mem_map.mp last with ⟨turn, member, same⟩
  have bound := List.mem_range.mp member
  by_cases first : turn = 0
  · have below : 2 ^ 32 - 1 < 2 ^ 32 := by omega
    rw [first, Nat.add_zero, Nat.mod_eq_of_lt below] at same
    have whole := Nat.div_add_mod (2 ^ 32 - 1) sources
    refine ⟨(2 ^ 32 - 1) / sources + 1, ?_⟩
    rw [Nat.mul_add, Nat.mul_one]
    omega
  · have wrapped : (2 ^ 32 - 1 + turn) % 2 ^ 32 ≤ turn - 1 := by omega
    have small := Nat.mod_le ((2 ^ 32 - 1 + turn) % 2 ^ 32) sources
    omega

/-- Every run of the poller takes the sources in turn and keeps their shares even before its
index starts again; it goes on to ask each of them once a round exactly when their number
divides 2^32. -/
theorem poller_fair_iff (sources : Nat) (positive : 0 < sources) :
    (∀ events, .register ∉ events → ∀ skipped window,
      skipped + window ≤ (polls sources events).length → skipped + window ≤ 2 ^ 32 →
        ∀ source < sources,
          window / sources ≤ (((polls sources events).drop skipped).take window).count source ∧
          (((polls sources events).drop skipped).take window).count source ≤
            window / sources + 1) ∧
    ((∀ events, .register ∉ events → ∀ skipped,
      skipped + sources ≤ (polls sources events).length →
        (((polls sources events).drop skipped).take sources).Perm (List.range sources)) ↔
      sources ∣ 2 ^ 32) := by
  have window_asked : ∀ events, .register ∉ events → ∀ skipped window,
      skipped + window ≤ (polls sources events).length →
        ((polls sources events).drop skipped).take window = asked sources skipped window := by
    intro events settled skipped window inside
    rw [polls_asked sources events settled, asked_window sources 0 inside, Nat.zero_add]
  constructor
  · intro events settled skipped window inside early source served
    rw [window_asked events settled skipped window inside, asked_before_wrap sources early]
    exact count_turns skipped window served
  · constructor
    · intro rounds
      let events := PollerEvent.connected true :: List.replicate (2 ^ 32 - 1 + sources) .tick
      have settled : .register ∉ events := by
        intro member
        rcases List.mem_cons.mp member with same | ticks
        · cases same
        · cases List.eq_of_mem_replicate ticks
      have length : (polls sources events).length = 2 ^ 32 - 1 + sources := by
        rw [polls, registered_eq]
        exact ticks_length ⟨sources, 0, true⟩ (Nat.ne_of_gt positive) rfl _
      have inside := Nat.le_of_eq length.symm
      have last := rounds events settled (2 ^ 32 - 1) inside
      rw [window_asked events settled _ _ inside] at last
      exact dvd_of_last positive (last.mem_iff.mpr (List.mem_range.mpr (by omega)))
    · intro divides events settled skipped inside
      rw [window_asked events settled skipped sources inside, asked_of_dvd divides]
      exact turns_round skipped positive

/-- The five sources of `app_main`: their round does not fit the index. -/
theorem poller_fair_iff_five :
    ¬∀ events, PollerEvent.register ∉ events → ∀ skipped,
      skipped + 5 ≤ (polls 5 events).length →
        (((polls 5 events).drop skipped).take 5).Perm (List.range 5) := by
  rw [(poller_fair_iff 5 (by decide)).2]
  decide

end Poller

end Serial2Redis
