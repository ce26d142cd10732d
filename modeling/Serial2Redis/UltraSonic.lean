import Serial2Redis.Library.BinaryFloat
import Serial2Redis.Library.GuardedRun
import Serial2Redis.Library.Halving

/-!
# The ultrasonic distance of espUdp

`HCSR04.cpp`, the sensor that measures how long an echo takes, and `UltraSonic.cpp`, which
smooths what the sensor measured before it asks for the next echo. The interrupt of an echo
may come in the middle of a timer message, between two reads of the time or between the two
words of one.
-/

namespace Serial2Redis

open BinaryFloat GuardedRun Halving

/-- `distance` and `delay` hold an `int32_t`. -/
structure UltraSonic where
  triggerUsec : BitVec 64
  deltaUsec : BitVec 64
  distance : Int
  delay : Int

inductive SonicUpdate where
  | distance (value : Int)
  | delay (value : Int)

/-- What a message finds, and leaves, in `_delta_usec` when an interrupt comes in the middle
of it: anything at all. -/
structure Interruption where
  millimeters : BitVec 64
  time : BitVec 64
  left : BitVec 64

/-- The echo's interrupt and the timer's messages, with the time at which they come. -/
inductive SonicEvent where
  | echo (micros : BitVec 64)
  | timer (micros : BitVec 64) (interruption : Option Interruption)

/-- The `float` of `getMillimeters`; the literal is a `double`, and so is the quotient
before it is stored. -/
def ctm (time : BitVec 64) : ℚ :=
  binary32.round (binary64.round (binary32.round time.toNat / binary64.round (58 / 10)))

/-- `outside` is what the conversion gives for a number that no `uint32_t` holds; C++ leaves
that open. -/
def getMillimeters (outside : ℚ → BitVec 32) (time : BitVec 64) : BitVec 32 :=
  if ⌊ctm time⌋ < 2 ^ 32 then BitVec.ofInt 32 ⌊ctm time⌋ else outside (ctm time)

namespace UltraSonic

/-- The sensor does not initialize its times. -/
def create (triggerUsec deltaUsec : BitVec 64) : UltraSonic := ⟨triggerUsec, deltaUsec, 0, 0⟩

def onEcho (sonic : UltraSonic) (micros : BitVec 64) : UltraSonic :=
  { sonic with deltaUsec := micros - sonic.triggerUsec }

def trigger (sonic : UltraSonic) (micros : BitVec 64) : UltraSonic :=
  { sonic with triggerUsec := micros }

def nextDistance (distance mm : Int) : Int := distance + (mm - distance).tdiv 2

/-- The difference is taken in `uint64_t` and the sum is cut to `int32_t`. -/
def nextDelay (delay : Int) (time : BitVec 64) : Int :=
  ((BitVec.ofInt 64 delay + (time - BitVec.ofInt 64 delay) / 2).setWidth 32).toInt

/-- The time that `getMillimeters` reads. -/
def measured (sonic : UltraSonic) (interruption : Option Interruption) : BitVec 64 :=
  interruption.elim sonic.deltaUsec Interruption.millimeters

/-- The time that `getTime` reads after it. -/
def getTime (sonic : UltraSonic) (interruption : Option Interruption) : BitVec 64 :=
  interruption.elim sonic.deltaUsec Interruption.time

variable (outside : ℚ → BitVec 32)

def mm (time : BitVec 64) : Int := (getMillimeters outside time).toInt

def accepted (time : BitVec 64) : Prop := mm outside time < 4000 ∧ mm outside time > 0

instance (time : BitVec 64) : Decidable (accepted outside time) :=
  inferInstanceAs (Decidable (_ ∧ _))

def on (sonic : UltraSonic) (micros : BitVec 64) (interruption : Option Interruption) :
    UltraSonic × List SonicUpdate :=
  let after := { sonic with
    deltaUsec := interruption.elim sonic.deltaUsec Interruption.left }.trigger micros
  if accepted outside (sonic.measured interruption) then
    let distance := nextDistance sonic.distance (mm outside (sonic.measured interruption))
    let delay := nextDelay sonic.delay (sonic.getTime interruption)
    ({ after with distance := distance, delay := delay }, [.distance distance, .delay delay])
  else (after, [])

def step (sonic : UltraSonic) : SonicEvent → UltraSonic × List SonicUpdate
  | .echo micros => (sonic.onEcho micros, [])
  | .timer micros interruption => sonic.on outside micros interruption

def next (sonic : UltraSonic) (event : SonicEvent) : UltraSonic := (sonic.step outside event).1

/-- What is read for the delay is an echo of the accepted length, like what was accepted. -/
def Fitting (sonic : UltraSonic) : SonicEvent → Prop
  | .echo _ => True
  | .timer _ interruption => accepted outside (sonic.measured interruption) →
      (sonic.getTime interruption).toNat ≤ 23199

/-- A timer message finds a time, twice. -/
def Finds (time : BitVec 64) (sonic : UltraSonic) : SonicEvent → Prop
  | .echo _ => True
  | .timer _ interruption =>
      sonic.measured interruption = time ∧ sonic.getTime interruption = time

/-- What a timer message accepts lies between two bounds. -/
def FindsWithin (low high : Int) (sonic : UltraSonic) : SonicEvent → Prop
  | .echo _ => True
  | .timer _ interruption => accepted outside (sonic.measured interruption) →
      Within low high (mm outside (sonic.measured interruption))

theorem divisor_eq : binary64.round (58 / 10) = 6530219459687219 / 2 ^ 50 := by
  decide +kernel

/-- A number of sixty-fourths is a `float` and a `double`. -/
theorem fraction_representable (n : Nat) (small : n < 2 ^ 18) :
    binary32.Representable (n / 64) ∧ binary64.Representable (n / 64) := by
  have same : (n : ℚ) / 64 = n * 2 ^ (-6 : ℤ) := by norm_num [div_eq_mul_inv]
  exact ⟨⟨n, -6, same, small.trans (by decide), by decide⟩,
    ⟨n, -6, same, small.trans (by decide), by decide⟩⟩

/-- Where the quotient is between two numbers of sixty-fourths the `float` is too. -/
theorem ctm_between (time : BitVec 64) (low high : Nat) (lowSmall : low < 2 ^ 18)
    (highSmall : high < 2 ^ 18)
    (above : (low : ℚ) / 64 ≤ binary32.round time.toNat / binary64.round (58 / 10))
    (below : binary32.round time.toNat / binary64.round (58 / 10) ≤ (high : ℚ) / 64) :
    (low : ℚ) / 64 ≤ ctm time ∧ ctm time ≤ (high : ℚ) / 64 := by
  have nonneg : (0 : ℚ) ≤ (low : ℚ) / 64 := by positivity
  have lows := fraction_representable low lowSmall
  have highs := fraction_representable high highSmall
  have quotient := BinaryFormat.round_between nonneg lows.2 highs.2 above below
  exact BinaryFormat.round_between nonneg lows.1 highs.1 quotient.1 quotient.2

/-- In the range that is accepted no rounding is seen. -/
theorem ctm_floor (time : BitVec 64) (short : time.toNat ≤ 23199) :
    ⌊ctm time⌋ = (time.toNat * 5 / 29 : ℕ) := by
  have parts := Nat.div_add_mod (time.toNat * 5) 29
  have rest := Nat.mod_lt (time.toNat * 5) (by decide : 0 < 29)
  have exact32 := BinaryFormat.round_representable
    (binary32.whole_representable time.toNat (Nat.lt_of_le_of_lt short (by decide)) (by decide))
  generalize whole : time.toNat * 5 / 29 = quotient at parts ⊢
  generalize time.toNat * 5 % 29 = remainder at parts rest
  have few : quotient < 4000 := by omega
  have product : (time.toNat : ℚ) = (29 * quotient + remainder) / 5 := by
    rw [eq_div_iff (by norm_num)]
    exact_mod_cast parts.symm
  have bounded : (remainder : ℚ) ≤ 28 := by exact_mod_cast Nat.le_of_lt_succ rest
  have small : (quotient : ℚ) ≤ 4000 := by exact_mod_cast few.le
  have between := ctm_between time (quotient * 64) (quotient * 64 + 63) (by omega) (by omega)
    (by
      rw [exact32, divisor_eq, product, le_div_iff₀ (by norm_num)]
      push_cast
      have positive : (0 : ℚ) ≤ remainder := Nat.cast_nonneg remainder
      have nonneg : (0 : ℚ) ≤ quotient := Nat.cast_nonneg quotient
      linarith)
    (by
      rw [exact32, divisor_eq, product, div_le_iff₀ (by norm_num)]
      push_cast
      linarith)
  rw [Int.floor_eq_iff]
  push_cast at between ⊢
  constructor <;> linarith [between.1, between.2]

theorem ctm_large (time : BitVec 64) (long : 23200 ≤ time.toNat) : 4000 ≤ ctm time := by
  have start : (23200 : ℚ) ≤ binary32.round time.toNat := by
    have kept := BinaryFormat.round_representable
      (binary32.whole_representable 23200 (by decide) (by decide))
    have ordered := binary32.round_mono (Nat.cast_nonneg _)
      (by exact_mod_cast long : ((23200 : ℕ) : ℚ) ≤ time.toNat)
    rw [kept] at ordered
    exact_mod_cast ordered
  have quotient : ((4000 * 64 : ℕ) : ℚ) / 64 ≤
      binary32.round time.toNat / binary64.round (58 / 10) := by
    rw [divisor_eq, le_div_iff₀ (by norm_num)]
    push_cast
    linarith
  have represented := fraction_representable (4000 * 64) (by decide)
  have nonneg : (0 : ℚ) ≤ ((4000 * 64 : ℕ) : ℚ) / 64 := by positivity
  have double := binary64.round_mono nonneg quotient
  rw [BinaryFormat.round_representable represented.2] at double
  have single := binary32.round_mono nonneg double
  rw [BinaryFormat.round_representable represented.1] at single
  calc (4000 : ℚ)
    _ = ((4000 * 64 : ℕ) : ℚ) / 64 := by norm_num
    _ ≤ ctm time := single

/-- Up to 24000 seconds the number fits a `uint32_t`. -/
theorem ctm_converts (time : BitVec 64) (defined : time.toNat ≤ 24000000000) :
    ctm time < 2 ^ 32 := by
  have top : binary32.Representable (24000000000 : ℕ) :=
    ⟨5859375, 12, by norm_num, by decide, by decide⟩
  have most : ∀ format : BinaryFormat, 24 ≤ format.digits → format.least ≤ 0 →
      format.Representable (4294966784 : ℕ) := by
    intro format digits least
    exact ⟨8388607, 9, by norm_num,
      Nat.lt_of_lt_of_le (by decide) (Nat.pow_le_pow_right two_pos digits), by omega⟩
  have start : binary32.round time.toNat ≤ 24000000000 := by
    have ordered := binary32.round_mono (Nat.cast_nonneg time.toNat)
      (by exact_mod_cast defined : (time.toNat : ℚ) ≤ (24000000000 : ℕ))
    rw [BinaryFormat.round_representable top] at ordered
    exact_mod_cast ordered
  have nonneg : (0 : ℚ) ≤ binary32.round time.toNat := by
    have zero := BinaryFormat.round_representable
      (binary32.whole_representable 0 (by decide) (by decide))
    have ordered := binary32.round_mono (by norm_num)
      (by exact_mod_cast Nat.zero_le time.toNat : ((0 : ℕ) : ℚ) ≤ time.toNat)
    rw [zero] at ordered
    exact_mod_cast ordered
  have quotient : binary32.round time.toNat / binary64.round (58 / 10) ≤ (4294966784 : ℕ) := by
    rw [divisor_eq, div_le_iff₀ (by norm_num)]
    push_cast
    linarith
  have positive : 0 ≤ binary32.round time.toNat / binary64.round (58 / 10) := by
    rw [divisor_eq]
    exact div_nonneg nonneg (by norm_num)
  have low := binary64.whole_representable 0 (by decide) (by decide)
  have low32 := binary32.whole_representable 0 (by decide) (by decide)
  have double := BinaryFormat.round_between (by norm_num) low
    (most binary64 (by decide) (by decide)) (by exact_mod_cast positive) quotient
  have single := BinaryFormat.round_between (by norm_num) low32
    (most binary32 (by decide) (by decide)) double.1 double.2
  calc ctm time
    _ ≤ (4294966784 : ℕ) := single.2
    _ < 2 ^ 32 := by norm_num

variable {outside : ℚ → BitVec 32}

theorem mm_short (time : BitVec 64) (short : time.toNat ≤ 23199) :
    mm outside time = (time.toNat * 5 / 29 : ℕ) := by
  have floor := ctm_floor time short
  have few : time.toNat * 5 / 29 < 4000 := by omega
  rw [mm, getMillimeters, floor, if_pos (by omega), BitVec.toInt_ofInt, Int.bmod_def]
  omega

/-- While the conversion is defined the accepted times are those from 6 to 23199
microseconds. -/
theorem accepted_iff (time : BitVec 64) (defined : ctm time < 2 ^ 32) :
    accepted outside time ↔ 6 ≤ time.toNat ∧ time.toNat ≤ 23199 := by
  rw [accepted]
  rcases Nat.lt_or_ge 23199 time.toNat with long | short
  · have far : (4000 : ℤ) ≤ ⌊ctm time⌋ := Int.le_floor.mpr (by exact_mod_cast ctm_large time long)
    have fits : ⌊ctm time⌋ < 2 ^ 32 := Int.floor_lt.mpr (by exact_mod_cast defined)
    apply iff_of_false _ (by omega)
    rw [mm, getMillimeters, if_pos fits, BitVec.toInt_ofInt, Int.bmod_def]
    omega
  · rw [mm_short time short]
    omega

/-- The wrapped difference halves to the same sum as the signed one. -/
theorem next_delay_eq (delay : Int) (time : BitVec 64) (positive : 0 ≤ delay)
    (bounded : delay ≤ 23199) (near : time.toNat ≤ 23199) :
    nextDelay delay time = downward time.toNat delay := by
  have start : (BitVec.ofInt 64 delay).toNat = delay.toNat := by
    rw [BitVec.toNat_ofInt]
    omega
  have half : ((time - BitVec.ofInt 64 delay) / 2).toNat =
      ((18446744073709551616 - delay.toNat + time.toNat) % 18446744073709551616) / 2 := by
    rw [BitVec.toNat_udiv, BitVec.toNat_sub, start]
    rfl
  rw [nextDelay, downward, BitVec.toInt_eq_toNat_cond, BitVec.toNat_setWidth, BitVec.toNat_add,
    start, half]
  split <;> omega

/-- What an event does to the published values. -/
theorem next_cases (outside : ℚ → BitVec 32) (sonic : UltraSonic) (event : SonicEvent) :
    ((sonic.next outside event).distance = sonic.distance ∧
      (sonic.next outside event).delay = sonic.delay ∧
      ∀ micros interruption, event = .timer micros interruption →
        ¬accepted outside (sonic.measured interruption)) ∨
    ∃ micros interruption, event = .timer micros interruption ∧
      accepted outside (sonic.measured interruption) ∧
      (sonic.next outside event).distance =
        toward (mm outside (sonic.measured interruption)) sonic.distance ∧
      (sonic.next outside event).delay = nextDelay sonic.delay (sonic.getTime interruption) := by
  cases event with
  | echo micros => exact .inl ⟨rfl, rfl, fun _ _ other => nomatch other⟩
  | timer micros interruption =>
      rw [next, step, on]
      by_cases takes : accepted outside (sonic.measured interruption)
      · rw [if_pos takes]
        exact .inr ⟨micros, interruption, rfl, takes, rfl, rfl⟩
      · rw [if_neg takes]
        refine .inl ⟨rfl, rfl, fun _ _ same => ?_⟩
        injection same with _ interrupted
        rwa [← interrupted]

/-- Whatever is read, what is accepted is a distance of less than four meters. -/
theorem next_distance_within (sonic : UltraSonic) (event : SonicEvent)
    (within : Within 0 3999 sonic.distance) :
    Within 0 3999 (sonic.next outside event).distance := by
  rcases next_cases outside sonic event with
    ⟨kept, _, _⟩ | ⟨micros, interruption, _, ⟨small, positive⟩, moved, _⟩
  · rwa [kept]
  · rw [moved]
    exact toward_within ⟨by omega, by omega⟩ within

theorem next_delay_within (sonic : UltraSonic) (event : SonicEvent)
    (within : Within 0 23199 sonic.delay) (fitting : sonic.Fitting outside event) :
    Within 0 23199 (sonic.next outside event).delay := by
  rcases next_cases outside sonic event with
    ⟨_, kept, _⟩ | ⟨micros, interruption, rfl, takes, _, moved⟩
  · rwa [kept]
  · have near := fitting takes
    rw [moved, next_delay_eq _ _ within.1 within.2 near]
    exact downward_within ⟨by omega, by omega⟩ within

/-- A message without an interrupt reads one time twice. -/
theorem fitting_alone (sonic : UltraSonic) (micros : BitVec 64)
    (defined : sonic.deltaUsec.toNat ≤ 24000000000) :
    sonic.Fitting outside (.timer micros none) :=
  fun takes => ((accepted_iff _ (ctm_converts _ defined)).mp takes).2

def isTimer : SonicEvent → Bool
  | .timer _ _ => true
  | .echo _ => false

/-- Each timer message of a run that always finds the same accepted time is one step. -/
theorem steady_run (time : BitVec 64) (takes : accepted outside time)
    (near : time.toNat ≤ 23199) (events : List SonicEvent) (sonic : UltraSonic)
    (within : Within 0 23199 sonic.delay)
    (steady : Admits (next outside) (Finds time) sonic events) :
    (run (next outside) sonic events).distance =
        (toward (mm outside time))^[events.countP isTimer] sonic.distance ∧
      (run (next outside) sonic events).delay =
        (downward time.toNat)^[events.countP isTimer] sonic.delay := by
  induction events generalizing sonic with
  | nil => exact ⟨rfl, rfl⟩
  | cons event events induction =>
      have fitting : sonic.Fitting outside event := by
        cases event with
        | echo micros => trivial
        | timer micros interruption =>
            intro _
            rw [steady.1.2]
            exact near
      have later := induction (next outside sonic event)
        (next_delay_within sonic event within fitting) steady.2
      rw [run_cons]
      cases event with
      | echo micros =>
          rw [List.countP_cons_of_neg Bool.false_ne_true]
          exact later
      | timer micros interruption =>
          rcases next_cases outside sonic (.timer micros interruption) with
            ⟨_, _, rejected⟩ | ⟨_, other, same, _, distance, delay⟩
          · exact absurd (steady.1.1.symm ▸ takes) (rejected micros interruption rfl)
          · injection same with _ interrupted
            rw [← interrupted, steady.1.1] at distance
            rw [← interrupted, steady.1.2, next_delay_eq _ _ within.1 within.2 near] at delay
            rw [List.countP_cons_of_pos (by rfl), Function.iterate_succ_apply,
              Function.iterate_succ_apply, ← distance, ← delay]
            exact later

/-- Where `distance` rests: next to the target, unless it was there. -/
def rest (target value : Int) : Int :=
  if value < target then target - 1 else if target < value then target + 1 else target

theorem toward_rest (count : Nat) (target value : Int) (near : target - value ≤ 2 ^ count)
    (close : value - target ≤ 2 ^ count) : (toward target)^[count] value = rest target value := by
  rcases lt_trichotomy value target with below | same | above
  · rw [rest, if_pos below]
    exact toward_from_below count target value below near
  · rw [rest, same, if_neg (lt_irrefl target), if_neg (lt_irrefl target)]
    exact Function.iterate_fixed (toward_self target) count
  · rw [rest, if_neg (by omega), if_pos above]
    exact toward_from_above count target value above close

/-- Whatever the memory held and whenever the interrupts come, the distance stays below four
meters and between any bounds of where it starts and what is accepted. The delay stays in its
range while no interrupt comes between the two reads of a message, for times up to 24000
seconds, or brings an echo of an accepted length. After fifteen timer messages that find one
time from 6 to 23199 microseconds the values rest: the distance next to 5/29 of the time. -/
theorem ultra_sonic_settles (outside : ℚ → BitVec 32) (triggerUsec deltaUsec : BitVec 64)
    (before events : List SonicEvent) :
    let start := create triggerUsec deltaUsec
    let sonic := run (next outside) start before
    let final := run (next outside) sonic events
    Within 0 3999 final.distance ∧
    (∀ low high, Within low high sonic.distance →
      Admits (next outside) (FindsWithin outside low high) sonic events →
      Within low high final.distance) ∧
    (Admits (next outside) (Fitting outside) start before →
      Admits (next outside) (Fitting outside) sonic events → Within 0 23199 final.delay) ∧
    (∀ micros, sonic.deltaUsec.toNat ≤ 24000000000 →
      sonic.Fitting outside (.timer micros none)) ∧
    (∀ time : BitVec 64, 6 ≤ time.toNat → time.toNat ≤ 23199 →
      Admits (next outside) (Fitting outside) start before →
      Admits (next outside) (Finds time) sonic events → 15 ≤ events.countP isTimer →
      final.distance = rest (time.toNat * 5 / 29 : ℕ) sonic.distance ∧
        final.delay =
          if sonic.delay < time.toNat then (time.toNat : Int) - 1 else time.toNat) := by
  intro start sonic final
  have distances := run_invariant (next outside) (fun sonic => Within 0 3999 sonic.distance)
    next_distance_within
  have begun : Within 0 3999 sonic.distance :=
    distances start before ⟨le_rfl, Int.natCast_nonneg 3999⟩
  have delays : Admits (next outside) (Fitting outside) start before →
      Within 0 23199 sonic.delay :=
    admitted_run_invariant (next outside) (Fitting outside)
      (fun sonic => Within 0 23199 sonic.delay) next_delay_within start before
      ⟨le_rfl, Int.natCast_nonneg 23199⟩
  refine ⟨distances sonic events begun, ?_, ?_, ?_, ?_⟩
  · intro low high within found
    apply admitted_run_invariant (next outside) (FindsWithin outside low high)
      (fun sonic => Within low high sonic.distance) _ sonic events within found
    intro sonic event within found
    rcases next_cases outside sonic event with
      ⟨kept, _, _⟩ | ⟨micros, interruption, rfl, takes, moved, _⟩
    · rwa [kept]
    · rw [moved]
      exact toward_within (found takes) within
  · intro earlier later
    exact admitted_run_invariant (next outside) (Fitting outside)
      (fun sonic => Within 0 23199 sonic.delay) next_delay_within sonic events (delays earlier)
      later
  · exact fun micros defined => fitting_alone sonic micros defined
  · intro time long near fitting steady enough
    have within := delays fitting
    have takes : accepted outside time :=
      (accepted_iff time (ctm_converts time (near.trans (by decide)))).mpr ⟨long, near⟩
    have settled := steady_run time takes near events sonic within steady
    have wide : (2 ^ 15 : Int) ≤ 2 ^ events.countP isTimer := by
      exact_mod_cast Nat.pow_le_pow_right (by decide : 0 < 2) enough
    rcases begun with ⟨distanceLow, distanceHigh⟩
    rcases within with ⟨delayLow, delayHigh⟩
    rw [settled.1, settled.2, mm_short time near]
    constructor
    · exact toward_rest _ _ _ (by omega) (by omega)
    · by_cases below : sonic.delay < time.toNat
      · rw [if_pos below]
        exact downward_from_below _ _ _ below (by omega)
      · rw [if_neg below]
        exact downward_from_above _ _ _ (by omega) (by omega)

/-- Messages without echoes between them, or interrupts in them, find the same time. -/
theorem repeated_finds (sonic : UltraSonic) (micros : BitVec 64) (count : Nat) :
    Admits (next outside) (Finds sonic.deltaUsec) sonic
      (List.replicate count (.timer micros none)) := by
  induction count generalizing sonic with
  | zero => trivial
  | succ count induction =>
      have kept : (sonic.next outside (.timer micros none)).deltaUsec = sonic.deltaUsec := by
        rw [next, step, on]
        split <;> rfl
      have later := induction (sonic.next outside (.timer micros none))
      rw [kept] at later
      exact ⟨⟨rfl, rfl⟩, later⟩

/-- The processor of the board gives the greatest number. -/
def saturated : ℚ → BitVec 32 := fun _ => -1

/-- An echo of 580 microseconds, from ten centimeters. -/
theorem ultra_sonic_settles_ten :
    let sonic := run (next saturated) (create 0 0) [.timer 1000000 none, .echo 1000580]
    let final := run (next saturated) sonic (List.replicate 15 (.timer 2000000 none))
    final.distance = 99 ∧ final.delay = 579 := by
  intro sonic final
  have first : ¬accepted saturated (0 : BitVec 64) := by
    rw [accepted_iff _ (ctm_converts _ (by decide))]
    decide
  have begun : sonic = ⟨1000000, 580, 0, 0⟩ := by
    have fired : next saturated (create 0 0) (.timer 1000000 none) = ⟨1000000, 0, 0, 0⟩ := by
      rw [next, step, on]
      exact congrArg Prod.fst (if_neg first)
    change next saturated (next saturated (create 0 0) _) _ = _
    rw [fired]
    rfl
  have found : Admits (next saturated) (Finds 580) sonic
      (List.replicate 15 (.timer 2000000 none)) := by
    rw [begun]
    exact repeated_finds ⟨1000000, 580, 0, 0⟩ 2000000 15
  have settled := (ultra_sonic_settles saturated 0 0 [.timer 1000000 none, .echo 1000580]
    (List.replicate 15 (.timer 2000000 none))).2.2.2.2 580 (by decide) (by decide)
    ⟨fun takes => absurd takes first, trivial, trivial⟩ found (by decide)
  change final.distance = rest _ sonic.distance ∧
    final.delay = if sonic.delay < _ then _ else _ at settled
  rw [begun] at settled
  exact settled

end UltraSonic

end Serial2Redis
