import Mathlib.Data.Fintype.Card
import Mathlib.Data.Finset.Filter
import Serial2Redis.Library.GuardedRun

/-!
# The semaphore of the ESP32

`Esp32Semaphore` of `Sema.cpp` under any number of tasks, each of which calls `wait` and
`release` in turn. A take that times out goes on as if it had succeeded. A change of the
counter with the test behind it is one step.
-/

namespace Serial2Redis

open GuardedRun

/-- Where a task is: between `xSemaphoreTake` and `counter++`, in its critical section, or
between `counter--` and `xSemaphoreGive`. -/
inductive SemaPhase where
  | outside
  | entered
  | inside
  | leaving
  deriving DecidableEq

/-- `xSemaphore` tells whether the binary semaphore can be taken. -/
structure Esp32Semaphore (Task : Type*) where
  xSemaphore : Bool
  counter : BitVec 32
  phase : Task → SemaPhase

/-- One step of one task. -/
inductive SemaEvent (Task : Type*) where
  | take (task : Task)
  | timeout (task : Task)
  | count (task : Task)
  | uncount (task : Task)
  | give (task : Task)

inductive SemaWarning where
  | takeTimedOut
  | waitCounter (counter : BitVec 32)
  | giveCounter (counter : BitVec 32)
  | giveFailed

namespace Esp32Semaphore

variable {Task : Type*} [DecidableEq Task]

def create : Esp32Semaphore Task where
  xSemaphore := true
  counter := 0
  phase := fun _ => .outside

/-- What a task can do depends on where it is; a take waits while the semaphore is taken, and
only then can it time out. -/
def Enabled (sema : Esp32Semaphore Task) : SemaEvent Task → Prop
  | .take task => sema.phase task = .outside ∧ sema.xSemaphore = true
  | .timeout task => sema.phase task = .outside ∧ sema.xSemaphore = false
  | .count task => sema.phase task = .entered
  | .uncount task => sema.phase task = .inside
  | .give task => sema.phase task = .leaving

instance (sema : Esp32Semaphore Task) : (event : SemaEvent Task) → Decidable (sema.Enabled event)
  | .take _ | .timeout _ => inferInstanceAs (Decidable (_ ∧ _))
  | .count _ | .uncount _ | .give _ => inferInstanceAs (Decidable (_ = _))

def perform (sema : Esp32Semaphore Task) : SemaEvent Task → Esp32Semaphore Task
  | .take task => ⟨false, sema.counter, Function.update sema.phase task .entered⟩
  | .timeout task => { sema with phase := Function.update sema.phase task .entered }
  | .count task =>
      { sema with counter := sema.counter + 1, phase := Function.update sema.phase task .inside }
  | .uncount task =>
      { sema with counter := sema.counter - 1, phase := Function.update sema.phase task .leaving }
  | .give task => ⟨true, sema.counter, Function.update sema.phase task .outside⟩

def warnings (sema : Esp32Semaphore Task) : SemaEvent Task → List SemaWarning
  | .take _ => []
  | .timeout _ => [.takeTimedOut]
  | .count _ => if sema.counter + 1 ≠ 1 then [.waitCounter (sema.counter + 1)] else []
  | .uncount _ => if sema.counter - 1 ≠ 0 then [.giveCounter (sema.counter - 1)] else []
  | .give _ => if sema.xSemaphore then [.giveFailed] else []

def step (sema : Esp32Semaphore Task) (event : SemaEvent Task) : Esp32Semaphore Task :=
  if sema.Enabled event then sema.perform event else sema

def logged (sema : Esp32Semaphore Task) (event : SemaEvent Task) : List SemaWarning :=
  if sema.Enabled event then sema.warnings event else []

/-- At most one task is between `wait` and `release`. -/
def Exclusive (sema : Esp32Semaphore Task) : Prop :=
  ∀ left right, sema.phase left ≠ .outside → sema.phase right ≠ .outside → left = right

def TakesInTime (sema : Esp32Semaphore Task) : SemaEvent Task → Prop
  | .timeout task => ¬sema.Enabled (.timeout task)
  | _ => True

variable [Fintype Task]

def holders (sema : Esp32Semaphore Task) : Finset Task :=
  Finset.univ.filter fun task => sema.phase task = .inside

/-- What holds in every run, with or without timeouts. -/
structure Balanced (sema : Esp32Semaphore Task) : Prop where
  taken : sema.xSemaphore = false → ∃ task, sema.phase task ≠ .outside
  counted : sema.counter = BitVec.ofNat 32 sema.holders.card

/-- What holds besides while no take has timed out. -/
structure Sound (sema : Esp32Semaphore Task) : Prop where
  balanced : sema.Balanced
  exclusive : sema.Exclusive
  locked : ∀ task, sema.phase task ≠ .outside → sema.xSemaphore = false

variable {sema : Esp32Semaphore Task}

omit [DecidableEq Task] in
theorem create_balanced : (create : Esp32Semaphore Task).Balanced := by
  constructor
  · intro taken
    cases taken
  · have none : (create : Esp32Semaphore Task).holders = ∅ :=
      Finset.filter_eq_empty_iff.mpr fun _ _ same => by cases same
    rw [none]
    rfl

omit [DecidableEq Task] in
theorem create_sound : (create : Esp32Semaphore Task).Sound :=
  ⟨create_balanced, fun _ _ left => absurd rfl left, fun _ holds => absurd rfl holds⟩

/-- A step of a task that neither begins nor ends its critical section. -/
theorem holders_elsewhere {task : Task} {phase : SemaPhase} (before : sema.phase task ≠ .inside)
    (after : phase ≠ .inside) (value : Bool) (counter : BitVec 32) :
    holders ⟨value, counter, Function.update sema.phase task phase⟩ = sema.holders := by
  apply Finset.filter_congr
  intro other _
  by_cases same : other = task
  · rw [same]
    simp only [Function.update_self]
    exact iff_of_false after before
  · simp only [Function.update_of_ne same]

theorem holders_count {task : Task} (entered : sema.phase task = .entered) (counter : BitVec 32) :
    (holders ⟨sema.xSemaphore, counter, Function.update sema.phase task .inside⟩).card =
      sema.holders.card + 1 := by
  have outside : task ∉ sema.holders := by
    intro member
    have inside := (Finset.mem_filter.mp member).2
    rw [entered] at inside
    cases inside
  rw [← Finset.card_insert_of_notMem outside]
  apply congrArg Finset.card
  ext other
  by_cases same : other = task
  · simp [holders, same]
  · simp [holders, same]

theorem holders_uncount {task : Task} (inside : sema.phase task = .inside) (counter : BitVec 32) :
    (holders ⟨sema.xSemaphore, counter, Function.update sema.phase task .leaving⟩).card + 1 =
      sema.holders.card := by
  have member : task ∈ sema.holders := Finset.mem_filter.mpr ⟨Finset.mem_univ task, inside⟩
  rw [← Finset.card_erase_add_one member]
  apply congrArg (· + 1)
  apply congrArg Finset.card
  ext other
  by_cases same : other = task
  · simp [holders, same]
  · simp [holders, same]

theorem perform_balanced (event : SemaEvent Task) (enabled : sema.Enabled event)
    (balanced : sema.Balanced) : (sema.perform event).Balanced := by
  cases event with
  | take task =>
      rcases enabled with ⟨outside, _⟩
      constructor
      · exact fun _ => ⟨task, by simp [perform]⟩
      · rw [perform, holders_elsewhere (by simp [outside]) (by simp)]
        exact balanced.counted
  | timeout task =>
      rcases enabled with ⟨outside, _⟩
      constructor
      · exact fun _ => ⟨task, by simp [perform]⟩
      · rw [perform, holders_elsewhere (by simp [outside]) (by simp)]
        exact balanced.counted
  | count task =>
      constructor
      · exact fun _ => ⟨task, by simp [perform]⟩
      · rw [perform, holders_count enabled]
        change sema.counter + 1 = _
        rw [balanced.counted, BitVec.ofNat_add]
        rfl
  | uncount task =>
      have counted := balanced.counted
      constructor
      · exact fun _ => ⟨task, by simp [perform]⟩
      · change sema.counter - 1 = BitVec.ofNat 32 (holders ⟨sema.xSemaphore, sema.counter - 1,
          Function.update sema.phase task .leaving⟩).card
        rw [← holders_uncount enabled (sema.counter - 1), BitVec.ofNat_add] at counted
        exact BitVec.sub_eq_iff_eq_add.mpr counted
  | give task =>
      have leaving : sema.phase task = .leaving := enabled
      constructor
      · intro taken
        cases taken
      · rw [perform, holders_elsewhere (by simp [leaving]) (by simp)]
        exact balanced.counted

theorem step_balanced (event : SemaEvent Task) (balanced : sema.Balanced) :
    (sema.step event).Balanced := by
  unfold step
  split_ifs with enabled
  · exact perform_balanced event enabled balanced
  · exact balanced

omit [Fintype Task] in
/-- A task that stays between `wait` and `release` changes neither who is there nor whether
the semaphore is taken. -/
theorem still_inside {task : Task} {phase : SemaPhase} (before : sema.phase task ≠ .outside)
    (other : Task) (after : Function.update sema.phase task phase other ≠ .outside) :
    sema.phase other ≠ .outside := by
  by_cases same : other = task
  · rw [same]
    exact before
  · rwa [Function.update_of_ne same] at after

theorem perform_sound (event : SemaEvent Task) (enabled : sema.Enabled event)
    (sound : sema.Sound) (intime : sema.TakesInTime event) : (sema.perform event).Sound := by
  have balanced := perform_balanced event enabled sound.balanced
  have staying : ∀ task phase, sema.phase task ≠ .outside →
      (∀ left right, Function.update sema.phase task phase left ≠ .outside →
        Function.update sema.phase task phase right ≠ .outside → left = right) ∧
      ∀ other, Function.update sema.phase task phase other ≠ .outside →
        sema.xSemaphore = false := by
    intro task phase before
    constructor
    · intro left right leftHolds rightHolds
      exact sound.exclusive left right (still_inside before left leftHolds)
        (still_inside before right rightHolds)
    · intro other holds
      exact sound.locked other (still_inside before other holds)
  cases event with
  | take task =>
      rcases enabled with ⟨_, free⟩
      have alone : ∀ other, Function.update sema.phase task .entered other ≠ .outside →
          other = task := by
        intro other holds
        by_contra different
        rw [Function.update_of_ne different] at holds
        have taken := sound.locked other holds
        rw [free] at taken
        cases taken
      exact ⟨balanced, fun left right leftHolds rightHolds =>
        (alone left leftHolds).trans (alone right rightHolds).symm, fun _ _ => rfl⟩
  | timeout task => exact absurd enabled intime
  | count task =>
      have entered : sema.phase task = .entered := enabled
      rcases staying task .inside (by simp [entered]) with ⟨exclusive, locked⟩
      exact ⟨balanced, exclusive, locked⟩
  | uncount task =>
      have inside : sema.phase task = .inside := enabled
      rcases staying task .leaving (by simp [inside]) with ⟨exclusive, locked⟩
      exact ⟨balanced, exclusive, locked⟩
  | give task =>
      have leaving : sema.phase task = .leaving := enabled
      have gone : ∀ other, Function.update sema.phase task .outside other = .outside := by
        intro other
        by_cases same : other = task
        · rw [same, Function.update_self]
        · rw [Function.update_of_ne same]
          by_contra holds
          exact same (sound.exclusive other task holds (by simp [leaving]))
      exact ⟨balanced, fun left _ holds => absurd (gone left) holds,
        fun other holds => absurd (gone other) holds⟩

theorem step_sound (event : SemaEvent Task) (sound : sema.Sound)
    (intime : sema.TakesInTime event) : (sema.step event).Sound := by
  unfold step
  split_ifs with enabled
  · exact perform_sound event enabled sound intime
  · exact sound

/-- A take that times out finds somebody else inside. -/
theorem timeout_intrudes (event : SemaEvent Task) (balanced : sema.Balanced)
    (exclusive : (sema.step event).Exclusive) : sema.TakesInTime event := by
  cases event with
  | timeout task =>
      intro enabled
      rcases balanced.taken enabled.2 with ⟨holder, holds⟩
      have different : holder ≠ task := by
        intro same
        rw [same] at holds
        exact holds enabled.1
      rw [step, if_pos enabled] at exclusive
      apply different
      apply exclusive
      · simpa [perform, Function.update_of_ne different] using holds
      · simp [perform]
  | _ => trivial

omit [DecidableEq Task] in
/-- Nobody inside or one task, so the counter is 0 or 1. -/
theorem Sound.counter_of (sound : sema.Sound) (task : Task) (held : sema.phase task ≠ .outside) :
    sema.counter = if sema.phase task = .inside then 1 else 0 := by
  have only : sema.holders = if sema.phase task = .inside then {task} else ∅ := by
    split_ifs with inside
    · ext other
      rw [Finset.mem_singleton, holders, Finset.mem_filter_univ]
      constructor
      · exact fun there => sound.exclusive other task (by simp [there]) held
      · rintro rfl
        exact inside
    · apply Finset.filter_eq_empty_iff.mpr
      intro other _ there
      rw [sound.exclusive other task (by simp [there]) held] at there
      exact inside there
  rw [sound.balanced.counted, only]
  split_ifs <;> rfl

omit [DecidableEq Task] in
/-- While everything is in order, exactly the timeouts are logged. -/
theorem logged_nil_iff (event : SemaEvent Task) (sound : sema.Sound) :
    sema.logged event = [] ↔ sema.TakesInTime event := by
  unfold logged
  by_cases enabled : sema.Enabled event
  · rw [if_pos enabled]
    cases event with
    | take task => exact iff_of_true rfl trivial
    | timeout task =>
        apply iff_of_false
        · exact List.cons_ne_nil _ _
        · exact not_not_intro enabled
    | count task =>
        have entered : sema.phase task = .entered := enabled
        have counter := sound.counter_of task (by simp [entered])
        rw [entered] at counter
        apply iff_of_true _ trivial
        rw [warnings, counter]
        rfl
    | uncount task =>
        have inside : sema.phase task = .inside := enabled
        have counter := sound.counter_of task (by simp [inside])
        rw [inside] at counter
        apply iff_of_true _ trivial
        rw [warnings, counter]
        rfl
    | give task =>
        have leaving : sema.phase task = .leaving := enabled
        apply iff_of_true _ trivial
        rw [warnings, sound.locked task (by simp [leaving])]
        rfl
  · rw [if_neg enabled]
    apply iff_of_true rfl
    cases event with
    | timeout task => exact enabled
    | _ => trivial

/-- In every interleaving of any number of tasks: no two of them are ever inside at once
exactly when no take times out, and exactly then nothing is logged; whatever timed out, the
semaphore is as new once nobody is inside. -/
theorem sema_exclusive_iff (events : List (SemaEvent Task)) :
    ((∀ before, before <+: events → (run step create before).Exclusive) ↔
      Admits step TakesInTime create events) ∧
    (collected step logged create events = [] ↔ Admits step TakesInTime create events) ∧
    ((∀ task, (run step create events).phase task = .outside) →
      run step create events = (create : Esp32Semaphore Task)) := by
  refine ⟨?_, ?_, ?_⟩
  · exact reached_property_iff_admits step Sound Exclusive TakesInTime
      (fun _ sound => sound.exclusive) (fun _ event sound => step_sound event sound)
      (fun _ event sound => timeout_intrudes event sound.balanced) create events create_sound
  · exact collected_nil_iff step Sound TakesInTime logged
      (fun _ event sound => step_sound event sound)
      (fun _ event sound => logged_nil_iff event sound) create events create_sound
  · intro outside
    have balanced := run_invariant step Balanced (fun _ event => step_balanced event) create events
      create_balanced
    generalize run step create events = final at outside balanced
    rcases final with ⟨value, counter, phase⟩
    have free : value = true := by
      by_contra taken
      rcases balanced.taken (Bool.eq_false_iff.mpr taken) with ⟨task, held⟩
      exact held (outside task)
    have none : holders (⟨value, counter, phase⟩ : Esp32Semaphore Task) = ∅ :=
      Finset.filter_eq_empty_iff.mpr fun task _ inside => by
        rw [outside task] at inside
        cases inside
    have empty := balanced.counted
    rw [none] at empty
    have phases : phase = fun _ => .outside := funext outside
    subst free empty phases
    rfl

end Esp32Semaphore

end Serial2Redis
