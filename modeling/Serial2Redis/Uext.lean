import Serial2Redis.Basic
import Serial2Redis.Library.Ledger
import Serial2Redis.Library.Transducer
import Mathlib.Data.List.Perm.Basic

/-!
# The pins of an extension connector

`Uext` of espUdp's `Hardware.cpp`: the devices that share the eight pins of a connector, the
word that remembers which pins are taken and what is logged when a pin is asked for again.
-/

namespace Serial2Redis

open Ledger Transducer

inductive LogicalPin where
  | txd
  | rxd
  | scl
  | sda
  | miso
  | mosi
  | sck
  | cs
  deriving DecidableEq

/-- The values of the enumeration. -/
def LogicalPin.value : LogicalPin → Nat
  | .txd => 0
  | .rxd => 1
  | .scl => 2
  | .sda => 3
  | .miso => 4
  | .mosi => 5
  | .sck => 6
  | .cs => 7

abbrev PhysicalPin := BitVec 32

inductive AdcUnit where
  | adc1
  | adc2
  deriving DecidableEq

structure AdcEntry where
  pin : PhysicalPin
  channel : BitVec 32
  unit : AdcUnit
  deriving DecidableEq

def adcTable : List AdcEntry :=
  [⟨32, 4, .adc1⟩, ⟨33, 5, .adc1⟩, ⟨34, 6, .adc1⟩, ⟨35, 7, .adc1⟩, ⟨36, 0, .adc1⟩,
    ⟨37, 1, .adc1⟩, ⟨38, 2, .adc1⟩, ⟨39, 3, .adc1⟩, ⟨13, 4, .adc2⟩, ⟨14, 5, .adc2⟩,
    ⟨15, 6, .adc2⟩, ⟨25, 8, .adc2⟩]

inductive Device where
  | uart (driver : BitVec 32) (txd rxd : PhysicalPin)
  | spi (miso mosi sck cs : PhysicalPin)
  | i2c (scl sda : PhysicalPin)
  | adc (pin : PhysicalPin) (channel : Option AdcEntry)
  | digitalOut (pin : PhysicalPin)
  | digitalIn (pin : PhysicalPin)

def Device.pins : Device → List PhysicalPin
  | .uart _ txd rxd => [txd, rxd]
  | .spi miso mosi sck cs => [miso, mosi, sck, cs]
  | .i2c scl sda => [scl, sda]
  | .adc pin _ => [pin]
  | .digitalOut pin => [pin]
  | .digitalIn pin => [pin]

/-- What a call leaves behind: the errors that it logs and the device that it returns. -/
inductive UextEvent where
  | pinInUse (lp : LogicalPin) (pinsUsed : BitVec 32)
  | adcChannelNotFound (pin : PhysicalPin)
  | returned (device : Device)

structure Uext where
  pinsUsed : BitVec 32
  connectorIdx : BitVec 32
  physicalPins : LogicalPin → PhysicalPin

namespace Uext

def pinsOne : LogicalPin → PhysicalPin
  | .txd => 19
  | .rxd => 36
  | .scl => 25
  | .sda => 26
  | .miso => 34
  | .mosi => 23
  | .sck => 17
  | .cs => 32

def pinsTwo : LogicalPin → PhysicalPin
  | .txd => 18
  | .rxd => 39
  | .scl => 27
  | .sda => 14
  | .miso => 35
  | .mosi => 22
  | .sck => 16
  | .cs => 33

/-- The constructor; any other connector has the pins that its memory held before. -/
def create (memory : LogicalPin → PhysicalPin) (idx : BitVec 32) : Uext where
  pinsUsed := 0
  connectorIdx := idx
  physicalPins := if idx = 1 then pinsOne else if idx = 2 then pinsTwo else memory

def toPin (uext : Uext) (lp : LogicalPin) : PhysicalPin := uext.physicalPins lp

def lockPin (uext : Uext) (lp : LogicalPin) : Uext × List UextEvent :=
  if uext.pinsUsed &&& (1#32 <<< lp.value) ≠ 0 then (uext, [.pinInUse lp uext.pinsUsed])
  else ({ uext with pinsUsed := uext.pinsUsed ||| (1#32 <<< lp.value) }, [])

def getUART (uext : Uext) : Uext × List UextEvent :=
  let (uext, txd) := uext.lockPin .txd
  let (uext, rxd) := uext.lockPin .rxd
  (uext, txd ++ rxd ++ [.returned (.uart uext.connectorIdx (uext.toPin .txd) (uext.toPin .rxd))])

def getSPI (uext : Uext) : Uext × List UextEvent :=
  let spi := Device.spi (uext.toPin .miso) (uext.toPin .mosi) (uext.toPin .sck) (uext.toPin .cs)
  let (uext, miso) := uext.lockPin .miso
  let (uext, mosi) := uext.lockPin .mosi
  let (uext, sck) := uext.lockPin .sck
  let (uext, cs) := uext.lockPin .cs
  (uext, miso ++ mosi ++ sck ++ cs ++ [.returned spi])

def getI2C (uext : Uext) : Uext × List UextEvent :=
  let (uext, sda) := uext.lockPin .sda
  let (uext, scl) := uext.lockPin .scl
  (uext, sda ++ scl ++ [.returned (.i2c (uext.toPin .scl) (uext.toPin .sda))])

/-- `ADC_ESP32::ADC_ESP32` -/
def createADC (pin : PhysicalPin) : List UextEvent :=
  match adcTable.find? (·.pin = pin) with
  | some entry => [.returned (.adc pin entry)]
  | none => [.adcChannelNotFound pin, .returned (.adc pin none)]

def getADC (uext : Uext) (pin : LogicalPin) : Uext × List UextEvent :=
  let (uext, sda) := uext.lockPin .sda
  (uext, sda ++ createADC (uext.toPin pin))

def getDigitalOut (uext : Uext) (lp : LogicalPin) : Uext × List UextEvent :=
  let (uext, locked) := uext.lockPin lp
  (uext, locked ++ [.returned (.digitalOut (uext.toPin lp))])

def getDigitalIn (uext : Uext) (lp : LogicalPin) : Uext × List UextEvent :=
  let (uext, locked) := uext.lockPin lp
  (uext, locked ++ [.returned (.digitalIn (uext.toPin lp))])

end Uext

inductive UextCall where
  | getUART
  | getSPI
  | getI2C
  | getADC (pin : LogicalPin)
  | getDigitalOut (lp : LogicalPin)
  | getDigitalIn (lp : LogicalPin)

def UextCall.apply (uext : Uext) : UextCall → Uext × List UextEvent
  | .getUART => uext.getUART
  | .getSPI => uext.getSPI
  | .getI2C => uext.getI2C
  | .getADC pin => uext.getADC pin
  | .getDigitalOut lp => uext.getDigitalOut lp
  | .getDigitalIn lp => uext.getDigitalIn lp

/-- The pins that a call locks. -/
def UextCall.locks : UextCall → List LogicalPin
  | .getUART => [.txd, .rxd]
  | .getSPI => [.miso, .mosi, .sck, .cs]
  | .getI2C => [.sda, .scl]
  | .getADC _ => [.sda]
  | .getDigitalOut lp => [lp]
  | .getDigitalIn lp => [lp]

/-- The pins of the device that a call returns. -/
def UextCall.uses : UextCall → List LogicalPin
  | .getUART => [.txd, .rxd]
  | .getSPI => [.miso, .mosi, .sck, .cs]
  | .getI2C => [.scl, .sda]
  | .getADC pin => [pin]
  | .getDigitalOut lp => [lp]
  | .getDigitalIn lp => [lp]

/-- The pin that is converted, if an ADC is asked for. -/
def UextCall.converts : UextCall → List LogicalPin
  | .getADC pin => [pin]
  | _ => []

def hasChannel (pin : PhysicalPin) : Bool := adcTable.any (·.pin = pin)

/-- What is written to the log. -/
def UextEvent.isError : UextEvent → Bool
  | .pinInUse _ _ => true
  | .adcChannelNotFound _ => true
  | .returned _ => false

def UextEvent.refused : UextEvent → Option LogicalPin
  | .pinInUse lp _ => some lp
  | _ => none

def UextEvent.unfound : UextEvent → List PhysicalPin
  | .adcChannelNotFound pin => [pin]
  | _ => []

def UextEvent.gpios : UextEvent → List PhysicalPin
  | .returned device => device.pins
  | _ => []

/-- `uext1` and `uextUs` -/
inductive Connector where
  | one
  | two
  deriving DecidableEq

namespace Connector

def idx : Connector → BitVec 32
  | .one => 1
  | .two => 2

def start (memory : LogicalPin → PhysicalPin) (connector : Connector) : Uext :=
  Uext.create memory connector.idx

/-- A call on one of the connectors. -/
def call (board : Connector → Uext) (made : Connector × UextCall) :
    (Connector → Uext) × List (Connector × UextEvent) :=
  let (uext, events) := made.2.apply (board made.1)
  (Function.update board made.1 uext, events.map (made.1, ·))

/-- Which GPIO is wired to which pin of which connector. -/
def gpio : Connector × LogicalPin → PhysicalPin
  | (.one, lp) => Uext.pinsOne lp
  | (.two, lp) => Uext.pinsTwo lp

end Connector

def refusedPins (events : List (Connector × UextEvent)) : List (Connector × LogicalPin) :=
  events.filterMap fun event => event.2.refused.map (event.1, ·)

def errors (events : List (Connector × UextEvent)) : List (Connector × UextEvent) :=
  events.filter (·.2.isError)

def unfoundGpios (events : List (Connector × UextEvent)) : List PhysicalPin :=
  events.flatMap fun event => event.2.unfound

def returnedGpios (events : List (Connector × UextEvent)) : List PhysicalPin :=
  events.flatMap fun event => event.2.gpios

def lockedPins (calls : List (Connector × UextCall)) : List (Connector × LogicalPin) :=
  calls.flatMap fun made => made.2.locks.map (made.1, ·)

def usedPins (calls : List (Connector × UextCall)) : List (Connector × LogicalPin) :=
  calls.flatMap fun made => made.2.uses.map (made.1, ·)

def convertedPins (calls : List (Connector × UextCall)) : List (Connector × LogicalPin) :=
  calls.flatMap fun made => made.2.converts.map (made.1, ·)

namespace Uext

/-- The bit of a pin. -/
def used (uext : Uext) (lp : LogicalPin) : Bool := uext.pinsUsed.getLsbD lp.value

theorem pin_value_lt (lp : LogicalPin) : lp.value < 32 := by
  cases lp <;> decide

theorem pin_value_injective {lp other : LogicalPin} (same : lp.value = other.value) :
    lp = other := by
  cases lp <;> cases other <;> first | rfl | exact absurd same (by decide)

theorem bit_set_iff (word : BitVec 32) (index : Nat) (small : index < 32) :
    word &&& (1#32 <<< index) ≠ 0 ↔ word.getLsbD index = true := by
  rw [← BitVec.twoPow_eq, BitVec.and_twoPow]
  cases set : word.getLsbD index with
  | false => simp
  | true =>
      have filled : BitVec.twoPow 32 index ≠ 0 := by
        intro empty
        have bit := congrArg (fun word : BitVec 32 => word.getLsbD index) empty
        simp [small] at bit
      simpa using filled

theorem lock_pin_used (uext : Uext) (lp : LogicalPin) (taken : uext.used lp = true) :
    uext.lockPin lp = (uext, [.pinInUse lp uext.pinsUsed]) := by
  rw [lockPin, if_pos ((bit_set_iff _ _ (pin_value_lt lp)).mpr taken)]

theorem lock_pin_free (uext : Uext) (lp : LogicalPin) (free : uext.used lp = false) :
    uext.lockPin lp = ({ uext with pinsUsed := uext.pinsUsed ||| (1#32 <<< lp.value) }, []) := by
  rw [lockPin, if_neg]
  intro taken
  have set := (bit_set_iff _ _ (pin_value_lt lp)).mp taken
  exact Bool.false_ne_true (free.symm.trans set)

theorem lock_pin_pins (uext : Uext) (lp : LogicalPin) :
    (uext.lockPin lp).1.physicalPins = uext.physicalPins := by
  unfold lockPin
  split <;> rfl

theorem used_after_lock (uext : Uext) (lp other : LogicalPin) :
    (uext.lockPin lp).1.used other = (uext.used other || decide (other = lp)) := by
  cases taken : uext.used lp with
  | true =>
      rw [lock_pin_used uext lp taken]
      by_cases same : other = lp
      · rw [same, taken]
        rfl
      · simp [same]
  | false =>
      have bit : (1#32 <<< lp.value).getLsbD other.value = decide (other = lp) := by
        have power : (1#32 <<< lp.value) = BitVec.twoPow 32 lp.value :=
          (BitVec.twoPow_eq 32 lp.value).symm
        rw [power, BitVec.getLsbD_twoPow]
        by_cases same : other = lp
        · simp [same, pin_value_lt lp]
        · have distinct : lp.value ≠ other.value := fun equal =>
            same (pin_value_injective equal).symm
          simp [same, distinct]
      rw [lock_pin_free uext lp taken, used, BitVec.getLsbD_or, bit]
      rfl

def refused (events : List UextEvent) : List LogicalPin := events.filterMap UextEvent.refused

theorem refused_append (left right : List UextEvent) :
    refused (left ++ right) = refused left ++ refused right := List.filterMap_append

theorem refused_lock (uext : Uext) (lp other : LogicalPin) :
    (refused (uext.lockPin lp).2).count other =
      if uext.used other = true ∧ lp = other then 1 else 0 := by
  cases taken : uext.used lp with
  | true =>
      rw [lock_pin_used uext lp taken]
      by_cases same : lp = other
      · rw [if_pos ⟨same ▸ taken, same⟩, same]
        exact List.count_singleton_self
      · rw [if_neg fun both => same both.2]
        exact List.count_eq_zero.mpr fun member => same (List.mem_singleton.mp member).symm
  | false =>
      have clash : ¬(uext.used other = true ∧ lp = other) := by
        rintro ⟨set, same⟩
        rw [← same, taken] at set
        exact Bool.false_ne_true set
      rw [lock_pin_free uext lp taken, if_neg clash]
      rfl

/-- Every lock of a pin but the one that takes it is refused. -/
theorem refused_locks (locks : List LogicalPin) (uext : Uext) (lp : LogicalPin) :
    (refused (feed lockPin uext locks).2).count lp =
      locks.count lp - if uext.used lp = true then 0 else 1 := by
  induction locks generalizing uext with
  | nil => exact (Nat.zero_sub _).symm
  | cons first locks induction =>
      rw [feed_cons, refused_append, List.count_append, refused_lock, induction, used_after_lock,
        List.count_cons]
      by_cases taken : uext.used lp = true
      · by_cases same : first = lp
        · simp [taken, same, Nat.add_comm]
        · simp [taken, same]
      · by_cases same : first = lp
        · simp [taken, same]
        · have later : lp ≠ first := fun equal => same equal.symm
          simp [taken, same, later]

theorem used_after_locks (locks : List LogicalPin) (uext : Uext) (lp : LogicalPin) :
    (feed lockPin uext locks).1.used lp = (uext.used lp || decide (lp ∈ locks)) := by
  induction locks generalizing uext with
  | nil => simp
  | cons first locks induction =>
      rw [feed_cons, induction, used_after_lock, Bool.or_assoc]
      simp only [List.mem_cons, Bool.decide_or]

theorem gpios_lock (uext : Uext) (lp : LogicalPin) :
    (uext.lockPin lp).2.flatMap UextEvent.gpios = [] := by
  unfold lockPin
  split <;> rfl

theorem unfound_lock (uext : Uext) (lp : LogicalPin) :
    (uext.lockPin lp).2.flatMap UextEvent.unfound = [] := by
  unfold lockPin
  split <;> rfl

theorem unfound_create_adc (pin : PhysicalPin) :
    (createADC pin).flatMap UextEvent.unfound = [pin].filter (!hasChannel ·) := by
  have channel : hasChannel pin = (adcTable.find? (·.pin = pin)).isSome := by
    rw [Bool.eq_iff_iff, List.find?_isSome, hasChannel, List.any_eq_true]
  unfold createADC
  cases found : adcTable.find? (·.pin = pin) with
  | some entry => simp [channel, found, UextEvent.unfound]
  | none => simp [channel, found, UextEvent.unfound]

theorem refused_create_adc (pin : PhysicalPin) : refused (createADC pin) = [] := by
  unfold createADC
  split <;> rfl

theorem gpios_create_adc (pin : PhysicalPin) :
    (createADC pin).flatMap UextEvent.gpios = [pin] := by
  unfold createADC
  split <;> rfl

/-- A call locks its pins one after the other and returns a device on the pins it uses. -/
theorem apply_locks (call : UextCall) (uext : Uext) :
    (call.apply uext).1 = (feed lockPin uext call.locks).1 ∧
      refused (call.apply uext).2 = refused (feed lockPin uext call.locks).2 ∧
      (call.apply uext).2.flatMap UextEvent.gpios = call.uses.map uext.physicalPins := by
  have returned : ∀ device, refused [.returned device] = [] := fun device => rfl
  cases call with
  | getUART | getSPI | getI2C | getDigitalOut | getDigitalIn =>
      refine ⟨rfl, ?_, ?_⟩
      · simp only [UextCall.apply, UextCall.locks, getUART, getSPI, getI2C, getDigitalOut,
          getDigitalIn, feed_cons, feed_nil, refused_append, returned, List.append_nil,
          List.append_assoc]
      · simp only [UextCall.apply, UextCall.uses, getUART, getSPI, getI2C, getDigitalOut,
          getDigitalIn, List.flatMap_append, gpios_lock, List.nil_append, toPin, lock_pin_pins]
        rfl
  | getADC pin =>
      refine ⟨rfl, ?_, ?_⟩
      · simp only [UextCall.apply, UextCall.locks, getADC, feed_cons, feed_nil, refused_append,
          refused_create_adc, List.append_nil]
      · simp only [UextCall.apply, UextCall.uses, getADC, List.flatMap_append, gpios_lock,
          gpios_create_adc, List.nil_append, toPin, lock_pin_pins]
        rfl

/-- Only an ADC on a pin without a channel is reported for that. -/
theorem apply_unfound (call : UextCall) (uext : Uext) :
    (call.apply uext).2.flatMap UextEvent.unfound =
      (call.converts.map uext.physicalPins).filter (!hasChannel ·) := by
  have returned : ∀ device, [UextEvent.returned device].flatMap UextEvent.unfound = [] :=
    fun device => rfl
  cases call with
  | getUART | getSPI | getI2C | getDigitalOut | getDigitalIn =>
      simp only [UextCall.apply, UextCall.converts, getUART, getSPI, getI2C, getDigitalOut,
        getDigitalIn, List.flatMap_append, unfound_lock, returned, List.nil_append]
      rfl
  | getADC pin =>
      simp only [UextCall.apply, UextCall.converts, getADC, List.flatMap_append, unfound_lock,
        unfound_create_adc, List.nil_append, toPin, lock_pin_pins]
      rfl

theorem locks_pins (locks : List LogicalPin) (uext : Uext) :
    (feed lockPin uext locks).1.physicalPins = uext.physicalPins :=
  feed_invariant lockPin (fun later => later.physicalPins = uext.physicalPins)
    (fun later lp same => (lock_pin_pins later lp).trans same) uext locks rfl

end Uext

namespace Connector

theorem count_own (connector other : Connector) (pins : List LogicalPin) (lp : LogicalPin) :
    (pins.map (connector, ·)).count (other, lp) =
      if connector = other then pins.count lp else 0 := by
  by_cases same : connector = other
  · rw [if_pos same, ← same]
    exact List.count_map_of_injective pins (connector, ·)
      (fun _ _ equal => congrArg Prod.snd equal) lp
  · rw [if_neg same]
    apply List.count_eq_zero.mpr
    intro member
    rcases List.mem_map.mp member with ⟨pin, inside, equal⟩
    exact same (congrArg Prod.fst equal)

theorem refused_pins_own (connector : Connector) (events : List UextEvent) :
    refusedPins (events.map (connector, ·)) = (Uext.refused events).map (connector, ·) := by
  rw [refusedPins, List.filterMap_map, Uext.refused, List.map_filterMap]
  rfl

theorem call_own (board : Connector → Uext) (made : Connector × UextCall) :
    (call board made).1 made.1 = (feed Uext.lockPin (board made.1) made.2.locks).1 := by
  rw [← (Uext.apply_locks made.2 (board made.1)).1]
  exact Function.update_self made.1 _ board

theorem call_other (board : Connector → Uext) (made : Connector × UextCall)
    (connector : Connector) (other : connector ≠ made.1) :
    (call board made).1 connector = board connector := Function.update_of_ne other _ board

/-- Over every run of calls on the connectors every lock but the first of a pin is reported. -/
theorem refused_calls (calls : List (Connector × UextCall)) (board : Connector → Uext)
    (connector : Connector) (lp : LogicalPin) :
    (refusedPins (feed call board calls).2).count (connector, lp) =
      (lockedPins calls).count (connector, lp) -
        if (board connector).used lp = true then 0 else 1 := by
  induction calls generalizing board with
  | nil => exact (Nat.zero_sub _).symm
  | cons made calls induction =>
      have locks := Uext.apply_locks made.2 (board made.1)
      have later := induction (call board made).1
      rw [feed_cons, refusedPins, List.filterMap_append, List.count_append]
      rw [refusedPins] at later
      have now : ((call board made).2.filterMap fun event =>
          event.2.refused.map (event.1, ·)).count (connector, lp) =
            if made.1 = connector then
              made.2.locks.count lp - if (board made.1).used lp = true then 0 else 1
            else 0 := by
        rw [← Uext.refused_locks, ← locks.2.1, ← count_own, ← refused_pins_own]
        rfl
      have split : (lockedPins (made :: calls)).count (connector, lp) =
          (if made.1 = connector then made.2.locks.count lp else 0) +
            (lockedPins calls).count (connector, lp) := by
        rw [← count_own, ← List.count_append]
        rfl
      rw [later, now, split]
      by_cases own : made.1 = connector
      · have set : ((call board made).1 connector).used lp =
            ((board connector).used lp || decide (lp ∈ made.2.locks)) := by
          rw [← Uext.used_after_locks, ← own, call_own]
        rw [set, if_pos own, if_pos own, own]
        by_cases taken : (board connector).used lp = true
        · simp [taken]
        · by_cases member : lp ∈ made.2.locks
          · have positive := List.count_pos_iff.mpr member
            simp [taken, member]
            omega
          · have none := List.count_eq_zero.mpr member
            simp [taken, member, none]
      · rw [call_other board made connector fun equal => own equal.symm, if_neg own, if_neg own,
          Nat.zero_add, Nat.zero_add]

theorem call_pins (board : Connector → Uext) (made : Connector × UextCall)
    (connector : Connector) :
    ((call board made).1 connector).physicalPins = (board connector).physicalPins := by
  by_cases own : connector = made.1
  · rw [own, call_own, Uext.locks_pins]
  · rw [call_other board made connector own]

/-- What each call leaves behind for the pins of its connector, a run of calls leaves behind
for the GPIOs that they are wired to. -/
theorem read_calls (read : UextEvent → List PhysicalPin)
    (made : UextCall → (LogicalPin → PhysicalPin) → List PhysicalPin)
    (own : ∀ call uext, (call.apply uext).2.flatMap read = made call uext.physicalPins)
    (calls : List (Connector × UextCall)) (board : Connector → Uext)
    (wired : ∀ connector, (board connector).physicalPins = fun lp => gpio (connector, lp)) :
    (feed call board calls).2.flatMap (fun event => read event.2) =
      calls.flatMap fun each => made each.2 fun lp => gpio (each.1, lp) := by
  induction calls generalizing board with
  | nil => rfl
  | cons first calls induction =>
      have later := induction (call board first).1
        fun connector => (call_pins board first connector).trans (wired connector)
      have now : (call board first).2.flatMap (fun event => read event.2) =
          made first.2 fun lp => gpio (first.1, lp) := by
        rw [call, List.flatMap_map, ← wired]
        exact own first.2 (board first.1)
      rw [feed_cons, List.flatMap_append, List.flatMap_cons, now, later]

theorem start_wired (memory : LogicalPin → PhysicalPin) (connector : Connector) :
    (start memory connector).physicalPins = fun lp => gpio (connector, lp) := by
  cases connector <;> rfl

theorem gpios_calls (memory : LogicalPin → PhysicalPin) (calls : List (Connector × UextCall)) :
    returnedGpios (feed call (start memory) calls).2 = (usedPins calls).map gpio := by
  have read := read_calls UextEvent.gpios (fun call pins => call.uses.map pins)
    (fun call uext => (Uext.apply_locks call uext).2.2) calls (start memory) (start_wired memory)
  rw [returnedGpios, read, usedPins, List.map_flatMap]
  simp only [List.map_map]
  rfl

theorem unfound_calls (memory : LogicalPin → PhysicalPin) (calls : List (Connector × UextCall)) :
    unfoundGpios (feed call (start memory) calls).2 =
      ((convertedPins calls).map gpio).filter (!hasChannel ·) := by
  have read := read_calls UextEvent.unfound
    (fun call pins => (call.converts.map pins).filter (!hasChannel ·)) Uext.apply_unfound calls
    (start memory) (start_wired memory)
  rw [unfoundGpios, read, convertedPins, List.map_flatMap, List.filter_flatMap]
  simp only [List.map_map]
  rfl

/-- A line of the log is about a lock that was refused or a pin without a channel. -/
theorem errors_nil_iff (events : List (Connector × UextEvent)) :
    errors events = [] ↔ refusedPins events = [] ∧ unfoundGpios events = [] := by
  rw [errors, refusedPins, unfoundGpios, List.filter_eq_nil_iff, List.filterMap_eq_nil_iff,
    List.flatMap_eq_nil_iff, ← forall₂_and]
  apply forall₂_congr
  intro event member
  cases event.2 <;> simp [UextEvent.isError, UextEvent.refused, UextEvent.unfound]

def wiredPins : List (Connector × LogicalPin) :=
  [Connector.one, Connector.two].flatMap fun connector =>
    [LogicalPin.txd, .rxd, .scl, .sda, .miso, .mosi, .sck, .cs].map (connector, ·)

theorem gpio_injective : Function.Injective gpio := by
  have distinct : (wiredPins.map gpio).Nodup := by decide
  have every : ∀ pin, pin ∈ wiredPins := by
    rintro ⟨connector, lp⟩
    cases connector <;> cases lp <;> decide
  intro pin other same
  exact List.inj_on_of_nodup_map distinct (every pin) (every other) same

theorem reported_from_start (memory : LogicalPin → PhysicalPin)
    (calls : List (Connector × UextCall)) (pin : Connector × LogicalPin) :
    (refusedPins (feed call (start memory) calls).2).count pin =
      (lockedPins calls).count pin - 1 := by
  have count := refused_calls calls (start memory) pin.1 pin.2
  have free : (start memory pin.1).used pin.2 = false := by
    simp [start, Uext.create, Uext.used]
  rwa [free] at count

theorem silent_from_start (memory : LogicalPin → PhysicalPin)
    (calls : List (Connector × UextCall)) :
    errors (feed call (start memory) calls).2 = [] ↔
      (lockedPins calls).Nodup ∧ ∀ pin ∈ convertedPins calls, hasChannel (gpio pin) = true := by
  rw [errors_nil_iff, refused_nil_iff _ _ (reported_from_start memory calls), unfound_calls]
  apply and_congr_right
  intro free
  rw [List.filter_eq_nil_iff, List.forall_mem_map]
  apply forall₂_congr
  intro pin member
  rw [Bool.not_eq_true', Bool.not_eq_false]

theorem gpios_from_start (memory : LogicalPin → PhysicalPin)
    (calls : List (Connector × UextCall)) :
    (returnedGpios (feed call (start memory) calls).2).Nodup ↔ (usedPins calls).Nodup := by
  rw [gpios_calls]
  exact List.nodup_map_iff gpio_injective

theorem locked_perm_used (calls : List (Connector × UextCall))
    (converted : ∀ pin ∈ convertedPins calls, pin.2 = .sda) :
    (lockedPins calls).Perm (usedPins calls) := by
  apply List.Perm.flatMap_left
  intro made member
  apply List.Perm.map
  cases call : made.2 with
  | getI2C => exact List.Perm.swap _ _ _
  | getADC pin =>
      have asked : (made.1, pin) ∈ convertedPins calls :=
        List.mem_flatMap.mpr ⟨made, member, by rw [call]; exact List.mem_singleton_self _⟩
      rw [show pin = .sda from converted _ asked]
      exact List.Perm.refl _
  | getUART | getSPI | getDigitalOut | getDigitalIn => exact List.Perm.refl _

/-- The log reports every lock of a pin but the first and every ADC on a pin without a
channel, and nothing else; the devices have GPIOs of their own exactly when no pin is used
twice. So while only `SDA` is converted, the log is silent exactly when no GPIO is shared and
each ADC has a channel; any other pin is converted and shared without a line about that. -/
theorem uext_pins_exclusive (memory : LogicalPin → PhysicalPin) :
    (∀ calls pin, (refusedPins (feed call (start memory) calls).2).count pin =
      (lockedPins calls).count pin - 1) ∧
    (∀ calls, unfoundGpios (feed call (start memory) calls).2 =
      ((convertedPins calls).map gpio).filter (!hasChannel ·)) ∧
    (∀ calls, errors (feed call (start memory) calls).2 = [] ↔
      (lockedPins calls).Nodup ∧ ∀ pin ∈ convertedPins calls, hasChannel (gpio pin) = true) ∧
    (∀ calls, (returnedGpios (feed call (start memory) calls).2).Nodup ↔
      (usedPins calls).Nodup) ∧
    (∀ calls, (∀ pin ∈ convertedPins calls, pin.2 = .sda) →
      (errors (feed call (start memory) calls).2 = [] ↔
        (returnedGpios (feed call (start memory) calls).2).Nodup ∧
          ∀ pin ∈ convertedPins calls, hasChannel (gpio pin) = true)) ∧
    (∀ connector pin, pin ≠ .sda →
      let shared := (feed call (start memory)
        [(connector, .getADC pin), (connector, .getDigitalIn pin)]).2
      ¬(returnedGpios shared).Nodup ∧ refusedPins shared = [] ∧
        (errors shared = [] ↔ hasChannel (gpio (connector, pin)) = true)) := by
  refine ⟨reported_from_start memory, unfound_calls memory, silent_from_start memory,
    gpios_from_start memory, ?_, ?_⟩
  · intro calls converted
    rw [silent_from_start, gpios_from_start, (locked_perm_used calls converted).nodup_iff]
  · intro connector pin other
    have locked :
        (lockedPins [(connector, .getADC pin), (connector, .getDigitalIn pin)]).Nodup := by
      simp [lockedPins, UextCall.locks, other.symm]
    refine ⟨?_, (refused_nil_iff _ _ (reported_from_start memory _)).mpr locked, ?_⟩
    · rw [gpios_from_start]
      simp [usedPins, UextCall.uses]
    · rw [silent_from_start]
      simp [locked, convertedPins, UextCall.converts]

/-- `SDA` of the first connector has no channel, that of the second one has. -/
example : hasChannel (gpio (.one, .sda)) = false ∧ hasChannel (gpio (.two, .sda)) = true := by
  decide

end Connector

end Serial2Redis
