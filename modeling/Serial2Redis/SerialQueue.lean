import Serial2Redis.SerialTransmission
import Serial2Redis.Library.GuardedRun

/-!
# From the output queue to the line

What `txd` writes waits in the output queue of the tty until the driver moves it to the
line. `tcdrain` waits for that, `fsync` does not, and `tcflush` discards what is still
queued. The schedule of the driver is the number of bytes it moves before each call.
-/

namespace Serial2Redis

open GuardedRun

structure Tty where
  queue : Bytes
  line : Bytes
  deriving DecidableEq

namespace Tty

/-- The driver moves some bytes. -/
def transmit (tty : Tty) (count : Nat) : Tty where
  queue := tty.queue.drop count
  line := tty.line ++ tty.queue.take count

def perform (tty : Tty) (call : TtyCall) : Tty :=
  match call with
  | .write _ _ => { tty with queue := tty.queue ++ call.accepted }
  | .tcdrain => tty.transmit tty.queue.length
  | .fsync => tty
  | .tcflush => { tty with queue := [] }

/-- The calls from the one with number `index` on, with the moves before each. -/
def play (moves : Nat → Nat) : List TtyCall → Nat → Tty → Tty
  | [], _, tty => tty
  | call :: calls, index, tty =>
      play moves calls (index + 1) ((tty.transmit (moves index)).perform call)

/-- What is on the line when the driver has moved all that is queued. -/
def sent (tty : Tty) : Bytes := (tty.transmit tty.queue.length).line

theorem sent_eq (tty : Tty) : tty.sent = tty.line ++ tty.queue := by
  rw [sent, transmit, List.take_length]

theorem sent_transmit (tty : Tty) (count : Nat) : (tty.transmit count).sent = tty.sent := by
  rw [sent_eq, sent_eq, transmit, List.append_assoc, List.take_append_drop]

theorem sent_write (tty : Tty) (data : Bytes) (rc : Int) :
    (tty.perform (.write data rc)).sent = tty.sent ++ data.take rc.toNat := by
  rw [sent_eq, sent_eq, List.append_assoc]
  rfl

theorem sent_tcdrain (tty : Tty) : (tty.perform .tcdrain).sent = tty.sent :=
  sent_transmit tty tty.queue.length

/-- A `write` that is followed by `tcdrain` leaves nothing in the queue. -/
theorem play_drained (moves : Nat → Nat) (data : Bytes) (rc : Int) (calls : List TtyCall)
    (index : Nat) (tty : Tty) :
    ∃ drained : Tty, play moves ([.write data rc, .tcdrain] ++ calls) index tty =
        play moves calls (index + 2) drained ∧
      drained.queue = [] ∧ drained.sent = tty.sent ++ data.take rc.toNat := by
  let written := (tty.transmit (moves index)).perform (.write data rc)
  have kept : ((written.transmit (moves (index + 1))).perform .tcdrain).sent =
      tty.sent ++ data.take rc.toNat := by
    rw [sent_tcdrain, sent_transmit, sent_write, sent_transmit]
  exact ⟨_, rfl, List.drop_length, kept⟩

theorem play_end (moves : Nat → Nat) (index : Nat) (tty : Tty) :
    (play moves Serial.txdEnd.1 index tty).sent =
      tty.line ++ tty.queue.take (moves index + moves (index + 1)) := by
  rw [List.take_add, ← List.append_assoc]
  exact List.append_nil _

theorem end_carries (moves : Nat → Nat) (index : Nat) (tty : Tty) :
    Carries (tty.queue.length ≤ moves index + moves (index + 1)) tty.sent
      (acceptedBytes Serial.txdEnd.1) (play moves Serial.txdEnd.1 index tty).sent := by
  rw [play_end, sent_eq, accepted_end]
  constructor
  · intro emptied
    rw [List.take_of_length_le emptied, List.append_nil]
  · intro queued
    rw [List.length_append, List.length_append, List.length_take, List.length_nil]
    omega

theorem drained_carries (condition : Nat → Prop) (moves : Nat → Nat) (data : Bytes) (rc : Int)
    (calls : List TtyCall) (index : Nat) (tty : Tty)
    (later : ∀ after : Tty,
      Carries (condition after.queue.length) after.sent (acceptedBytes calls)
        (play moves calls (index + 2) after).sent) :
    Carries (condition 0) tty.sent (acceptedBytes ([.write data rc, .tcdrain] ++ calls))
      (play moves ([.write data rc, .tcdrain] ++ calls) index tty).sent := by
  obtain ⟨drained, played, empty, sent⟩ := play_drained moves data rc calls index tty
  have rest := later drained
  rw [empty] at rest
  rw [played]
  exact Carries.after_kept sent rest

end Tty

/-- When `txd` gets to `tcflush`, the driver has moved all that was queued when the last
`write` returned; a `write` that comes short is followed by `tcdrain`. -/
def Drains (moves : Nat → Nat) : List WriteAnswer → Nat → Nat → Nat → Prop
  | [], len, queued, index => len = 0 → queued ≤ moves index + moves (index + 1)
  | answer :: answers, len, queued, index =>
      if len = 0 then queued ≤ moves index + moves (index + 1)
      else
        match answer with
        | .room room =>
            if len ≤ room.val then
              queued - moves index + len ≤ moves (index + 1) + moves (index + 2)
            else Drains moves answers (len - room.val) 0 (index + 2)
        | .failed errno =>
            errno.val = EAGAIN ∨ errno.val = EWOULDBLOCK → Drains moves answers len 0 (index + 2)

theorem drains_finished (moves : Nat → Nat) (answers : List WriteAnswer) (queued index : Nat) :
    Drains moves answers 0 queued index ↔ queued ≤ moves index + moves (index + 1) := by
  cases answers with
  | nil => simp [Drains]
  | cons answer answers => simp [Drains]

/-- The loop of `txd` carries what it accepts to the line exactly when the driver is
done before the flush. -/
theorem txd_loop_carries (moves : Nat → Nat) {buffer : Bytes} (small : buffer.length < 2 ^ 63)
    (answers : List WriteAnswer) (buf len : Nat) (inside : buf + len = buffer.length)
    (index : Nat) (tty : Tty) :
    Carries (Drains moves answers len tty.queue.length index) tty.sent
      (acceptedBytes (Serial.txdLoop buffer answers buf len).1)
      (Tty.play moves (Serial.txdLoop buffer answers buf len).1 index tty).sent := by
  revert index tty
  apply Serial.txd_loop_induction small
    (motive := fun answers _ len outcome => ∀ index tty,
      Carries (Drains moves answers len (Tty.queue tty).length index) tty.sent
        (acceptedBytes outcome.1) (Tty.play moves outcome.1 index tty).sent)
    _ _ _ _ _ _ answers buf len inside
  · intro answers index tty
    rw [drains_finished]
    exact Tty.end_carries moves index tty
  · intro buf len left inside index tty
    constructor
    · intro _
      exact (List.append_nil _).symm
    · intro queued
      exact absurd (fun nothing => absurd left (by omega)) queued
  · intro room answers buf len left inside fits index tty
    let written := (tty.transmit (moves index)).perform (.write (buffer.drop buf) len)
    have rest : (buffer.drop buf).length = len := by
      rw [List.length_drop]
      omega
    have grown : written.queue.length = tty.queue.length - moves index + len := by
      change (tty.queue.drop _ ++ (buffer.drop buf).take _).length = _
      rw [List.length_append, List.length_drop, List.length_take, rest]
      omega
    have sent : written.sent = tty.sent ++ (buffer.drop buf).take len := by
      rw [Tty.sent_write, Tty.sent_transmit]
      rfl
    have ended := Tty.end_carries moves (index + 1) written
    rw [grown] at ended
    rw [Drains, if_neg (by omega)]
    simp only [fits, if_true]
    exact Carries.after_kept sent ended
  · intro room answers buf len outcome inside fewer carries index tty
    rw [Drains, if_neg (by omega)]
    simp only [Nat.not_le_of_lt fewer, if_false]
    apply Tty.drained_carries
      (fun queued => Drains moves answers (len - room.val) queued (index + 2))
    exact carries (index + 2)
  · intro errno answers buf len outcome left inside again carries index tty
    rw [Drains, if_neg (by omega)]
    simp only [again, forall_const]
    apply Tty.drained_carries (fun queued => Drains moves answers len queued (index + 2))
    exact carries (index + 2)
  · intro errno answers buf len left inside hard index tty
    constructor
    · intro _
      have written := Tty.sent_write (tty.transmit (moves index)) (buffer.drop buf) (-1)
      rw [Tty.sent_transmit] at written
      exact written
    · intro queued
      rw [Drains, if_neg (by omega)] at queued
      exact absurd (fun again => absurd again hard) queued

/-- One element of `_outgoingFrame`: its bytes, what the tty answers, and how the driver
moves bytes meanwhile. -/
structure TxdEvent where
  buffer : TxBuffer
  answers : List WriteAnswer
  moves : Nat → Nat

/-- The tty between two calls of `txd`; `returned` is false when the answers ran out
while it was in its loop. -/
structure Transmission where
  tty : Tty
  returned : Bool
  deriving DecidableEq

namespace Transmission

variable (serial : Serial)

/-- The sink of `_outgoingFrame`, which drops the code that `txd` returns. -/
def outgoing (state : Transmission) (event : TxdEvent) : Transmission :=
  if state.returned then
    let (calls, code) := serial.txd event.answers event.buffer
    ⟨Tty.play event.moves calls 0 state.tty, code.isSome⟩
  else state

def accepted (state : Transmission) (event : TxdEvent) : Bytes :=
  if state.returned then acceptedBytes (serial.txd event.answers event.buffer).1 else []

/-- The driver is done with the queue before `txd` flushes it. -/
def InTime (state : Transmission) (event : TxdEvent) : Prop :=
  state.returned = true →
    Drains event.moves event.answers event.buffer.val.length state.tty.queue.length 0

theorem outgoing_carries (connected : serial.connected = true) (state : Transmission)
    (event : TxdEvent) :
    Carries (state.InTime event) state.tty.sent (accepted serial state event)
      (outgoing serial state event).tty.sent := by
  unfold outgoing accepted InTime
  cases state.returned with
  | false =>
      constructor
      · intro _
        exact (List.append_nil _).symm
      · intro late
        exact absurd (fun returned => absurd returned Bool.false_ne_true) late
  | true =>
      have inside : 0 + event.buffer.val.length = event.buffer.val.length := Nat.zero_add _
      have carries := txd_loop_carries event.moves event.buffer.property event.answers 0 _ inside
        0 state.tty
      simp only [if_true, forall_const, Serial.txd, connected]
      exact carries

/-- All that `txd` got into the queue reaches the line once and in order, and a code 0
stands for the whole buffer, exactly when every call of the run is in time. -/
theorem transmission_lossless_iff (connected : serial.connected = true) (start : Transmission)
    (events : List TxdEvent) :
    ((run (outgoing serial) start events).tty.sent =
        start.tty.sent ++ collected (outgoing serial) (accepted serial) start events ∧
      ∀ event ∈ events, (serial.txd event.answers event.buffer).2 = some 0 →
        acceptedBytes (serial.txd event.answers event.buffer).1 = event.buffer.val) ↔
      Admits (outgoing serial) InTime start events := by
  have carried := carried_iff (outgoing serial) (fun state => state.tty.sent) (accepted serial)
    InTime (outgoing_carries serial connected) start events
  rw [← carried]
  apply and_iff_left
  intro event _
  exact (txd_writes serial connected event.buffer event.answers).complete

end Transmission

def idleTransmission : Transmission where
  tty := ⟨[], []⟩
  returned := true

/-- The sample buffer, on a line that moves as many bytes before each call. -/
def sampleTxd (answers : List WriteAnswer) (rate : Nat) : TxdEvent where
  buffer := sampleBuffer
  answers := answers
  moves _ := rate

theorem transmission_lossless_in_time :
    let events := [sampleTxd [sampleRoom, sampleRoom] 1]
    (run (Transmission.outgoing openSerial) idleTransmission events).tty.sent =
      idleTransmission.tty.sent ++
        collected (Transmission.outgoing openSerial) (Transmission.accepted openSerial)
          idleTransmission events := by
  have admitted : Admits (Transmission.outgoing openSerial) Transmission.InTime idleTransmission
      [sampleTxd [sampleRoom, sampleRoom] 1] := by
    apply And.intro _ trivial
    intro _
    simp [sampleTxd, sampleBuffer, sampleRoom, Drains]
  exact ((Transmission.transmission_lossless_iff openSerial rfl idleTransmission
    [sampleTxd [sampleRoom, sampleRoom] 1]).mpr admitted).1

/-- The driver has not moved anything when the buffer is flushed: three bytes were
accepted, and none of them is on the line or in the queue. -/
theorem transmission_flushed :
    let event := sampleTxd [.room ⟨3, by decide⟩] 0
    (openSerial.txd event.answers event.buffer).2 = some 0 ∧
      acceptedBytes (openSerial.txd event.answers event.buffer).1 = [0x61, 0x62, 0x63] ∧
      (run (Transmission.outgoing openSerial) idleTransmission [event]).tty = ⟨[], []⟩ :=
  ⟨by decide, by decide, by decide⟩

end Serial2Redis
