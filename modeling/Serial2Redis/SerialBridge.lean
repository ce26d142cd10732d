import Serial2Redis.PubSubLink
import Serial2Redis.PublishAlive
import Serial2Redis.SerialReception
import Serial2Redis.SerialQueue

/-!
# The bridge of `serial2redis` in both directions

The flows that `main` connects for the frame `crlf` and the format `json`, with its timer, on
one thread that takes what the port has read, its errors, the responses of Redis, the ticks
and the turns of the two queues of the session in any order. When a queue refuses is left to
limero.
-/

namespace Serial2Redis

open GuardedRun Transducer

/-- `Framing crlf("\r\n", 10000)` -/
def crlf : Framing := ⟨crlfDelimiter, 10000⟩

/-- What the thread is woken for, with the answers of the system while it works on it. -/
inductive BridgeEvent where
  | read (event : ReadEvent)
  | error (lost : ReconnectCalls)
  | dequeueIncoming
  | response (response : Json)
  | dequeueOutgoing (answers : List WriteAnswer) (moves : Nat → Nat)
  | tick

/-- `incomingFrame` and `outgoingFrame` are the queues of the session, `port` is the variable
of `main`; `ended` is set when an exception has left a handler. -/
structure SerialBridge (thread : InvokerThread) where
  port : CppString
  turn : Turn thread
  transmission : Transmission
  incomingFrame : List Bytes
  deframer : Deframer
  outgoingFrame : List Bytes
  ended : Bool

namespace SerialBridge

variable {thread : InvokerThread}

/-- Whether the handler of the event before has returned. -/
def free (bridge : SerialBridge thread) : Bool :=
  bridge.turn.returned && bridge.transmission.returned && !bridge.ended

/-- The line after a handler that may have closed the port: nothing stays queued then. -/
def reopened (before after : Turn thread) (transmission : Transmission) : Transmission :=
  if after.session.serialPort.calls.length = before.session.serialPort.calls.length then
    transmission
  else { transmission with tty := { transmission.tty with queue := [] } }

/-- `QueueFlow::on` -/
def enqueue (full : List Bytes → Bool) (queue : List Bytes) (message : Bytes) : List Bytes :=
  if full queue then queue else queue ++ [message]

/-- `redis.response() >> responseToCrlfCrc() >> crlf.frame()` -/
def frames (host : ArduinoJson) (response : Json) : List Bytes :=
  (flow (responseToCrlfCrc host) response).flatMap (flow crlf.frame)

/-- One frame to `txd`; no vector has 2 ^ 63 bytes. -/
def sendFrame (serial : Serial) (answers : List WriteAnswer) (moves : Nat → Nat)
    (transmission : Transmission) (frame : Bytes) : Transmission :=
  if small : frame.length < 2 ^ 63 then
    transmission.outgoing serial ⟨⟨frame, small⟩, answers, moves⟩
  else transmission

/-- What a read event hands to the queue of the session. -/
def handed (bridge : SerialBridge thread) (event : ReadEvent) : List Bytes :=
  (bridge.turn.readStep event).session.incoming.drop bridge.turn.session.incoming.length

/-- One event, taken when the handler of the one before has returned. -/
def step (host : ArduinoJson) (full : List Bytes → Bool) (bridge : SerialBridge thread)
    (event : BridgeEvent) : SerialBridge thread :=
  if bridge.free then
    match event with
    | .read event =>
        let turn := bridge.turn.readStep event
        { bridge with
          turn := turn
          transmission := reopened bridge.turn turn bridge.transmission
          incomingFrame := (bridge.handed event).foldl (enqueue full) bridge.incomingFrame }
    | .error lost =>
        let turn := bridge.turn.step (.error lost)
        { bridge with
          turn := turn
          transmission := reopened bridge.turn turn bridge.transmission }
    | .dequeueIncoming =>
        { bridge with
          incomingFrame := bridge.incomingFrame.drop 1
          deframer := (bridge.deframer.on (bridge.incomingFrame.take 1).flatten).1 }
    | .response response =>
        { bridge with
          outgoingFrame := (frames host response).foldl (enqueue full) bridge.outgoingFrame }
    | .dequeueOutgoing answers moves =>
        { bridge with
          outgoingFrame := bridge.outgoingFrame.drop 1
          transmission := (bridge.outgoingFrame.take 1).foldl
            (sendFrame bridge.turn.session.serialPort answers moves) bridge.transmission }
    | .tick =>
        match publishAliveFlow bridge.port with
        | .ok _ => bridge
        | .error _ => { bridge with ended := true }
  else bridge

/-- `serial.init(); serial.connect();` -/
def start (thread : InvokerThread) (port : CppString) (baudrate : Nat) (answers : ConnectCalls) :
    SerialBridge thread where
  port := port
  turn := Turn.start thread port baudrate answers
  transmission := idleTransmission
  incomingFrame := []
  deframer := crlf.deframe
  outgoingFrame := []
  ended := false

/-- `serial.incoming() >> crlf.deframe() >> crlfCrcToRequest() >> redis.request()` -/
def deviceRequests (host : ArduinoJson) (bridge : SerialBridge thread) : BridgeEvent → List Json
  | .dequeueIncoming =>
      if bridge.free then
        (bridge.deframer.on (bridge.incomingFrame.take 1).flatten).2.flatMap
          (flow (crlfCrcToRequest host))
      else []
  | _ => []

/-- `timer >> *publishAlive >> redis.request()` -/
def timerRequests (bridge : SerialBridge thread) : BridgeEvent → List Json
  | .tick =>
      if bridge.free then
        match publishAliveFlow bridge.port with
        | .ok requests => requests
        | .error _ => []
      else []
  | _ => []

/-- What is given to `redis.request()`. -/
def requests (host : ArduinoJson) (bridge : SerialBridge thread) (event : BridgeEvent) :
    List Json :=
  bridge.deviceRequests host event ++ bridge.timerRequests event

/-- The requests that still wait in the queue of what was read. -/
def pending (host : ArduinoJson) (bridge : SerialBridge thread) : List Json :=
  (bridge.deframer.on bridge.incomingFrame.flatten).2.flatMap (flow (crlfCrcToRequest host))

/-- The bytes that `read` returned in an event. -/
def received (bridge : SerialBridge thread) : BridgeEvent → Bytes
  | .read event => if bridge.free then bridge.turn.received event else []
  | _ => []

/-- The frames that Redis gave to send in an event. -/
def given (host : ArduinoJson) (_ : SerialBridge thread) : BridgeEvent → List Bytes
  | .response response => frames host response
  | _ => []

/-- The frames that leave the queue in an event. -/
def taken (bridge : SerialBridge thread) : BridgeEvent → List Bytes
  | .dequeueOutgoing _ _ => if bridge.free then bridge.outgoingFrame.take 1 else []
  | _ => []

/-- Nothing is lost in an event: no `read` fails after it has given data, no queue refuses, a
frame is written to a connected port that is done with it before it is flushed, and the name
of the port is long enough for the timer. -/
def Smooth (host : ArduinoJson) (full : List Bytes → Bool) (bridge : SerialBridge thread) :
    BridgeEvent → Prop
  | .read event => ¬bridge.turn.Drops event ∧ (bridge.handed event = [] ∨
      full bridge.incomingFrame = false)
  | .error _ => True
  | .dequeueIncoming => True
  | .response response => bridge.free = true ∧ (frames host response = [] ∨
      full bridge.outgoingFrame = false)
  | .dequeueOutgoing answers moves =>
      ∀ frame ∈ bridge.taken (.dequeueOutgoing answers moves),
        bridge.turn.session.serialPort.connected = true ∧ ∃ small : frame.length < 2 ^ 63,
          Drains moves answers frame.length 0 0 ∧
            (bridge.turn.session.serialPort.txd answers ⟨frame, small⟩).2 = some 0
  | .tick => bridge.free = true ∧ 8 ≤ bridge.port.length

/-- No handler is at work on the line, nothing is queued for it, and nothing has been thrown. -/
structure Idle (bridge : SerialBridge thread) : Prop where
  returned : bridge.transmission.returned = true
  flushed : bridge.transmission.tty.queue = []
  running : bridge.ended = false

end SerialBridge

/-- Where `txd` returns 0 it has flushed the queue. -/
theorem txd_flushes (moves : Nat → Nat) (buffer : TxBuffer) (answers : List WriteAnswer)
    (index : Nat) (tty : Tty)
    (success : (Serial.txdLoop buffer.val answers 0 buffer.val.length).2 = some 0) :
    (Tty.play moves (Serial.txdLoop buffer.val answers 0 buffer.val.length).1 index tty).queue =
      [] := by
  revert index tty success
  apply Serial.txd_loop_induction buffer.property
    (motive := fun _ _ _ outcome => ∀ index tty, outcome.2 = some 0 →
      (Tty.play moves outcome.1 index tty).queue = [])
    _ _ _ _ _ _ answers 0 _ (Nat.zero_add _)
  · intro answers index tty _
    rfl
  · intro buf len left inside index tty success
    cases success
  · intro room answers buf len left inside fits index tty _
    rfl
  · intro room answers buf len outcome inside fewer flushed index tty success
    exact flushed (index + 2) _ success
  · intro errno answers buf len outcome left inside again flushed index tty success
    exact flushed (index + 2) _ success
  · intro errno answers buf len left inside hard index tty success
    exact absurd (Option.some.inj success) errno.property

theorem send_frame_smooth {serial : Serial} {answers : List WriteAnswer} {moves : Nat → Nat}
    {transmission : Transmission} {frame : Bytes} (small : frame.length < 2 ^ 63)
    (connected : serial.connected = true) (returned : transmission.returned = true)
    (flushed : transmission.tty.queue = []) (drains : Drains moves answers frame.length 0 0)
    (success : (serial.txd answers ⟨frame, small⟩).2 = some 0) :
    (SerialBridge.sendFrame serial answers moves transmission frame).returned = true ∧
      (SerialBridge.sendFrame serial answers moves transmission frame).tty.queue = [] ∧
      (SerialBridge.sendFrame serial answers moves transmission frame).tty.sent =
        transmission.tty.sent ++ frame := by
  have carries := Transmission.outgoing_carries serial connected transmission
    ⟨⟨frame, small⟩, answers, moves⟩
  have inTime : transmission.InTime ⟨⟨frame, small⟩, answers, moves⟩ := by
    intro _
    rw [flushed]
    exact drains
  have complete := (txd_writes serial connected ⟨frame, small⟩ answers).complete success
  have kept := carries.kept inTime
  rw [Transmission.accepted, if_pos returned, complete] at kept
  have loop := txd_connected serial connected ⟨frame, small⟩ answers
  have empty := txd_flushes moves ⟨frame, small⟩ answers 0 transmission.tty (loop ▸ success)
  rw [SerialBridge.sendFrame, dif_pos small]
  refine ⟨?_, ?_, kept⟩
  · rw [Transmission.outgoing, if_pos returned]
    exact Option.isSome_iff_exists.mpr ⟨0, success⟩
  · rw [Transmission.outgoing, if_pos returned, loop]
    exact empty

namespace SerialBridge

variable {thread : InvokerThread} {host : ArduinoJson} {full : List Bytes → Bool}

theorem reopened_idle (before after : Turn thread) {transmission : Transmission}
    (flushed : transmission.tty.queue = []) :
    reopened before after transmission = transmission := by
  unfold reopened
  split_ifs
  · rfl
  · rw [← flushed]

/-- `responseToCrlfCrc` and `onRead` hand on one message at most. -/
theorem enqueue_few (queue messages : List Bytes) (few : messages.length ≤ 1)
    (room : messages = [] ∨ full queue = false) :
    messages.foldl (enqueue full) queue = queue ++ messages := by
  cases messages with
  | nil => exact (List.append_nil _).symm
  | cons message rest =>
      have alone : rest = [] := List.eq_nil_of_length_eq_zero (by
        rw [List.length_cons] at few
        omega)
      have open_queue : full queue = false := room.resolve_left (List.cons_ne_nil _ _)
      rw [alone, List.foldl_cons, List.foldl_nil, enqueue, open_queue]
      rfl

theorem frames_few (host : ArduinoJson) (response : Json) : (frames host response).length ≤ 1 := by
  have one := flow_length_le (responseToCrlfCrc host) response
  unfold frames
  rcases list : flow (responseToCrlfCrc host) response with _ | ⟨frame, _ | ⟨other, rest⟩⟩
  · exact Nat.zero_le _
  · exact Nat.le_refl 1
  · rw [list, List.length_cons, List.length_cons] at one
    omega

/-- What an event of the port adds to what came in before. -/
theorem read_step_handed (bridge : SerialBridge thread) (event : ReadEvent) :
    (bridge.handed event).length ≤ 1 ∧
      (bridge.handed event).flatten = bridge.turn.delivered event := by
  have handed := Turn.read_step_incoming bridge.turn event
  obtain ⟨last, grown, few⟩ : ∃ last : List Bytes,
      (bridge.turn.readStep event).session.incoming = bridge.turn.session.incoming ++ last ∧
        last.length ≤ 1 := by
    have same : ∀ incoming : List Bytes, incoming = incoming ++ [] := fun incoming =>
      (List.append_nil incoming).symm
    unfold Turn.readStep Turn.step
    split
    · change ∃ last, (bridge.turn.session.onRead _ _).session.incoming = _ ∧ _
      unfold SessionSerial.onRead
      split
      · exact ⟨[], same _, Nat.zero_le 1⟩
      · split
        · split
          · exact ⟨[], (SessionSerial.reconnect_incoming _ _).trans (same _), Nat.zero_le 1⟩
          · exact ⟨_, rfl, Nat.le_refl 1⟩
        · exact ⟨[], same _, Nat.zero_le 1⟩
    · exact ⟨[], same _, Nat.zero_le 1⟩
  have added : bridge.handed event = last := by
    rw [SerialBridge.handed, grown]
    exact List.drop_left
  rw [grown, List.flatten_append] at handed
  rw [added]
  exact ⟨few, List.append_cancel_left handed⟩

theorem step_busy (bridge : SerialBridge thread) (event : BridgeEvent)
    (busy : bridge.free = false) : bridge.step host full event = bridge := by
  rw [step.eq_def, busy]
  rfl

theorem tick_smooth (host : ArduinoJson) (full : List Bytes → Bool)
    (bridge : SerialBridge thread) (long : 8 ≤ bridge.port.length) :
    bridge.step host full .tick = bridge := by
  rw [step.eq_def]
  dsimp only
  rw [publish_alive_flow_eq, if_pos long]
  exact ite_self _

theorem step_port (bridge : SerialBridge thread) (event : BridgeEvent) :
    (bridge.step host full event).port = bridge.port := by
  rw [step.eq_def]
  split
  · cases event with
    | tick =>
        dsimp only
        split <;> rfl
    | _ => rfl
  · rfl

/-- A smooth event leaves the line idle and puts the frame that it takes on it. -/
theorem step_line (bridge : SerialBridge thread) (event : BridgeEvent) (idle : bridge.Idle)
    (smooth : bridge.Smooth host full event) :
    (bridge.step host full event).Idle ∧
      (bridge.step host full event).transmission.tty.sent =
        bridge.transmission.tty.sent ++ (bridge.taken event).flatten := by
  have quiet : bridge.Idle ∧ bridge.transmission.tty.sent = bridge.transmission.tty.sent ++ [] :=
    ⟨idle, (List.append_nil _).symm⟩
  cases free : bridge.free with
  | false =>
      have none : bridge.taken event = [] := by
        cases event <;> simp [taken, free]
      rw [step_busy bridge event free, none]
      exact quiet
  | true =>
      rw [step.eq_def, if_pos free]
      cases event with
      | read event =>
          have same := reopened_idle bridge.turn (bridge.turn.readStep event) idle.flushed
          simp only [same]
          exact ⟨⟨idle.returned, idle.flushed, idle.running⟩, quiet.2⟩
      | error lost =>
          have same := reopened_idle bridge.turn (bridge.turn.step (.error lost)) idle.flushed
          simp only [same]
          exact ⟨⟨idle.returned, idle.flushed, idle.running⟩, quiet.2⟩
      | dequeueIncoming => exact ⟨⟨idle.returned, idle.flushed, idle.running⟩, quiet.2⟩
      | response response => exact ⟨⟨idle.returned, idle.flushed, idle.running⟩, quiet.2⟩
      | dequeueOutgoing answers moves =>
          cases queue : bridge.outgoingFrame with
          | nil =>
              simp only [taken, free, queue, if_true, List.take_nil, List.foldl_nil,
                List.flatten_nil]
              exact ⟨⟨idle.returned, idle.flushed, idle.running⟩, quiet.2⟩
          | cons frame rest =>
              obtain ⟨connected, small, drains, success⟩ :=
                smooth frame (by rw [taken, if_pos free, queue]; exact List.mem_cons_self)
              have sent := send_frame_smooth small connected idle.returned idle.flushed drains
                success
              simp only [taken, free, queue, if_true, List.take_succ_cons, List.take_zero,
                List.foldl_cons, List.foldl_nil, List.flatten_singleton]
              exact ⟨⟨sent.1, sent.2.1, idle.running⟩, sent.2.2⟩
      | tick =>
          have kept := tick_smooth host full bridge smooth.2
          rw [step.eq_def, if_pos free] at kept
          rw [kept]
          exact quiet

/-- What a smooth event puts into the queue of frames and takes from it. -/
theorem step_outgoing (bridge : SerialBridge thread) (event : BridgeEvent)
    (smooth : bridge.Smooth host full event) :
    bridge.outgoingFrame ++ bridge.given host event =
      bridge.taken event ++ (bridge.step host full event).outgoingFrame := by
  cases free : bridge.free with
  | false =>
      rw [step_busy bridge event free]
      cases event with
      | response response => exact absurd (free.symm.trans smooth.1) Bool.false_ne_true
      | dequeueOutgoing answers moves => simp [given, taken, free]
      | read | error | dequeueIncoming | tick => exact List.append_nil _
  | true =>
      rw [step.eq_def, if_pos free]
      cases event with
      | response response => exact (enqueue_few _ _ (frames_few host response) smooth.2).symm
      | dequeueOutgoing answers moves =>
          simp only [given, taken, free, if_true, List.append_nil]
          exact (List.take_append_drop 1 _).symm
      | read | error | dequeueIncoming => exact List.append_nil _
      | tick =>
          refine (List.append_nil _).trans ?_
          dsimp only
          split <;> rfl

/-- What a smooth event reads, hands on to the deframer or leaves in the queue. -/
theorem step_device (bridge : SerialBridge thread) (event : BridgeEvent) (later : Bytes)
    (smooth : bridge.Smooth host full event) :
    (bridge.deframer.on
        (bridge.incomingFrame.flatten ++ (bridge.received event ++ later))).2.flatMap
          (flow (crlfCrcToRequest host)) =
      bridge.deviceRequests host event ++
        ((bridge.step host full event).deframer.on
          ((bridge.step host full event).incomingFrame.flatten ++ later)).2.flatMap
            (flow (crlfCrcToRequest host)) := by
  cases free : bridge.free with
  | false =>
      have nothing : bridge.received event = [] ∧ bridge.deviceRequests host event = [] := by
        cases event <;> simp [received, deviceRequests, free]
      rw [step_busy bridge event free, nothing.1, nothing.2]
      rfl
  | true =>
      rw [step.eq_def, if_pos free]
      cases event with
      | read event =>
          obtain ⟨few, handed⟩ := read_step_handed bridge event
          have whole := (Turn.delivered_eq_iff bridge.turn event).mpr smooth.1
          have queued := enqueue_few bridge.incomingFrame (bridge.handed event) few smooth.2
          simp only [received, deviceRequests, free, if_true, queued, List.nil_append,
            List.flatten_append, handed, whole, List.append_assoc]
      | dequeueIncoming =>
          have cut : bridge.incomingFrame.flatten =
              (bridge.incomingFrame.take 1).flatten ++ (bridge.incomingFrame.drop 1).flatten := by
            rw [← List.flatten_append, List.take_append_drop]
          simp only [received, deviceRequests, free, if_true, List.nil_append]
          rw [cut, List.append_assoc, Deframer.on_append, List.flatMap_append]
      | error | response | dequeueOutgoing => rfl
      | tick =>
          have kept := tick_smooth host full bridge smooth.2
          rw [step.eq_def, if_pos free] at kept
          rw [kept]
          rfl

/-- Over a smooth run each request of the device is made or pending, in order. -/
theorem run_device (begun : SerialBridge thread) (events : List BridgeEvent) (idle : begun.Idle)
    (smooth : Admits (step host full) (Smooth host full) begun events) :
    (begun.deframer.on (begun.incomingFrame.flatten ++
        collected (step host full) received begun events)).2.flatMap
          (flow (crlfCrcToRequest host)) =
      collected (step host full) (deviceRequests host) begun events ++
        (run (step host full) begun events).pending host := by
  induction events generalizing begun with
  | nil =>
      rw [collected, List.append_nil]
      rfl
  | cons event events induction =>
      have first := step_device begun event
        (collected (step host full) received (begun.step host full event) events) smooth.1
      have later := induction (begun.step host full event)
        (step_line begun event idle smooth.1).1 smooth.2
      rw [collected, collected, first, later, List.append_assoc]
      rfl

/-- A smooth tick makes one request. -/
theorem step_timer (bridge : SerialBridge thread) (event : BridgeEvent)
    (smooth : bridge.Smooth host full event) :
    bridge.timerRequests event =
      match event with
      | .tick => [aliveRequest (bridge.port.drop 8)]
      | _ => [] := by
  cases event with
  | tick =>
      rw [timerRequests, if_pos smooth.1, publish_alive_flow_eq, if_pos smooth.2]
  | _ => rfl

def ticks (events : List BridgeEvent) : Nat :=
  events.countP fun
    | .tick => true
    | _ => false

theorem run_timer (begun : SerialBridge thread) (events : List BridgeEvent)
    (smooth : Admits (step host full) (Smooth host full) begun events) :
    collected (step host full) timerRequests begun events =
      List.replicate (ticks events) (aliveRequest (begun.port.drop 8)) := by
  induction events generalizing begun with
  | nil => rfl
  | cons event events induction =>
      have later := induction (begun.step host full event) smooth.2
      rw [step_port] at later
      rw [collected, step_timer begun event smooth.1, later]
      cases event <;> simp [ticks, List.replicate_succ]

/-- The responses among the events of a run. -/
def responses (events : List BridgeEvent) : List Json :=
  events.filterMap fun
    | .response response => some response
    | _ => none

theorem collected_given (full : List Bytes → Bool) (begun : SerialBridge thread)
    (events : List BridgeEvent) :
    collected (step host full) (given host) begun events =
      (responses events).flatMap (frames host) := by
  induction events generalizing begun with
  | nil => rfl
  | cons event events induction =>
      rw [collected, induction]
      cases event with
      | response response =>
          have split : responses (.response response :: events) = response :: responses events :=
            rfl
          rw [split, List.flatMap_cons]
          rfl
      | _ => rfl

/-- Over a smooth run what Redis gave to send is on the line or in the queue, in order. -/
theorem run_line (begun : SerialBridge thread) (events : List BridgeEvent) (idle : begun.Idle)
    (smooth : Admits (step host full) (Smooth host full) begun events) :
    ∃ sent : List Bytes,
      (run (step host full) begun events).transmission.tty.sent =
        begun.transmission.tty.sent ++ sent.flatten ∧
      begun.outgoingFrame ++ (responses events).flatMap (frames host) =
        sent ++ (run (step host full) begun events).outgoingFrame := by
  rw [← collected_given full begun]
  induction events generalizing begun with
  | nil => exact ⟨[], (List.append_nil _).symm, List.append_nil _⟩
  | cons event events induction =>
      obtain ⟨idleAfter, first⟩ := step_line begun event idle smooth.1
      obtain ⟨sent, line, queue⟩ := induction (begun.step host full event) idleAfter smooth.2
      refine ⟨begun.taken event ++ sent, ?_, ?_⟩
      · rw [run_cons, line, first, List.flatten_append, List.append_assoc]
      · rw [collected, ← List.append_assoc, step_outgoing begun event smooth.1, List.append_assoc,
          queue, List.append_assoc]
        rfl

theorem start_idle (thread : InvokerThread) (port : CppString) (baudrate : Nat)
    (answers : ConnectCalls) :
    (start thread port baudrate answers).Idle := ⟨rfl, rfl, rfl⟩

theorem link_response_frames (links : List LinkResponse)
    (framed : ∀ delivery ∈ deliveries links, Framed host delivery) :
    (links.map LinkResponse.json).flatMap (frames host) =
      ((deliveries links).map (deliveredFrame host)).map (· ++ crlfDelimiter) := by
  have each : frames host = fun response =>
      (flow (responseToCrlfCrc host) response).flatMap (flow crlf.frame) := rfl
  have frame : flow crlf.frame = fun payload => [payload ++ crlfDelimiter] := rfl
  rw [each, ← List.flatMap_assoc, link_frames host links framed, frame, ← List.map_eq_flatMap]

/-- The deliveries whose frames have left the queue. -/
def sentDeliveries (bridge : SerialBridge thread) (links : List LinkResponse) :
    List (CppString × CppString) :=
  (deliveries links).take ((deliveries links).length - bridge.outgoingFrame.length)

/-- In any order of events in which nothing is lost, the requests of the bridge are one of
the timer for each tick and, in order, those that the calls of the device stand for, as far
as what was read has left its queue; and the device answers, in order, exactly the deliveries
whose frames have left theirs. -/
theorem serial_bridge_full_duplex (thread : InvokerThread) (host : ArduinoJson) (board : Board)
    (full : List Bytes → Bool) (port : CppString) (baudrate : Nat) (answers : ConnectCalls)
    (events : List BridgeEvent) (calls : List PubSubCall) (links : List LinkResponse)
    (chunks : List (List Received))
    (smooth : Admits (step host full) (Smooth host full) (start thread port baudrate answers)
      events)
    (readable : ∀ call ∈ calls, Readable host board 10000 call.document)
    (deliverable : ∀ delivery ∈ deliveries links, Deliverable host board delivery)
    (reading : collected (step host full) received (start thread port baudrate answers) events =
      calls.flatMap (PubSubCall.send board))
    (responding : responses events = links.map LinkResponse.json)
    (writing : chunks.flatten.map Received.byte =
      (run (step host full) (start thread port baudrate answers) events).transmission.tty.sent) :
    let begun := start thread port baudrate answers
    let final := run (step host full) begun events
    (collected (step host full) (requests host) begun events).Perm
        (collected (step host full) (deviceRequests host) begun events ++
          List.replicate (ticks events) (aliveRequest (port.drop 8))) ∧
      collected (step host full) (deviceRequests host) begun events ++ final.pending host =
        accepted host board calls ∧
      feed (SerialPubSub.rxd board) (.ok SerialPubSub.start) chunks =
        (.ok SerialPubSub.start, (List.zipWith (deliveryAnswer host board)
          (final.sentDeliveries links) (handledAt chunks.flatten)).flatten) ∧
      (SerialPubSub.handledLines chunks.flatten).map Prod.fst =
        (final.sentDeliveries links).map (deliveredFrame host) := by
  intro begun final
  have idle := start_idle thread port baudrate answers
  refine ⟨?_, ?_, ?_⟩
  · have timer := run_timer begun events smooth
    rw [show begun.port = port from rfl] at timer
    rw [← timer]
    exact collected_append_perm _ _ _ _ _
  · have device := run_device begun events idle smooth
    rw [reading] at device
    rw [← device]
    have whole := calls_received calls [calls.flatMap (PubSubCall.send board)] readable
      List.flatten_singleton
    rw [crlfReceive, Deframer.on_chunks, List.flatten_singleton] at whole
    exact whole
  · obtain ⟨sent, line, queue⟩ := run_line begun events idle smooth
    have framed := fun delivery member => (deliverable delivery member).toFramed
    rw [responding, link_response_frames links framed] at queue
    have left : sent = ((final.sentDeliveries links).map (deliveredFrame host)).map
        (· ++ crlfDelimiter) := by
      have whole : ((deliveries links).map (deliveredFrame host)).map (· ++ crlfDelimiter) =
          sent ++ final.outgoingFrame := queue
      have lengths := congrArg List.length whole
      rw [List.length_append, List.length_map, List.length_map] at lengths
      have count : (deliveries links).length - final.outgoingFrame.length = sent.length := by
        rw [lengths, Nat.add_sub_cancel]
      rw [sentDeliveries, List.map_take, List.map_take, count, whole, List.take_left]
    have wire : chunks.flatten.map Received.byte = (((final.sentDeliveries links).map
        (deliveredFrame host)).map (· ++ crlfDelimiter)).flatten := by
      rw [writing, line, left]
      rfl
    exact deliveries_run (final.sentDeliveries links) chunks
      (fun delivery member => deliverable delivery (List.mem_of_mem_take member)) wire

/-- A port with room for a frame that is moved to the line at once. -/
theorem room_smooth {serial : Serial} {moves : Nat → Nat} {frame : Bytes} (room : WriteCount)
    (connected : serial.connected = true) (fits : frame.length ≤ room.val)
    (fast : frame.length ≤ moves 1 + moves 2) :
    ∃ small : frame.length < 2 ^ 63, Drains moves [.room room] frame.length 0 0 ∧
      (serial.txd [.room room] ⟨frame, small⟩).2 = some 0 := by
  have bound := room.property
  have small : frame.length < 2 ^ 63 := by omega
  refine ⟨small, ?_, ?_⟩
  · by_cases nothing : frame.length = 0
    · simp [Drains, nothing]
    · simp only [Drains, nothing, if_false, fits, if_true, Nat.zero_add, Nat.zero_sub]
      exact fast
  · rw [txd_connected serial connected]
    rcases Nat.eq_zero_or_pos frame.length with nothing | left
    · simp only [nothing]
      rw [Serial.txd_loop_finished]
      rfl
    · rw [Serial.txd_loop_turn small _ _ 0 _ left (Nat.zero_add _), WriteAnswer.rc,
        Nat.min_eq_right fits]
      simp only [if_true]
      rfl

/-- A tick of the device is read, and the read after it finds nothing more. -/
def tickRead : ReadEvent where
  script :=
    { chunks := [⟨digitBoard.publish loopbackTopic 5, by decide +kernel, by decide +kernel⟩]
      ending := .failed ⟨EAGAIN, by decide⟩
      ends := by
        intro chunk same
        cases same }
  lost := sampleLost

def bridgeDelivery : Json := pmessageResponse (text "dst/arduino/*") loopbackTopic (text "5")

/-- A reply that is no delivery, a tick, a read and its turn, an error with its reconnection,
and a delivery and its turn. -/
def bridgeEvents : List BridgeEvent :=
  [.response (.int (jsonUint32 1)), .tick, .read tickRead, .dequeueIncoming, .error sampleLost,
    .response bridgeDelivery, .dequeueOutgoing [.room ⟨100, by decide⟩] fun _ => 100]

def bridgeFull (queue : List Bytes) : Bool := queue.length ≥ 10

def bridgeStart : SerialBridge InvokerThread.ofList :=
  start InvokerThread.ofList (text "/dev/ttyUSB0") 115200 (sampleAttempt true)

def bridgeEnd : SerialBridge InvokerThread.ofList :=
  run (step digitJson bridgeFull) bridgeStart bridgeEvents

theorem bridge_events_smooth :
    Admits (step digitJson bridgeFull) (Smooth digitJson bridgeFull) bridgeStart bridgeEvents := by
  have one : frames digitJson bridgeDelivery =
      [pubFrame digitJson loopbackTopic (.int (jsonUint32 5)) ++ crlfDelimiter] := rfl
  refine ⟨⟨rfl, .inl rfl⟩, ⟨rfl, by decide⟩, ⟨?_, .inr rfl⟩, trivial, trivial, ⟨rfl, .inr rfl⟩, ?_,
    trivial⟩
  · exact fun drops => absurd drops.2.2.2 (by decide)
  · intro frame member
    have waiting : frame ∈ frames digitJson bridgeDelivery := member
    rw [one] at waiting
    rw [List.mem_singleton.mp waiting]
    exact ⟨by decide +kernel,
      room_smooth ⟨100, by decide⟩ (by decide +kernel) (by decide +kernel) (by decide +kernel)⟩

theorem serial_bridge_full_duplex_tick :
    let received := bridgeEnd.transmission.tty.sent.map fun byte => (⟨byte, 7⟩ : Received)
    (collected (step digitJson bridgeFull) (requests digitJson) bridgeStart bridgeEvents).Perm
        (collected (step digitJson bridgeFull) (deviceRequests digitJson) bridgeStart
            bridgeEvents ++
          List.replicate 1 (aliveRequest (text "USB0"))) ∧
      collected (step digitJson bridgeFull) (deviceRequests digitJson) bridgeStart bridgeEvents ++
          bridgeEnd.pending digitJson =
        accepted digitJson digitBoard [.publish loopbackTopic 5] ∧
      feed (SerialPubSub.rxd digitBoard) (.ok SerialPubSub.start) [received] =
        (.ok SerialPubSub.start, (List.zipWith (deliveryAnswer digitJson digitBoard)
          (bridgeEnd.sentDeliveries loopResponses) (handledAt [received].flatten)).flatten) ∧
      (SerialPubSub.handledLines [received].flatten).map Prod.fst =
        (bridgeEnd.sentDeliveries loopResponses).map (deliveredFrame digitJson) := by
  intro received
  exact serial_bridge_full_duplex InvokerThread.ofList digitJson digitBoard bridgeFull
    (text "/dev/ttyUSB0") 115200 (sampleAttempt true) bridgeEvents [.publish loopbackTopic 5]
    loopResponses [received] bridge_events_smooth
    (fun call member => by rw [List.mem_singleton.mp member]; exact digit_readable.1)
    loop_deliverable rfl rfl
    (by
      rw [List.flatten_singleton, List.map_map]
      exact List.map_id _)

end SerialBridge

end Serial2Redis
