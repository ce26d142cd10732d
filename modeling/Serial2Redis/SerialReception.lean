import Serial2Redis.SessionSerial

/-!
# What the serial session receives

One `onRead` reads until the system has no more for it. What came before the end is
handed on when the port is drained or closed, and dropped when `read` fails: then
`onRead` looks at nothing but the error code. The code 0 with an empty buffer stands
for a closed port and for a port that has nothing to read.
-/

namespace Serial2Redis

open GuardedRun

/-- The answers to the `read` calls of one `rxd`: some data, then an end. -/
structure ReadScript where
  chunks : List { bytes : Bytes // 0 < bytes.length ∧ bytes.length ≤ 1024 }
  ending : ReadResult
  ends : ∀ chunk, ending ≠ .data chunk

namespace ReadScript

def results (script : ReadScript) : List ReadResult :=
  script.chunks.map .data ++ [script.ending]

def bytes (script : ReadScript) : Bytes := script.chunks.flatMap Subtype.val

/-- The last `read` fails with something else than that there is nothing to read. -/
def hardError (script : ReadScript) : Bool :=
  match script.ending with
  | .failed errno => decide ¬(errno.val = EAGAIN ∨ errno.val = EWOULDBLOCK)
  | _ => false

/-- The last `read` fails because there is nothing to read. -/
def wouldBlock (script : ReadScript) : Bool :=
  match script.ending with
  | .failed errno => decide (errno.val = EAGAIN ∨ errno.val = EWOULDBLOCK)
  | _ => false

/-- The three ways to end, one for each outcome of the last `read`. -/
theorem ending_cases (script : ReadScript) :
    (script.ending = .endOfFile ∧ script.hardError = false ∧ script.wouldBlock = false) ∨
    (script.ending ≠ .endOfFile ∧ script.hardError = true ∧ script.wouldBlock = false) ∨
    (script.ending ≠ .endOfFile ∧ script.hardError = false ∧ script.wouldBlock = true) := by
  unfold hardError wouldBlock
  cases ending : script.ending with
  | data chunk => exact absurd ending (script.ends chunk)
  | endOfFile => exact .inl ⟨rfl, rfl, rfl⟩
  | failed errno =>
      right
      by_cases again : errno.val = EAGAIN ∨ errno.val = EWOULDBLOCK <;> simp [again]

theorem bytes_eq_nil_iff (script : ReadScript) : script.bytes = [] ↔ script.chunks = [] := by
  rw [bytes, List.flatMap_eq_nil_iff]
  constructor
  · intro empty
    apply List.eq_nil_iff_forall_not_mem.mpr
    intro chunk member
    have positive := chunk.property.1
    rw [empty chunk member] at positive
    exact absurd positive (by decide)
  · intro none
    simp [none]

end ReadScript

theorem Serial.rxd_loop_data
    (chunks : List { bytes : Bytes // 0 < bytes.length ∧ bytes.length ≤ 1024 })
    (out : Bytes) (rest : List ReadResult) :
    rxdLoop out (chunks.map .data ++ rest) = rxdLoop (out ++ chunks.flatMap Subtype.val) rest := by
  induction chunks generalizing out with
  | nil => simp
  | cons chunk chunks induction =>
      rw [List.map_cons, List.cons_append, rxdLoop, induction, List.flatMap_cons,
        List.append_assoc]

/-- `rxd` fills the buffer with all that was read, whatever it returns. -/
theorem Serial.rxd_script (script : ReadScript) (serial : Serial)
    (connected : serial.connected = true) :
    ∃ code, serial.rxd script.results = some (code, script.bytes) ∧
      (code = 0 ↔ script.hardError = false) := by
  rw [rxd, if_pos connected, ReadScript.results, rxd_loop_data, List.nil_append,
    ReadScript.hardError]
  cases ending : script.ending with
  | data chunk => exact absurd ending (script.ends chunk)
  | endOfFile => exact ⟨0, rfl, by simp⟩
  | failed errno =>
      by_cases again : errno.val = EAGAIN ∨ errno.val = EWOULDBLOCK
      · exact ⟨0, by rw [rxdLoop, if_pos again]; rfl, by simp [again]⟩
      · exact ⟨errno.val, by rw [rxdLoop, if_neg again]; rfl, by simp [again, errno.property]⟩

namespace SessionSerial

variable {thread : InvokerThread}

theorem connect_incoming (answers : ConnectCalls) (session : SessionSerial thread) :
    (session.connect answers).2.incoming = session.incoming := by
  rw [connect]
  by_cases success : (session.serialPort.connect answers).1 = 0 <;> simp [success]

theorem connect_loop_incoming (attempts : List ConnectCalls) (session : SessionSerial thread) :
    (connectLoop attempts session).session.incoming = session.incoming := by
  induction attempts generalizing session with
  | nil => rfl
  | cons answers attempts induction =>
      have attempt := connect_incoming answers session
      unfold connectLoop
      cases result : session.connect answers with
      | mk connected after =>
          rw [result] at attempt
          cases connected with
          | true => exact attempt
          | false => exact (induction after).trans attempt

theorem reconnect_incoming (lost : ReconnectCalls) (session : SessionSerial thread) :
    (session.reconnect lost).session.incoming = session.incoming :=
  connect_loop_incoming lost.attempts (session.disconnect lost.closed)

theorem on_read_incoming (script : ReadScript) (lost : ReconnectCalls)
    (session : SessionSerial thread) (connected : session.serialPort.connected = true) :
    (session.onRead script.results lost).session.incoming.flatten =
      session.incoming.flatten ++ if script.hardError then [] else script.bytes := by
  obtain ⟨code, result, success⟩ := session.serialPort.rxd_script script connected
  unfold onRead
  rw [result]
  by_cases read : code = 0
  · have soft := success.mp read
    simp only [read, if_true, soft, Bool.false_eq_true, if_false]
    by_cases empty : script.bytes.length = 0
    · rw [if_pos empty, reconnect_incoming, List.eq_nil_of_length_eq_zero empty, List.append_nil]
    · rw [if_neg empty, List.flatten_append, List.flatten_singleton]
  · have hard : script.hardError = true := by
      rw [← Bool.not_eq_false, ← success]
      exact read
    simp only [read, if_false, hard, if_true, List.append_nil]

theorem on_read_disconnected (reads : List ReadResult) (lost : ReconnectCalls)
    (session : SessionSerial thread) (disconnected : session.serialPort.connected = false) :
    (session.onRead reads lost).session.incoming = session.incoming := by
  have result : session.serialPort.rxd reads = some (ENOTCONN, []) := by
    rw [Serial.rxd, disconnected]
    rfl
  unfold onRead
  rw [result]
  rfl

end SessionSerial

structure ReadEvent where
  script : ReadScript
  lost : ReconnectCalls

namespace Turn

variable {thread : InvokerThread}

def readStep (turn : Turn thread) (event : ReadEvent) : Turn thread :=
  turn.step (.read event.script.results event.lost)

/-- The bytes that `read` returned in an event: none where it is not called because
the handler is still busy or the port is not connected. -/
def received (turn : Turn thread) (event : ReadEvent) : Bytes :=
  if turn.returned ∧ turn.session.serialPort.connected then event.script.bytes else []

def delivered (turn : Turn thread) (event : ReadEvent) : Bytes :=
  if event.script.hardError then [] else turn.received event

/-- The event reads something and then fails. -/
def Drops (turn : Turn thread) (event : ReadEvent) : Prop :=
  turn.returned = true ∧ turn.session.serialPort.connected = true ∧
    event.script.chunks ≠ [] ∧ event.script.hardError = true

theorem read_step_incoming (turn : Turn thread) (event : ReadEvent) :
    (turn.readStep event).session.incoming.flatten =
      turn.session.incoming.flatten ++ turn.delivered event := by
  rw [readStep, step, delivered, received]
  cases returned : turn.returned with
  | false => simp
  | true =>
      cases connected : turn.session.serialPort.connected with
      | false =>
          have kept := SessionSerial.on_read_disconnected event.script.results event.lost
            turn.session connected
          simp [kept]
      | true =>
          simpa using SessionSerial.on_read_incoming event.script event.lost turn.session connected

theorem delivered_shorter (turn : Turn thread) (event : ReadEvent) :
    (turn.delivered event).length ≤ (turn.received event).length := by
  rw [delivered]
  cases event.script.hardError <;> simp

theorem delivered_eq_iff (turn : Turn thread) (event : ReadEvent) :
    turn.delivered event = turn.received event ↔ ¬turn.Drops event := by
  rw [delivered, received, Drops, Ne, ← event.script.bytes_eq_nil_iff]
  cases event.script.hardError with
  | false => simp
  | true =>
      by_cases taken : turn.returned = true ∧ turn.session.serialPort.connected = true
      · rw [if_pos rfl, if_pos taken]
        simp only [taken.1, taken.2, true_and, and_true, not_not]
        exact eq_comm
      · rw [if_pos rfl, if_neg taken]
        simp only [true_iff]
        exact fun drops => taken ⟨drops.1, drops.2.1⟩

end Turn

/-- What was handed to the framing is what was read, in order, exactly when no event
of the run reads something and then fails. -/
theorem serial_reception_lossless_iff (thread : InvokerThread) (turn : Turn thread)
    (events : List ReadEvent) :
    (run Turn.readStep turn events).session.incoming.flatten =
        turn.session.incoming.flatten ++ collected Turn.readStep Turn.received turn events ↔
      Admits Turn.readStep (fun turn event => ¬turn.Drops event) turn events := by
  rw [recorded_outputs Turn.readStep Turn.delivered
      (fun turn => turn.session.incoming.flatten) Turn.read_step_incoming,
    List.append_cancel_left_eq,
    collected_eq_iff Turn.readStep Turn.delivered Turn.received Turn.delivered_shorter]
  simp only [Turn.delivered_eq_iff]

theorem Serial.connect_calls (answers : ConnectCalls) (serial : Serial) :
    serial.calls <:+ (serial.connect answers).2.calls := by
  rcases serial.connect_cases answers with ⟨errno, _, result⟩ | ⟨descriptor, errno, _, result⟩ |
    ⟨descriptor, _, result⟩
  · exact ⟨[], congrArg (fun outcome => outcome.2.calls) result.symm⟩
  · rw [result]
    exact ⟨[.closed descriptor.val, .opened descriptor], rfl⟩
  · rw [result]
    exact ⟨[.opened descriptor], rfl⟩

namespace SessionSerial

variable {thread : InvokerThread}

theorem connect_calls (answers : ConnectCalls) (session : SessionSerial thread) :
    session.serialPort.calls <:+ (session.connect answers).2.serialPort.calls := by
  have attempt := session.serialPort.connect_calls answers
  rw [connect]
  by_cases success : (session.serialPort.connect answers).1 = 0 <;> simpa [success] using attempt

theorem connect_loop_calls (attempts : List ConnectCalls) (session : SessionSerial thread) :
    session.serialPort.calls <:+ (connectLoop attempts session).session.serialPort.calls := by
  induction attempts generalizing session with
  | nil => exact List.suffix_rfl
  | cons answers attempts induction =>
      have attempt := connect_calls answers session
      unfold connectLoop
      cases result : session.connect answers with
      | mk connected after =>
          rw [result] at attempt
          cases connected with
          | true => exact attempt
          | false => exact List.IsSuffix.trans attempt (induction after)

/-- `reconnect` closes the descriptor before anything else. -/
theorem reconnect_calls (lost : ReconnectCalls) (session : SessionSerial thread) :
    .closed session.serialPort.fd :: session.serialPort.calls <:+
      (session.reconnect lost).session.serialPort.calls :=
  connect_loop_calls lost.attempts (session.disconnect lost.closed)

theorem reconnect_changes (lost : ReconnectCalls) (session : SessionSerial thread) :
    (session.reconnect lost).session.serialPort ≠ session.serialPort := by
  intro same
  have longer := List.IsSuffix.length_le (reconnect_calls lost session)
  rw [same, List.length_cons] at longer
  exact absurd longer (Nat.not_succ_le_self _)

/-- A dead link makes `onRead` reconnect, and a wake-up without data leaves the port
as it is. -/
structure DetectsLoss (session : SessionSerial thread) (script : ReadScript)
    (lost : ReconnectCalls) : Prop where
  dead : script.chunks = [] → script.ending = .endOfFile ∨ script.hardError = true →
    session.onRead script.results lost =
      ({ session with rxdBuffer := [] } : SessionSerial thread).reconnect lost
  idle : script.chunks = [] → script.wouldBlock = true →
    (session.onRead script.results lost).session.serialPort = session.serialPort

/-- Without data `onRead` reconnects unless the read failed with a hard error. -/
theorem on_read_nothing (session : SessionSerial thread) (script : ReadScript)
    (lost : ReconnectCalls) (connected : session.serialPort.connected = true)
    (nothing : script.chunks = []) :
    session.onRead script.results lost =
      if script.hardError then ⟨{ session with rxdBuffer := [] }, true⟩
      else ({ session with rxdBuffer := [] } : SessionSerial thread).reconnect lost := by
  obtain ⟨code, result, success⟩ := session.serialPort.rxd_script script connected
  unfold onRead
  rw [result, script.bytes_eq_nil_iff.mpr nothing]
  cases hard : script.hardError with
  | false =>
      have read := success.mpr hard
      simp only [read, if_true, List.length_nil, Bool.false_eq_true, if_false]
  | true =>
      have failed : code ≠ 0 := by
        rw [ne_eq, success, hard]
        decide
      simp only [failed, if_false, if_true]

/-- Loss detection is right exactly when the first `read` does not fail. -/
theorem detects_loss_iff (session : SessionSerial thread) (script : ReadScript)
    (lost : ReconnectCalls) (connected : session.serialPort.connected = true) :
    session.DetectsLoss script lost ↔ script.chunks ≠ [] ∨ script.ending = .endOfFile := by
  have changes := reconnect_changes lost { session with rxdBuffer := [] }
  by_cases nothing : script.chunks = []
  · have outcome := session.on_read_nothing script lost connected nothing
    rcases script.ending_cases with ⟨closed, soft, dry⟩ | ⟨other, hard, dry⟩ | ⟨other, soft, dry⟩
    · rw [soft] at outcome
      apply iff_of_true _ (.inr closed)
      apply DetectsLoss.mk
      · exact fun _ _ => outcome
      · intro _ blocked
        rw [dry] at blocked
        cases blocked
    · rw [hard] at outcome
      apply iff_of_false
      · intro detects
        have reconnected := detects.dead nothing (.inr hard)
        rw [outcome] at reconnected
        exact changes (congrArg (fun turn => turn.session.serialPort) reconnected).symm
      · simp [nothing, other]
    · rw [soft] at outcome
      apply iff_of_false
      · intro detects
        have kept := detects.idle nothing dry
        rw [outcome] at kept
        exact changes kept
      · simp [nothing, other]
  · apply iff_of_true _ (.inl nothing)
    apply DetectsLoss.mk
    · exact fun empty => absurd empty nothing
    · exact fun empty => absurd empty nothing

end SessionSerial

/-- A `read` that gives nothing at once. -/
def nothingRead (ending : ReadResult) (ends : ∀ chunk, ending ≠ .data chunk) : ReadScript where
  chunks := []
  ending := ending
  ends := ends

def closedRead : ReadScript := nothingRead .endOfFile (by
  intro chunk same
  cases same)

def failedRead (errno : Errno) : ReadScript := nothingRead (.failed errno) (by
  intro chunk same
  cases same)

def sampleLost : ReconnectCalls where
  closed := .ok ()
  attempts := [sampleAttempt true]

def sampleSession : SessionSerial InvokerThread.ofList :=
  (Turn.start InvokerThread.ofList (text "/dev/ttyUSB0") 115200 (sampleAttempt true)).session

theorem detects_loss_at_end_of_file : sampleSession.DetectsLoss closedRead sampleLost :=
  (SessionSerial.detects_loss_iff sampleSession closedRead sampleLost rfl).mpr (.inr rfl)

/-- A wake-up without data (`EAGAIN`) reconnects, an input/output error does not. -/
theorem detects_loss_of_failed_reads :
    ¬sampleSession.DetectsLoss (failedRead ⟨11, by decide⟩) sampleLost ∧
      ¬sampleSession.DetectsLoss (failedRead ⟨5, by decide⟩) sampleLost := by
  constructor
  · intro detects
    have kept := congrArg Serial.calls (detects.idle rfl rfl)
    exact absurd kept (by decide)
  · intro detects
    have reconnected := congrArg (fun turn => turn.session.serialPort.calls)
      (detects.dead rfl (.inr rfl))
    exact absurd reconnected (by decide)

/-- One byte arrives, and the next `read` reports an input/output error. -/
def brokenRead : ReadEvent where
  script :=
    { chunks := [⟨[0x61], by decide, by decide⟩]
      ending := .failed ⟨5, by decide⟩
      ends := by
        intro chunk same
        cases same }
  lost := ⟨.ok (), []⟩

theorem serial_reception_loses_byte :
    let turn := Turn.start InvokerThread.ofList (text "/dev/ttyUSB0") 115200 (sampleAttempt true)
    turn.session.serialPort.connected = true ∧
      collected Turn.readStep Turn.received turn [brokenRead] = [0x61] ∧
      (run Turn.readStep turn [brokenRead]).session.incoming.flatten = [] :=
  ⟨by decide, by decide, by decide⟩

end Serial2Redis
