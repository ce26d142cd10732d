import Serial2Redis.Serial
import Serial2Redis.Library.GuardedRun

/-!
# The serial session

`SessionSerial.cpp`: the serial port with the invokers that the thread polls it
through, and the loop that brings a lost port back. The registry of the thread
belongs to limero and is a parameter.
-/

namespace Serial2Redis

open GuardedRun Ledger

inductive InvokerKind where
  | read
  | error
  deriving DecidableEq

/-- What a limero thread keeps per descriptor. `count` is the number of invokers of
one kind on one descriptor. -/
structure InvokerThread where
  Registry : Type
  empty : Registry
  addInvoker : InvokerKind → Registry → Int → Registry
  delAllInvoker : Registry → Int → Registry
  count : Registry → Int → InvokerKind → Nat
  count_empty : ∀ fd kind, count empty fd kind = 0
  count_add : ∀ registry fd kind, count registry fd kind = 0 →
    count (addInvoker kind registry fd) fd kind = 1
  count_add_other : ∀ registry fd kind other otherKind, ¬(other = fd ∧ otherKind = kind) →
    count (addInvoker kind registry fd) other otherKind = count registry other otherKind
  count_delete : ∀ registry fd kind, count (delAllInvoker registry fd) fd kind = 0
  count_delete_other : ∀ registry fd other kind, other ≠ fd →
    count (delAllInvoker registry fd) other kind = count registry other kind

namespace InvokerThread

variable (thread : InvokerThread)

def addReadInvoker : thread.Registry → Int → thread.Registry := thread.addInvoker .read

def addErrorInvoker : thread.Registry → Int → thread.Registry := thread.addInvoker .error

/-- One invoker of each kind on each of the descriptors, and no other. -/
def RegisteredOn (registry : thread.Registry) (descriptors : List Int) : Prop :=
  ∀ fd kind, thread.count registry fd kind = if fd ∈ descriptors then 1 else 0

variable {thread}

theorem registered_on_both {registry : thread.Registry} (fd : Int)
    (none : thread.RegisteredOn registry []) :
    thread.RegisteredOn (thread.addErrorInvoker (thread.addReadInvoker registry fd) fd) [fd] := by
  have empty : ∀ other kind, thread.count registry other kind = 0 := by
    simpa [RegisteredOn] using none
  intro other kind
  rw [addErrorInvoker, addReadInvoker]
  by_cases same : other = fd
  · subst same
    rw [if_pos (List.mem_singleton.mpr rfl)]
    cases kind with
    | read =>
        rw [thread.count_add_other _ _ _ _ _ (by simp)]
        exact thread.count_add _ _ _ (empty other .read)
    | error =>
        apply thread.count_add
        rw [thread.count_add_other _ _ _ _ _ (by simp)]
        exact empty other .error
  · rw [thread.count_add_other _ _ _ _ _ (by simp [same]),
      thread.count_add_other _ _ _ _ _ (by simp [same]), empty]
    simp [same]

theorem registered_on_none {registry : thread.Registry} {descriptors : List Int} (fd : Int)
    (registered : thread.RegisteredOn registry descriptors)
    (only : ∀ other ∈ descriptors, other = fd) :
    thread.RegisteredOn (thread.delAllInvoker registry fd) [] := by
  intro other kind
  by_cases same : other = fd
  · subst same
    rw [thread.count_delete]
    rfl
  · rw [thread.count_delete_other _ _ _ _ same, registered]
    have outside : other ∉ descriptors := fun member => same (only other member)
    simp [outside]

def ofList : InvokerThread where
  Registry := List (Int × InvokerKind)
  empty := []
  addInvoker kind registry fd := (fd, kind) :: registry
  delAllInvoker registry fd := registry.filter fun invoker => invoker.1 ≠ fd
  count registry fd kind := registry.count (fd, kind)
  count_empty _ _ := rfl
  count_add registry fd kind none := by rw [List.count_cons_self, none]
  count_add_other registry fd kind other otherKind different := by
    apply List.count_cons_of_ne
    intro same
    exact different (by simpa [eq_comm] using same)
  count_delete registry fd kind := by
    rw [List.count_eq_zero]
    simp
  count_delete_other registry fd other kind different := by
    apply List.count_filter
    simpa using different

instance : Inhabited InvokerThread := ⟨ofList⟩

end InvokerThread

structure ConnectReturn where
  code : Int
  fd : Int
  connected : Bool

/-- `incoming` is what was handed to `_incomingFrame`; `returns` keeps the returns
of `Serial::connect`. -/
structure SessionSerial (thread : InvokerThread) where
  port : CppString
  baudrate : Nat
  serialPort : Serial
  rxdBuffer : Bytes
  incoming : List Bytes
  invokers : thread.Registry
  returns : List ConnectReturn

/-- The answers of the system to one `reconnect`: to the `close` and then to each
attempt in turn. -/
structure ReconnectCalls where
  closed : CallResult
  attempts : List ConnectCalls

inductive SerialEvent where
  | read (reads : List ReadResult) (lost : ReconnectCalls)
  | error (lost : ReconnectCalls)

/-- `returned` is false when the answers ran out while the handler was in its loop. -/
structure Turn (thread : InvokerThread) where
  session : SessionSerial thread
  returned : Bool

namespace SessionSerial

variable {thread : InvokerThread}

def create (port : CppString) (baudrate : Nat) : SessionSerial thread where
  port := port
  baudrate := baudrate
  serialPort := Serial.create
  rxdBuffer := []
  incoming := []
  invokers := thread.empty
  returns := []

def init (session : SessionSerial thread) : SessionSerial thread :=
  { session with
    serialPort := (session.serialPort.setPort session.port).setBaudrate session.baudrate }

def connect (answers : ConnectCalls) (session : SessionSerial thread) :
    Bool × SessionSerial thread :=
  let (code, serialPort) := session.serialPort.connect answers
  let session :=
    { session with
      serialPort := serialPort
      returns := ⟨code, serialPort.fd, serialPort.connected⟩ :: session.returns }
  if code ≠ 0 then (false, session)
  else
    (true, { session with
      invokers := thread.addErrorInvoker (thread.addReadInvoker session.invokers serialPort.fd)
        serialPort.fd })

def disconnect (closing : CallResult) (session : SessionSerial thread) : SessionSerial thread :=
  { session with
    invokers := thread.delAllInvoker session.invokers session.serialPort.fd
    serialPort := (session.serialPort.disconnect closing).2 }

/-- `while (true) { sleep(1); if (connect()) break; }` -/
def connectLoop : List ConnectCalls → SessionSerial thread → Turn thread
  | [], session => ⟨session, false⟩
  | answers :: attempts, session =>
      match session.connect answers with
      | (true, session) => ⟨session, true⟩
      | (false, session) => connectLoop attempts session

def reconnect (lost : ReconnectCalls) (session : SessionSerial thread) : Turn thread :=
  connectLoop lost.attempts (session.disconnect lost.closed)

def onRead (reads : List ReadResult) (lost : ReconnectCalls) (session : SessionSerial thread) :
    Turn thread :=
  match session.serialPort.rxd reads with
  | none => ⟨session, false⟩
  | some (rc, rxdBuffer) =>
      let session := { session with rxdBuffer := rxdBuffer }
      if rc = 0 then
        if rxdBuffer.length = 0 then session.reconnect lost
        else ⟨{ session with incoming := session.incoming ++ [rxdBuffer] }, true⟩
      else ⟨session, true⟩

def onError (lost : ReconnectCalls) (session : SessionSerial thread) : Turn thread :=
  session.reconnect lost

end SessionSerial

namespace Turn

variable {thread : InvokerThread}

/-- The thread takes the next event only when the handler has returned. -/
def step (turn : Turn thread) (event : SerialEvent) : Turn thread :=
  if turn.returned then
    match event with
    | .read reads lost => turn.session.onRead reads lost
    | .error lost => turn.session.onError lost
  else turn

/-- `main`: construction, `init()` and one `connect()` whose result is not looked at. -/
def start (thread : InvokerThread) (port : CppString) (baudrate : Nat) (answers : ConnectCalls) :
    Turn thread :=
  ⟨((SessionSerial.create port baudrate).init.connect answers).2, true⟩

end Turn

namespace SessionSerial

variable {thread : InvokerThread}

def descriptors (session : SessionSerial thread) : List Int :=
  if session.serialPort.connected = true then [session.serialPort.fd] else []

/-- The state of a session between two events. -/
structure Consistent (session : SessionSerial thread) : Prop where
  connected_iff : session.serialPort.connected = true ↔ session.serialPort.fd ≠ -1
  registered : thread.RegisteredOn session.invokers session.descriptors
  ledger : held (descriptorLedger session.serialPort.calls) = some session.descriptors
  refused : ∀ ret ∈ session.returns, ret.code ≠ 0 → ret.fd = -1 ∧ ret.connected = false

theorem Consistent.settled {session : SessionSerial thread} (consistent : session.Consistent) :
    session.serialPort.Settled :=
  ⟨consistent.connected_iff, consistent.ledger⟩

theorem create_consistent (port : CppString) (baudrate : Nat) :
    (create port baudrate : SessionSerial thread).Consistent := by
  have settled := Serial.create_settled
  refine ⟨settled.connected_iff, fun fd kind => thread.count_empty fd kind, settled.ledger, ?_⟩
  simp [create]

theorem init_consistent {session : SessionSerial thread} (consistent : session.Consistent) :
    session.init.Consistent :=
  ⟨consistent.connected_iff, consistent.registered, consistent.ledger, consistent.refused⟩

theorem connect_consistent {session : SessionSerial thread} (answers : ConnectCalls)
    (consistent : session.Consistent) (idle : session.serialPort.connected = false) :
    (session.connect answers).2.Consistent ∧
      (session.connect answers).2.serialPort.connected = (session.connect answers).1 := by
  have outcome := Serial.connect_settled answers consistent.settled idle
  have unregistered : thread.RegisteredOn session.invokers [] := by
    simpa [descriptors, idle] using consistent.registered
  unfold connect
  generalize session.serialPort.connect answers = attempt at outcome ⊢
  obtain ⟨code, serialPort⟩ := attempt
  obtain ⟨settled, ended⟩ := outcome
  rcases ended with ⟨success, connected⟩ | ⟨failure, disconnected⟩
  · change code = 0 at success
    change serialPort.connected = true at connected
    subst success
    refine ⟨⟨settled.connected_iff, ?_, settled.ledger, ?_⟩, connected⟩
    · simpa [descriptors, connected] using thread.registered_on_both serialPort.fd unregistered
    · intro ret member
      rcases List.mem_cons.mp member with rfl | earlier
      · exact fun failure => absurd rfl failure
      · exact consistent.refused ret earlier
  · change code ≠ 0 at failure
    change serialPort.connected = false at disconnected
    simp only [ne_eq, failure, not_false_eq_true, if_true]
    refine ⟨⟨settled.connected_iff, ?_, settled.ledger, ?_⟩, disconnected⟩
    · simpa [descriptors, disconnected] using unregistered
    · intro ret member
      rcases List.mem_cons.mp member with rfl | earlier
      · exact fun _ => ⟨settled.fd_of_disconnected disconnected, disconnected⟩
      · exact consistent.refused ret earlier

theorem disconnect_consistent {session : SessionSerial thread} (closing : CallResult)
    (consistent : session.Consistent) :
    (session.disconnect closing).Consistent ∧
      (session.disconnect closing).serialPort.connected = false := by
  obtain ⟨settled, disconnected⟩ := Serial.disconnect_settled closing consistent.settled
  refine ⟨⟨settled.connected_iff, ?_, settled.ledger, consistent.refused⟩, disconnected⟩
  have only : ∀ other ∈ session.descriptors, other = session.serialPort.fd := by
    intro other member
    unfold descriptors at member
    cases state : session.serialPort.connected <;> simp_all
  exact thread.registered_on_none session.serialPort.fd consistent.registered only

/-- The loop keeps the session consistent through every failed attempt, and leaves
it connected when it ends. -/
theorem connect_loop_consistent (attempts : List ConnectCalls) (session : SessionSerial thread)
    (consistent : session.Consistent) (idle : session.serialPort.connected = false) :
    (connectLoop attempts session).session.Consistent ∧
      (connectLoop attempts session).session.serialPort.connected =
        (connectLoop attempts session).returned := by
  induction attempts generalizing session with
  | nil => exact ⟨consistent, idle⟩
  | cons answers attempts induction =>
      have attempt := connect_consistent answers consistent idle
      unfold connectLoop
      cases result : session.connect answers with
      | mk connected after =>
          rw [result] at attempt
          cases connected with
          | true => exact attempt
          | false => exact induction after attempt.1 attempt.2

theorem reconnect_consistent {session : SessionSerial thread} (lost : ReconnectCalls)
    (consistent : session.Consistent) :
    (session.reconnect lost).session.Consistent ∧
      (session.reconnect lost).session.serialPort.connected =
        (session.reconnect lost).returned := by
  obtain ⟨disconnected, idle⟩ := disconnect_consistent lost.closed consistent
  exact connect_loop_consistent lost.attempts _ disconnected idle

theorem on_read_consistent {session : SessionSerial thread} (reads : List ReadResult)
    (lost : ReconnectCalls) (consistent : session.Consistent) :
    (session.onRead reads lost).session.Consistent := by
  unfold onRead
  cases session.serialPort.rxd reads with
  | none => exact consistent
  | some result =>
      have received : ({ session with rxdBuffer := result.2 } : SessionSerial thread).Consistent :=
        ⟨consistent.connected_iff, consistent.registered, consistent.ledger, consistent.refused⟩
      by_cases success : result.1 = 0
      · by_cases empty : result.2.length = 0
        · simp only [success, empty, if_true]
          exact (reconnect_consistent lost received).1
        · simp only [success, empty, if_true, if_false]
          exact ⟨consistent.connected_iff, consistent.registered, consistent.ledger,
            consistent.refused⟩
      · simp only [success, if_false]
        exact received

end SessionSerial

theorem Turn.step_consistent {thread : InvokerThread} (turn : Turn thread) (event : SerialEvent)
    (consistent : turn.session.Consistent) : (turn.step event).session.Consistent := by
  by_cases returned : turn.returned = true
  · cases event with
    | read reads lost =>
        rw [step, if_pos returned]
        exact SessionSerial.on_read_consistent reads lost consistent
    | error lost =>
        rw [step, if_pos returned]
        exact (SessionSerial.reconnect_consistent lost consistent).1
  · rw [step.eq_def, if_neg returned]
    exact consistent

theorem Turn.start_consistent (thread : InvokerThread) (port : CppString) (baudrate : Nat)
    (answers : ConnectCalls) : (start thread port baudrate answers).session.Consistent :=
  (SessionSerial.connect_consistent answers
    (SessionSerial.init_consistent (SessionSerial.create_consistent port baudrate)) rfl).1

/-- After any run the session is consistent, and each descriptor was closed as often
as it was opened, but for the one the session holds. -/
theorem serial_session_state (thread : InvokerThread) (port : CppString) (baudrate : Nat)
    (answers : ConnectCalls) (events : List SerialEvent) :
    let session := (run Turn.step (Turn.start thread port baudrate answers) events).session
    session.Consistent ∧
      ∀ descriptor : Descriptor,
        session.serialPort.calls.count (.opened descriptor) =
          session.serialPort.calls.count (.closed descriptor.val) +
            session.descriptors.count descriptor.val := by
  have consistent := run_invariant Turn.step (fun turn => turn.session.Consistent)
    Turn.step_consistent _ events (Turn.start_consistent thread port baudrate answers)
  refine ⟨consistent, ?_⟩
  intro descriptor
  rw [← acquired_count, ← released_count]
  exact acquired_balance _ _ consistent.ledger descriptor.val

def sampleAttempt (opens : Bool) : ConnectCalls where
  opened := if opens then .ok ⟨4, by decide⟩ else .error ⟨2, by decide⟩
  isatty := .ok ()
  tcgetattr := .ok ()
  cfsetspeed := .ok ()
  tcsetattr := .ok ()
  closed := .ok ()

theorem serial_session_state_after_retry :
    let session := (run Turn.step
      (Turn.start InvokerThread.ofList (text "/dev/ttyUSB0") 115200 (sampleAttempt true))
      [.error ⟨.ok (), [sampleAttempt false, sampleAttempt true]⟩]).session
    session.serialPort.fd = 4 ∧ session.Consistent :=
  ⟨rfl, (serial_session_state InvokerThread.ofList (text "/dev/ttyUSB0") 115200
    (sampleAttempt true) [.error ⟨.ok (), [sampleAttempt false, sampleAttempt true]⟩]).1⟩

end Serial2Redis
