import Serial2Redis.Basic
import Serial2Redis.Library.Ledger

/-!
# The serial port

`Serial` of `serial.cpp`. What the operating system answers is given with each
call; `calls` keeps the descriptors opened and closed so far, newest first.
-/

namespace Serial2Redis

open Ledger

/-- A failing call leaves a code that is not 0 in `errno`. -/
abbrev Errno := { code : Int // code ≠ 0 }

def EAGAIN : Int := 11

def EWOULDBLOCK : Int := 11

def ENOTCONN : Int := 107

abbrev Descriptor := { fd : Int // 0 ≤ fd }

abbrev CallResult := Except Errno Unit

inductive SysCall where
  | opened (descriptor : Descriptor)
  | closed (fd : Int)
  deriving DecidableEq

/-- `close(-1)` is refused and concerns no descriptor. -/
def SysCall.entry : SysCall → Option (Entry Int)
  | .opened descriptor => some (.acquired descriptor.val)
  | .closed fd => if fd = -1 then none else some (.released fd)

def descriptorLedger (calls : List SysCall) : List (Entry Int) := calls.filterMap SysCall.entry

theorem ledger_opened (descriptor : Descriptor) (calls : List SysCall) :
    descriptorLedger (.opened descriptor :: calls) =
      .acquired descriptor.val :: descriptorLedger calls := rfl

theorem ledger_closed {fd : Int} (descriptor : fd ≠ -1) (calls : List SysCall) :
    descriptorLedger (.closed fd :: calls) = .released fd :: descriptorLedger calls := by
  simp [descriptorLedger, SysCall.entry, descriptor]

theorem ledger_refused (calls : List SysCall) :
    descriptorLedger (.closed (-1) :: calls) = descriptorLedger calls := rfl

theorem acquired_count (calls : List SysCall) (descriptor : Descriptor) :
    (descriptorLedger calls).count (.acquired descriptor.val) =
      calls.count (.opened descriptor) := by
  induction calls with
  | nil => rfl
  | cons call calls induction =>
      cases call with
      | opened other =>
          rw [ledger_opened, List.count_cons, List.count_cons, induction]
          simp [Subtype.ext_iff]
      | closed fd =>
          by_cases refused : fd = -1
          · rw [refused, ledger_refused, induction]
            simp
          · rw [ledger_closed refused, List.count_cons, List.count_cons, induction]
            simp

theorem released_count (calls : List SysCall) (descriptor : Descriptor) :
    (descriptorLedger calls).count (.released descriptor.val) =
      calls.count (.closed descriptor.val) := by
  induction calls with
  | nil => rfl
  | cons call calls induction =>
      cases call with
      | opened other =>
          rw [ledger_opened, List.count_cons, List.count_cons, induction]
          simp
      | closed fd =>
          by_cases refused : fd = -1
          · have other : -1 ≠ descriptor.val := by
              have bound := descriptor.property
              omega
            rw [refused, ledger_refused, induction, List.count_cons]
            simp [other]
          · rw [ledger_closed refused, List.count_cons, List.count_cons, induction]
            simp

/-- The answers to the calls of one `Serial::connect`; `closed` is that of `close`
on a failure exit. -/
structure ConnectCalls where
  opened : Except Errno Descriptor
  isatty : CallResult
  tcgetattr : CallResult
  cfsetspeed : CallResult
  tcsetattr : CallResult
  closed : CallResult

inductive ReadResult where
  | data (chunk : { bytes : Bytes // 0 < bytes.length ∧ bytes.length ≤ 1024 })
  | endOfFile
  | failed (errno : Errno)

structure Serial where
  port : CppString
  baudrate : Nat
  fd : Int
  connected : Bool
  calls : List SysCall

/-- The rates of the table; a symbol `B…` stands for its rate. -/
def BAUDRATE_TABLE : List Nat :=
  [50, 75, 110, 134, 150, 200, 300, 600, 1200, 1800, 2400, 4800, 9600, 19200, 38400, 57600,
    115200, 230400, 460800, 500000, 576000, 921600, 1000000, 1152000, 1500000, 2000000, 2500000,
    3000000, 3500000, 4000000]

def baudSymbol (br : Nat) : Nat := if br ∈ BAUDRATE_TABLE then br else 115200

namespace Serial

def create : Serial where
  port := []
  baudrate := 115200
  fd := -1
  connected := false
  calls := []

def setPort (serial : Serial) (port : CppString) : Serial := { serial with port := port }

def setBaudrate (serial : Serial) (br : Nat) : Serial :=
  { serial with baudrate := baudSymbol br }

/-- `errno` after a `close`, which overwrites it when it fails too. -/
def errnoAfter (errno : Errno) : CallResult → Errno
  | .error overwritten => overwritten
  | .ok _ => errno

/-- `close(_fd); _fd = -1; return errno;` -/
def closeAndFail (serial : Serial) (errno : Errno) (closing : CallResult) : Int × Serial :=
  ((errnoAfter errno closing).val,
    { serial with fd := -1, calls := .closed serial.fd :: serial.calls })

def connect (answers : ConnectCalls) (serial : Serial) : Int × Serial :=
  match answers.opened with
  | .error errno => (errno.val, { serial with fd := -1 })
  | .ok descriptor =>
      let serial :=
        { serial with fd := descriptor.val, calls := .opened descriptor :: serial.calls }
      match answers.isatty with
      | .error errno => serial.closeAndFail errno answers.closed
      | .ok _ =>
          match answers.tcgetattr with
          | .error errno => serial.closeAndFail errno answers.closed
          | .ok _ =>
              match answers.cfsetspeed with
              | .error errno => serial.closeAndFail errno answers.closed
              | .ok _ =>
                  match answers.tcsetattr with
                  | .error errno => serial.closeAndFail errno answers.closed
                  | .ok _ => (0, { serial with connected := true })

def disconnect (closing : CallResult) (serial : Serial) : Int × Serial :=
  ((match closing with
    | .error errno => errno.val
    | .ok _ => 0),
    { serial with fd := -1, connected := false, calls := .closed serial.fd :: serial.calls })

/-- The loop of `rxd`; it only ends at a `read` that gives no data. -/
def rxdLoop (out : Bytes) : List ReadResult → Option (Int × Bytes)
  | [] => none
  | .data chunk :: reads => rxdLoop (out ++ chunk.val) reads
  | .failed errno :: _ =>
      if errno.val = EAGAIN ∨ errno.val = EWOULDBLOCK then some (0, out)
      else some (errno.val, out)
  | .endOfFile :: _ => some (0, out)

def rxd (reads : List ReadResult) (serial : Serial) : Option (Int × Bytes) :=
  if serial.connected then rxdLoop [] reads else some (ENOTCONN, [])

/-- Between two events: the flag tells whether there is a descriptor, and that one
is all that is open. -/
structure Settled (serial : Serial) : Prop where
  connected_iff : serial.connected = true ↔ serial.fd ≠ -1
  ledger : held (descriptorLedger serial.calls) =
    some (if serial.connected = true then [serial.fd] else [])

theorem create_settled : create.Settled := by
  constructor
  · decide
  · rfl

theorem Settled.init {serial : Serial} (settled : serial.Settled) (port : CppString)
    (br : Nat) : ((serial.setPort port).setBaudrate br).Settled :=
  ⟨settled.connected_iff, settled.ledger⟩

theorem Settled.fd_of_disconnected {serial : Serial} (settled : serial.Settled)
    (idle : serial.connected = false) : serial.fd = -1 := by
  by_contra descriptor
  have connected := settled.connected_iff.mpr descriptor
  rw [idle] at connected
  cases connected

theorem held_opened {calls : List SysCall} {kept : List Int}
    (replayed : held (descriptorLedger calls) = some kept) (descriptor : Descriptor) :
    held (descriptorLedger (.opened descriptor :: calls)) = some (descriptor.val :: kept) := by
  rw [ledger_opened]
  exact held_acquired replayed descriptor.val

theorem held_closed {calls : List SysCall} {fd : Int} {kept : List Int} (descriptor : fd ≠ -1)
    (replayed : held (descriptorLedger calls) = some (fd :: kept)) :
    held (descriptorLedger (.closed fd :: calls)) = some kept := by
  rw [ledger_closed descriptor]
  exact held_released replayed

/-- The three ways `connect` ends: the port does not open, the open is undone, or
the port is connected. -/
theorem connect_cases (answers : ConnectCalls) (serial : Serial) :
    (∃ errno : Errno, answers.opened = .error errno ∧
      serial.connect answers = (errno.val, { serial with fd := -1 })) ∨
    (∃ (descriptor : Descriptor) (errno : Errno), answers.opened = .ok descriptor ∧
      serial.connect answers = (errno.val,
        { serial with
          fd := -1
          calls := .closed descriptor.val :: .opened descriptor :: serial.calls })) ∨
    (∃ descriptor : Descriptor, answers.opened = .ok descriptor ∧
      serial.connect answers = (0,
        { serial with
          fd := descriptor.val
          connected := true
          calls := .opened descriptor :: serial.calls })) := by
  unfold connect
  cases opened : answers.opened with
  | error errno => exact .inl ⟨errno, rfl, rfl⟩
  | ok descriptor =>
      right
      cases answers.isatty with
      | error errno => exact .inl ⟨descriptor, errnoAfter errno answers.closed, rfl, rfl⟩
      | ok _ =>
          cases answers.tcgetattr with
          | error errno => exact .inl ⟨descriptor, errnoAfter errno answers.closed, rfl, rfl⟩
          | ok _ =>
              cases answers.cfsetspeed with
              | error errno => exact .inl ⟨descriptor, errnoAfter errno answers.closed, rfl, rfl⟩
              | ok _ =>
                  cases answers.tcsetattr with
                  | error errno =>
                      exact .inl ⟨descriptor, errnoAfter errno answers.closed, rfl, rfl⟩
                  | ok _ => exact .inr ⟨descriptor, rfl, rfl⟩

theorem connect_settled {serial : Serial} (answers : ConnectCalls) (settled : serial.Settled)
    (idle : serial.connected = false) :
    (serial.connect answers).2.Settled ∧
      ((serial.connect answers).1 = 0 ∧ (serial.connect answers).2.connected = true ∨
        (serial.connect answers).1 ≠ 0 ∧ (serial.connect answers).2.connected = false) := by
  have nothing : held (descriptorLedger serial.calls) = some [] := by
    simpa [idle] using settled.ledger
  rcases connect_cases answers serial with ⟨errno, _, ended⟩ | ⟨descriptor, errno, _, ended⟩ |
    ⟨descriptor, _, ended⟩
  · rw [ended]
    exact ⟨⟨by simp [idle], by simpa [idle] using nothing⟩, .inr ⟨errno.property, idle⟩⟩
  · have valid : descriptor.val ≠ -1 := by
      have bound := descriptor.property
      omega
    have undone := held_closed valid (held_opened nothing descriptor)
    rw [ended]
    exact ⟨⟨by simp [idle], by simpa [idle] using undone⟩, .inr ⟨errno.property, idle⟩⟩
  · have valid : descriptor.val ≠ -1 := by
      have bound := descriptor.property
      omega
    rw [ended]
    exact ⟨⟨by simp [valid], by simpa using held_opened nothing descriptor⟩, .inl ⟨rfl, rfl⟩⟩

theorem disconnect_settled {serial : Serial} (closing : CallResult) (settled : serial.Settled) :
    (serial.disconnect closing).2.Settled ∧ (serial.disconnect closing).2.connected = false := by
  refine ⟨⟨by simp [disconnect], ?_⟩, rfl⟩
  have closed : held (descriptorLedger (.closed serial.fd :: serial.calls)) = some [] := by
    cases state : serial.connected with
    | false =>
        rw [settled.fd_of_disconnected state, ledger_refused]
        simpa [state] using settled.ledger
    | true =>
        apply held_closed (settled.connected_iff.mp state)
        simpa [state] using settled.ledger
  simpa [disconnect] using closed

end Serial

end Serial2Redis
