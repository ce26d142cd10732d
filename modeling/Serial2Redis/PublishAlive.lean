import Serial2Redis.Serial
import Serial2Redis.Library.ListSearch

/-!
# The alive message

`publishAlive` of `serial2redis.cpp` cuts the length of `/dev/tty` off the port to get
the name that `Serial::shortName` finds by looking at the port.
-/

namespace Serial2Redis

open ListSearch

/-- `std::out_of_range`, as `substr` throws it. -/
structure OutOfRange where
  pos : Nat
  size : Nat
  deriving DecidableEq

namespace CppString

def find (source wanted : CppString) : Option Nat := firstOccurrence wanted source

def rfind (source : CppString) (wanted : Byte) : Option Nat := lastIndex wanted source

def substr (source : CppString) (pos : Nat) : Except OutOfRange CppString :=
  if pos ≤ source.length then .ok (source.drop pos) else .error ⟨pos, source.length⟩

end CppString

def ttyPrefix : CppString := text "/dev/tty"

def slash : Byte := 0x2F

def Serial.shortName (serial : Serial) : Except OutOfRange CppString :=
  if CppString.find serial.port ttyPrefix = some 0 then CppString.substr serial.port 8
  else
    match CppString.rfind serial.port slash with
    | none => .ok serial.port
    | some pos => CppString.substr serial.port (pos + 1)

/-- The function of the flow: it fills the output it is given and returns true. -/
def publishAlive (port : CppString) (systemAlive : Json) : Except OutOfRange (Bool × Json) := do
  let shortPort ← CppString.substr port ttyPrefix.length
  let systemAliveTopic := text "src/" ++ (shortPort ++ text "/system/alive")
  let systemAlive := systemAlive.setElement 0 (.literal "publish")
  let systemAlive := systemAlive.setElement 1 (.string systemAliveTopic)
  let systemAlive := systemAlive.setElement 2 (.literal "true")
  return (true, systemAlive)

/-- One tick of the timer through the flow. -/
def publishAliveFlow (port : CppString) : Except OutOfRange (List Json) := do
  let (emit, systemAlive) ← publishAlive port default
  return if emit then [systemAlive] else []

def aliveRequest (name : CppString) : Json :=
  .array [.literal "publish", .string (text "src/" ++ name ++ text "/system/alive"),
    .literal "true"]

theorem tty_prefix_length : ttyPrefix.length = 8 := rfl

theorem substr_inside (source : CppString) (pos : Nat) (inside : pos ≤ source.length) :
    CppString.substr source pos = .ok (source.drop pos) := if_pos inside

/-- The name is what follows `/dev/tty`, all of a port without a slash, or what follows
the last slash; none of these is out of range. -/
theorem short_name_cases (serial : Serial) :
    (ttyPrefix <+: serial.port ∧ serial.shortName = .ok (serial.port.drop 8)) ∨
    (¬ttyPrefix <+: serial.port ∧ slash ∉ serial.port ∧ serial.shortName = .ok serial.port) ∨
    (∃ pos, ¬ttyPrefix <+: serial.port ∧ lastIndex slash serial.port = some pos ∧
      pos + 1 ≤ serial.port.length ∧
      serial.shortName = .ok (serial.port.drop (pos + 1))) := by
  have first := first_occurrence_zero_iff ttyPrefix serial.port
  unfold Serial.shortName CppString.find CppString.rfind
  by_cases tty : ttyPrefix <+: serial.port
  · left
    have long := List.IsPrefix.length_le tty
    rw [if_pos (first.mpr tty), substr_inside serial.port 8 long]
    exact ⟨tty, rfl⟩
  · right
    rw [if_neg fun found => tty (first.mp found)]
    cases found : lastIndex slash serial.port with
    | none => exact .inl ⟨tty, (last_index_none_iff slash serial.port).mp found, rfl⟩
    | some pos =>
        right
        have present := ((last_index_some_iff slash serial.port pos).mp found).1
        have inside : pos + 1 ≤ serial.port.length := (List.getElem?_eq_some_iff.mp present).1
        exact ⟨pos, tty, rfl, inside, substr_inside serial.port (pos + 1) inside⟩

theorem alive_request_injective (name other : CppString)
    (same : aliveRequest name = aliveRequest other) : name = other := by
  unfold aliveRequest at same
  injection same with items
  injection items with _ rest
  injection rest with topic
  injection topic with texts
  exact List.append_cancel_left (List.append_cancel_right texts)

theorem publish_alive_flow_eq (port : CppString) :
    publishAliveFlow port =
      if 8 ≤ port.length then .ok [aliveRequest (port.drop 8)] else .error ⟨8, port.length⟩ := by
  rw [publishAliveFlow, publishAlive, tty_prefix_length, CppString.substr]
  by_cases long : 8 ≤ port.length
  · rw [if_pos long, if_pos long, aliveRequest, List.append_assoc, ← Json.set_three]
    rfl
  · rw [if_neg long, if_neg long]
    rfl

theorem publishes_iff (serial : Serial) (short : CppString)
    (named : serial.shortName = .ok short) :
    (∃ name, serial.shortName = .ok name ∧
        publishAliveFlow serial.port = .ok [aliveRequest name]) ↔
      8 ≤ serial.port.length ∧ short = serial.port.drop 8 := by
  rw [named, publish_alive_flow_eq]
  constructor
  · intro published
    obtain ⟨name, same, emitted⟩ := published
    injection same with same
    subst same
    by_cases long : 8 ≤ serial.port.length
    · rw [if_pos long] at emitted
      injection emitted with items
      injection items with request
      exact ⟨long, (alive_request_injective _ _ request).symm⟩
    · rw [if_neg long] at emitted
      cases emitted
  · intro agreed
    rw [if_pos agreed.1, ← agreed.2]
    exact ⟨short, rfl, rfl⟩

/-- The flow publishes under the short name exactly when eight characters lead up to
it: those of `/dev/tty`, or any that end in the last slash. -/
theorem publishes_short_name_iff (serial : Serial) :
    (∃ name, serial.shortName = .ok name ∧
        publishAliveFlow serial.port = .ok [aliveRequest name]) ↔
      ttyPrefix <+: serial.port ∨
        serial.port[7]? = some slash ∧ slash ∉ serial.port.drop 8 := by
  rw [← last_index_some_iff]
  rcases short_name_cases serial with ⟨tty, named⟩ | ⟨other, plain, named⟩ |
    ⟨pos, other, found, inside, named⟩
  · rw [publishes_iff serial _ named]
    have long := List.IsPrefix.length_le tty
    exact iff_of_true ⟨long, rfl⟩ (.inl tty)
  · have absent := (last_index_none_iff slash serial.port).mpr plain
    rw [publishes_iff serial _ named, absent]
    apply iff_of_false
    · intro agreed
      have lengths := congrArg List.length agreed.2
      rw [List.length_drop] at lengths
      omega
    · simp [other]
  · rw [publishes_iff serial _ named, found, or_iff_right other, Option.some_inj]
    constructor
    · intro agreed
      have lengths := congrArg List.length agreed.2
      rw [List.length_drop, List.length_drop] at lengths
      omega
    · intro seven
      rw [seven] at inside ⊢
      exact ⟨inside, rfl⟩

/-- `/dev/rfcomm0` publishes as `omm0`, and a port of four characters throws. -/
theorem alive_topic_differs :
    let rfcomm := Serial.create.setPort (text "/dev/rfcomm0")
    let com := Serial.create.setPort (text "COM3")
    rfcomm.shortName = .ok (text "rfcomm0") ∧
      publishAliveFlow rfcomm.port = .ok [aliveRequest (text "omm0")] ∧
      com.shortName = .ok (text "COM3") ∧ publishAliveFlow com.port = .error ⟨8, 4⟩ :=
  ⟨rfl, rfl, rfl, rfl⟩

end Serial2Redis
