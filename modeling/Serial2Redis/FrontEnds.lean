import Serial2Redis.CborFlows
import Serial2Redis.WsProxy

/-!
# What the front ends do with text that does not parse

Five front ends hand documents to Redis. Two look at the parser's error code, the
others look only at the document it left behind, or at nothing.
-/

namespace Serial2Redis

open Crc16

def bytesToRequest (lib : ArduinoJson) (_request : Json) (frame : Bytes) : Bool × Json :=
  ((lib.deserializeJson frame).1 == .ok, (lib.deserializeJson frame).2)

def stringToRequest (lib : ArduinoJson) (_request : Json) (frame : CppString) : Bool × Json :=
  ((lib.deserializeJson frame).1 == .ok, (lib.deserializeJson frame).2)

/-- The WebSocket handler is taken with its state and the connection of the data. -/
inductive FrontEnd where
  | crlfCrcToRequest
  | cborToRequest
  | bytesToRequest
  | stringToRequest
  | onData (server : WsServer) (con : WebSocket)

namespace FrontEnd

def requests (lib : ArduinoJson) (cbor : Cbor) : FrontEnd → CppString → List Json
  | crlfCrcToRequest, input => flow (Serial2Redis.crlfCrcToRequest lib) input
  | cborToRequest, input => flow (Serial2Redis.cborToRequest lib cbor) input
  | bytesToRequest, input => flow (Serial2Redis.bytesToRequest lib) input
  | stringToRequest, input => flow (Serial2Redis.stringToRequest lib) input
  | onData server con, input => (server.onData lib con input).map Prod.snd

/-- Decoding the input reports an error, and this is what it leaves behind. A line
that the checksum stops is not decoded at all. -/
def Leaves (lib : ArduinoJson) (cbor : Cbor) : FrontEnd → CppString → Json → Prop
  | crlfCrcToRequest, input, left => ∃ payload, crcGate input = some payload ∧
      ∃ error, error ≠ .ok ∧ lib.deserializeJson payload = (error, left)
  | cborToRequest, input, left =>
      (cbor.valueToJson input = none ∧ left = .object [(text "error", .literal "Failed")]) ∨
        ∃ js, cbor.valueToJson input = some js ∧
          ∃ error, error ≠ .ok ∧ lib.deserializeJson (cString js) = (error, left)
  | _, input, left => ∃ error, error ≠ .ok ∧ lib.deserializeJson input = (error, left)

def LooksLikeCommand (left : Json) : Prop :=
  left.isArray = true ∧ ∃ name ∈ ["pub", "sub", "log"], isCommand left name = true

/-- The front end takes a document left behind by a failed parse for a request. -/
def Takes : FrontEnd → Json → Prop
  | crlfCrcToRequest, left => LooksLikeCommand left
  | cborToRequest, left =>
      LooksLikeCommand left ∧ ¬(isCommand left "pub" = true ∧ left.element 2 = .object [])
  | bytesToRequest, _ => False
  | stringToRequest, _ => False
  | onData server con, _ => (server.find con).isSome = true

end FrontEnd

theorem flow_eq_nil_iff {Input Output : Type} [Inhabited Output]
    (function : Output → Input → Bool × Output) (input : Input) :
    flow function input = [] ↔ (function default input).1 = false := by
  unfold flow
  cases (function default input).1 <;> simp

theorem cbor_command_emits_iff (lib : ArduinoJson) (request json : Json) :
    (cborCommand lib request json).1 = true ↔
      FrontEnd.LooksLikeCommand json ∧
        ¬(isCommand json "pub" = true ∧ json.element 2 = .object []) := by
  rw [cborCommand, FrontEnd.LooksLikeCommand]
  cases array : json.isArray with
  | false => simp
  | true =>
      cases pub : isCommand json "pub" with
      | false =>
          cases sub : isCommand json "sub" <;> cases log : isCommand json "log" <;>
            simp [pub, sub, log]
      | true =>
          cases third : json.element 2 with
          | object properties => cases properties <;> simp [publishProperties, pub]
          | _ => simp [pub]

theorem flow_crlf_of_decoded (lib : ArduinoJson) (line payload : CppString) (left : Json)
    (error : DeserializationError) (accepted : crcGate line = some payload)
    (decoded : lib.deserializeJson payload = (error, left)) :
    flow (crlfCrcToRequest lib) line = [] ↔ ¬FrontEnd.LooksLikeCommand left := by
  have document : (lib.deserializeJson payload).2 = left := congrArg Prod.snd decoded
  rw [flow_crlf_accepted lib line payload accepted, document, FrontEnd.LooksLikeCommand,
    ← crlf_command_emits_iff lib left]
  cases (crlfCommand lib left).1 <;> simp

theorem flow_cbor_of_decoded (lib : ArduinoJson) (cbor : Cbor) (frame : Bytes) :
    flow (cborToRequest lib cbor) frame = [] ↔
      ¬FrontEnd.Takes .cborToRequest (cborToJson lib cbor frame) := by
  rw [flow_eq_nil_iff, cborToRequest, FrontEnd.Takes,
    ← cbor_command_emits_iff lib default (cborToJson lib cbor frame)]
  simp

theorem cbor_to_json_leaves {lib : ArduinoJson} {cbor : Cbor} {frame : Bytes} {left : Json}
    (leaves : FrontEnd.Leaves lib cbor .cborToRequest frame left) :
    cborToJson lib cbor frame = left := by
  rcases leaves with ⟨failed, rfl⟩ | ⟨js, converted, error, _, decoded⟩
  · rw [cborToJson, failed]
  · rw [cborToJson, converted]
    exact congrArg Prod.snd decoded

/-- A front end stays silent on an input that does not parse exactly when it does
not take what the failed parse left behind for a command. -/
theorem front_end_rejects_iff (lib : ArduinoJson) (cbor : Cbor) (frontEnd : FrontEnd)
    (input : CppString) :
    ((∃ left, frontEnd.Leaves lib cbor input left) → frontEnd.requests lib cbor input = []) ↔
      ∀ left, frontEnd.Leaves lib cbor input left → ¬frontEnd.Takes left := by
  have single : ∀ left, frontEnd.Leaves lib cbor input left →
      (frontEnd.requests lib cbor input = [] ↔ ¬frontEnd.Takes left) := by
    intro left leaves
    cases frontEnd with
    | crlfCrcToRequest =>
        obtain ⟨payload, accepted, error, _, decoded⟩ := leaves
        exact flow_crlf_of_decoded lib input payload left error accepted decoded
    | cborToRequest =>
        have document := cbor_to_json_leaves leaves
        rw [← document]
        exact flow_cbor_of_decoded lib cbor input
    | bytesToRequest =>
        obtain ⟨error, failed, decoded⟩ := leaves
        simp [FrontEnd.requests, FrontEnd.Takes, flow, bytesToRequest, decoded, failed]
    | stringToRequest =>
        obtain ⟨error, failed, decoded⟩ := leaves
        simp [FrontEnd.requests, FrontEnd.Takes, flow, stringToRequest, decoded, failed]
    | onData server con =>
        simp only [FrontEnd.requests, FrontEnd.Takes, WsServer.onData]
        cases server.find con <;> simp
  constructor
  · intro rejects left leaves
    exact (single left leaves).mp (rejects ⟨left, leaves⟩)
  · intro refuses some_left
    obtain ⟨left, leaves⟩ := some_left
    exact (single left leaves).mpr (refuses left leaves)

def truncatedJson : ArduinoJson where
  deserializeJson source :=
    if source = text "[\"pub\",\"k\",[1,2" then
      (.incompleteInput, .array [.literal "pub", .literal "k",
        .array [.int (jsonInteger 1), .int (jsonInteger 2)]])
    else (.invalidInput, .null)
  serializeJson document := if document.isArray then text "[1,2]" else text "null"

/-- The truncated line passes its checksum and is published all the same. -/
theorem truncated_line_is_published :
    FrontEnd.Leaves truncatedJson sampleCbor .crlfCrcToRequest
        (text "[\"pub\",\"k\",[1,2" ++ crc16String (text "[\"pub\",\"k\",[1,2"))
        (.array [.literal "pub", .literal "k",
          .array [.int (jsonInteger 1), .int (jsonInteger 2)]]) ∧
      FrontEnd.requests truncatedJson sampleCbor .crlfCrcToRequest
        (text "[\"pub\",\"k\",[1,2" ++ crc16String (text "[\"pub\",\"k\",[1,2")) =
          [publishRequest (text "k") (text "[1,2]")] := by
  have accepted : crcGate (text "[\"pub\",\"k\",[1,2" ++ crc16String (text "[\"pub\",\"k\",[1,2")) =
      some (text "[\"pub\",\"k\",[1,2") :=
    (crc_gate_accepts_iff _ _).mpr ⟨by decide, rfl⟩
  constructor
  · exact ⟨_, accepted, .incompleteInput, by decide, rfl⟩
  · rw [FrontEnd.requests, flow_crlf_accepted _ _ _ accepted]
    rfl

end Serial2Redis
