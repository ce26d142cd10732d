import Serial2Redis.CrlfFlows
import Serial2Redis.Library.BinaryFloat

/-!
# The flows of the CBOR link

`cborToRequest` reads a frame through its JSON text, `responseToCbor` rebuilds a
typed CBOR item from the text that Redis delivers. tinycbor and limero's
serializer are not part of the repository and stay a parameter.
-/

namespace Serial2Redis

open BinaryFloat

/-- `as<float>()`: a double or an integer, rounded to 32 bits. -/
def Json.asFloat : Json → BitVec 32
  | float bits => toBinary32 bits
  | int value =>
      BitVec.ofBool (value.val < 0) ++ BitVec.ofNat 31 (binary32.encode value.val.natAbs)
  | _ => 0

/-- What one `add` of `CborSerializer` puts into the array being written; the
signed and the unsigned 64 bit integers are one kind of item. -/
inductive CborItem where
  | text (value : CppString)
  | integer (value : JsonInteger)
  | float (bits : BitVec 32)
  | bool (value : Bool)

/-- `valueToJson` is `cbor_parser_init` with `cbor_value_to_json`: the text in the
memory stream, or nothing when either reports an error. `toBytes` is the array
written by `begin()`, the `add`s and `end()`. -/
structure Cbor where
  valueToJson : Bytes → Option CppString
  toBytes : List CborItem → Bytes

/-- The text up to the first NUL, as a `char *` gives it. -/
def cString (source : CppString) : CppString := source.takeWhile (· != 0)

def cborToJson (lib : ArduinoJson) (cbor : Cbor) (frame : Bytes) : Json :=
  match cbor.valueToJson frame with
  | none => .object [(text "error", .literal "Failed")]
  | some js => (lib.deserializeJson (cString js)).2

/-- The loop over the properties of a published object: it returns in its first
turn. -/
def publishProperties (lib : ArduinoJson) (request : Json) (topicPrefix : CppString) :
    List (CppString × Json) → Bool × Json
  | [] => (false, request)
  | (key, value) :: _ =>
      (true, ((request.setElement 0 (.literal "publish")).setElement 1
        (.string (topicPrefix ++ cString key))).setElement 2 (.string (lib.serializeJson value)))

def cborCommand (lib : ArduinoJson) (request json : Json) : Bool × Json :=
  if json.isArray then
    if isCommand json "pub" then
      match json.element 2 with
      | .object properties =>
          publishProperties lib request (lib.asString (json.element 1)) properties
      | value =>
          (true, ((request.setElement 0 (.literal "publish")).setElement 1
            (.string (lib.asString (json.element 1)))).setElement 2
              (.string (lib.serializeJson value)))
    else if isCommand json "sub" then
      (true, (request.setElement 0 (.literal "psubscribe")).setElement 1
        (.string (lib.asString (json.element 1))))
    else if isCommand json "log" then
      (true, (request.setElement 0 (.literal "xadd")).setElement 1
        (.string (lib.asString (json.element 1))))
    else (false, request)
  else (false, request)

def cborToRequest (lib : ArduinoJson) (cbor : Cbor) (request : Json) (frame : Bytes) :
    Bool × Json :=
  cborCommand lib request (cborToJson lib cbor frame)

/-- The cascade of `is<T>()` tests in `responseToCbor`, in the order of the source. -/
def cborItem (lib : ArduinoJson) (valueJson : Json) (valueString : CppString) : CborItem :=
  if valueJson.isString then .text (lib.asString valueJson)
  else if valueJson.isInt64 then .integer valueJson.asInteger
  else if valueJson.isUint64 then .integer valueJson.asInteger
  else if valueJson.isFloat then .float valueJson.asFloat
  else if valueJson.isString then .text (lib.asString valueJson)
  else if valueJson.isBool then .bool valueJson.asBool
  else .text valueString

def responseToCbor (lib : ArduinoJson) (cbor : Cbor) (frame : Bytes) (response : Json) :
    Bool × Bytes :=
  if (response.element 0).equals "pmessage" then
    (true, cbor.toBytes [.text (text "pub"), .text (lib.asString (response.element 2)),
      cborItem lib (lib.deserializeJson (lib.asString (response.element 3))).2
        (lib.asString (response.element 3))])
  else (false, frame)

def CborItem.json : CborItem → Json
  | .text value => .string value
  | .integer value => .int value
  | .float bits => .float (toBinary64 bits)
  | .bool value => .bool value

def Cbor.Decodes (cbor : Cbor) (lib : ArduinoJson) (frame : Bytes) (document : Json) : Prop :=
  ∃ js, cbor.valueToJson frame = some js ∧ lib.Parses (cString js) document

def Cbor.Faithful (cbor : Cbor) (lib : ArduinoJson) (topic : CppString) (item : CborItem) : Prop :=
  cbor.Decodes lib (cbor.toBytes [.text (text "pub"), .text topic, item])
    (pubDocument topic item.json)

theorem cbor_to_json_decodes {lib : ArduinoJson} {cbor : Cbor} {frame : Bytes} {document : Json}
    (decodes : cbor.Decodes lib frame document) : cborToJson lib cbor frame = document := by
  obtain ⟨js, converted, parsed⟩ := decodes
  rw [cborToJson, converted]
  exact congrArg Prod.snd parsed

theorem decodes_unique {lib : ArduinoJson} {cbor : Cbor} {frame : Bytes} {left right : Json}
    (first : cbor.Decodes lib frame left) (second : cbor.Decodes lib frame right) : left = right :=
  (cbor_to_json_decodes first).symm.trans (cbor_to_json_decodes second)

theorem flow_cbor_decoded (lib : ArduinoJson) (cbor : Cbor) (frame : Bytes) (document : Json)
    (decodes : cbor.Decodes lib frame document) :
    flow (cborToRequest lib cbor) frame =
      if (cborCommand lib .null document).1 then [(cborCommand lib .null document).2] else [] := by
  rw [flow, cborToRequest, cbor_to_json_decodes decodes]
  rfl

/-- But for a published object the two tails compute the same. -/
theorem cbor_command_eq_crlf (lib : ArduinoJson) (document : Json)
    (flat : ¬(isCommand document "pub" = true ∧ (document.element 2).isObject = true)) :
    cborCommand lib .null document = crlfCommand lib document := by
  rw [cborCommand, crlfCommand]
  cases document.isArray with
  | false => rfl
  | true =>
      cases pub : isCommand document "pub" with
      | false => rfl
      | true =>
          cases third : document.element 2 with
          | object properties =>
              exfalso
              apply flat
              rw [third]
              exact ⟨pub, rfl⟩
          | _ => rfl

theorem cbor_command_pub (lib : ArduinoJson) (topic : CppString) (value : Json)
    (flat : value.isObject = false) :
    cborCommand lib .null (pubDocument topic value) =
      (true, publishRequest topic (lib.serializeJson value)) := by
  have third : (pubDocument topic value).element 2 = value := rfl
  rw [cbor_command_eq_crlf]
  · exact crlf_command_pub lib topic value
  · intro published
    rw [third, flat] at published
    cases published.2

theorem flow_cbor_publish (lib : ArduinoJson) (cbor : Cbor) (frame : Bytes) (topic : CppString)
    (value : Json) (flat : value.isObject = false)
    (encoded : cbor.Decodes lib frame (pubDocument topic value)) :
    flow (cborToRequest lib cbor) frame = [publishRequest topic (lib.serializeJson value)] := by
  rw [flow_cbor_decoded lib cbor frame _ encoded, cbor_command_pub lib topic value flat]
  rfl

/-- A delivery makes one frame of whatever document the parser left of its message. -/
theorem flow_cbor_document (lib : ArduinoJson) (cbor : Cbor) (pattern topic message : CppString)
    (left : Json) (document : (lib.deserializeJson message).2 = left) :
    flow (responseToCbor lib cbor) (pmessageResponse pattern topic message) =
      [cbor.toBytes [.text (text "pub"), .text topic, cborItem lib left message]] := by
  simp [flow, responseToCbor, pmessageResponse, Json.element, document]

theorem flow_cbor_delivery (lib : ArduinoJson) (cbor : Cbor) (pattern topic message : CppString)
    (value : Json) (parsed : lib.Parses message value) :
    flow (responseToCbor lib cbor) (pmessageResponse pattern topic message) =
      [cbor.toBytes [.text (text "pub"), .text topic, cborItem lib value message]] :=
  flow_cbor_document lib cbor pattern topic message value (congrArg Prod.snd parsed)

/-- The values the CBOR link is meant to carry one by one. -/
inductive CborLinkValue : Json → Prop
  | null : CborLinkValue .null
  | bool (value : Bool) : CborLinkValue (.bool value)
  | int (value : JsonInteger) : CborLinkValue (.int value)
  | string (value : CppString) : CborLinkValue (.string value)
  | array (items : List Json) (all : ∀ item ∈ items, CborLinkValue item) :
      CborLinkValue (.array items)

def IsScalar (value : Json) : Prop :=
  (∃ b, value = .bool b) ∨ (∃ i, value = .int i) ∨ ∃ s, value = .string s

theorem cbor_item_int (lib : ArduinoJson) (value : JsonInteger) (message : CppString) :
    cborItem lib (.int value) message = .integer value := by
  have range := value.property
  simp only [cborItem, Json.isString, Json.isInt64, Json.isUint64, Json.asInteger,
    Bool.false_eq_true, if_false, decide_eq_true_eq]
  by_cases signed : -2 ^ 63 ≤ value.val ∧ value.val < 2 ^ 63
  · rw [if_pos signed]
  · have unsigned : 0 ≤ value.val ∧ value.val < 2 ^ 64 := by omega
    rw [if_neg signed, if_pos unsigned]

theorem cbor_item_of_link_value (lib : ArduinoJson) (value : Json) (message : CppString)
    (linkValue : CborLinkValue value) :
    (IsScalar value ∧ (cborItem lib value message).json = value) ∨
      (¬IsScalar value ∧ cborItem lib value message = .text message) := by
  cases linkValue with
  | null => exact .inr ⟨by simp [IsScalar], rfl⟩
  | bool value => exact .inl ⟨.inl ⟨value, rfl⟩, rfl⟩
  | int value => exact .inl ⟨.inr (.inl ⟨value, rfl⟩), by rw [cbor_item_int]; rfl⟩
  | string value => exact .inl ⟨.inr (.inr ⟨value, rfl⟩), rfl⟩
  | array items all => exact .inr ⟨by simp [IsScalar], rfl⟩

/-- A published value comes back to a CBOR device as itself exactly when it is a
boolean, an integer or a string; null and arrays come back as their text. -/
theorem cbor_value_transparent_iff (lib : ArduinoJson) (cbor : Cbor) (frame : Bytes)
    (topic : CppString) (value : Json) (linkValue : CborLinkValue value)
    (encoded : cbor.Decodes lib frame (pubDocument topic value))
    (returns : lib.RoundTrips value)
    (faithful : ∀ item, item.json = value ∨ item = .text (lib.serializeJson value) →
      cbor.Faithful lib topic item) :
    (flow (cborToRequest lib cbor) frame = [publishRequest topic (lib.serializeJson value)] ∧
      ∀ pattern, ∃ reply,
        flow (responseToCbor lib cbor)
            (pmessageResponse pattern topic (lib.serializeJson value)) = [reply] ∧
          cbor.Decodes lib reply (pubDocument topic value)) ↔ IsScalar value := by
  have flat : value.isObject = false := by cases linkValue <;> rfl
  have item := cbor_item_of_link_value lib value (lib.serializeJson value) linkValue
  constructor
  · intro transparent
    obtain ⟨reply, replied, decodes⟩ := transparent.2 []
    rcases item with ⟨scalar, _⟩ | ⟨_, fallback⟩
    · exact scalar
    · rw [flow_cbor_delivery lib cbor [] topic _ value returns, fallback] at replied
      have raw := faithful (.text (lib.serializeJson value)) (.inr rfl)
      rw [Cbor.Faithful, (List.singleton_inj.mp replied)] at raw
      have same := decodes_unique raw decodes
      simp only [pubDocument, Json.array.injEq, List.cons.injEq, true_and, and_true] at same
      exact .inr (.inr ⟨_, same.symm⟩)
  · intro scalar
    refine ⟨flow_cbor_publish lib cbor frame topic value flat encoded, ?_⟩
    intro pattern
    refine ⟨_, flow_cbor_delivery lib cbor pattern topic _ value returns, ?_⟩
    rcases item with ⟨_, same⟩ | ⟨notScalar, _⟩
    · have carried := faithful _ (.inl same)
      rw [Cbor.Faithful, same] at carried
      exact carried
    · exact absurd scalar notScalar

/-- A number that is no integer is published as itself and comes back as the nearest `float`
there is, so as itself exactly when it is one; JSON has no other doubles than numbers. -/
theorem cbor_float_transparent_iff (lib : ArduinoJson) (cbor : Cbor) (frame : Bytes)
    (topic : CppString) (bits : BitVec 64)
    (number : (bits.setWidth 63).toNat ≤ binary64.infinity)
    (encoded : cbor.Decodes lib frame (pubDocument topic (.float bits)))
    (returns : lib.RoundTrips (.float bits))
    (faithful : cbor.Faithful lib topic (.float (toBinary32 bits))) :
    let comesBackAs := fun single : BitVec 64 => ∀ pattern, ∃ reply,
      flow (responseToCbor lib cbor)
          (pmessageResponse pattern topic (lib.serializeJson (.float bits))) = [reply] ∧
        cbor.Decodes lib reply (pubDocument topic (.float single))
    flow (cborToRequest lib cbor) frame =
        [publishRequest topic (lib.serializeJson (.float bits))] ∧
      comesBackAs (toBinary64 (toBinary32 bits)) ∧
      (((toBinary32 bits).setWidth 31).toNat < binary32.infinity →
        NearestFloat bits (toBinary32 bits)) ∧
      (comesBackAs bits ↔
        ∃ single : BitVec 32, (single.setWidth 31).toNat ≤ binary32.infinity ∧
          toBinary64 single = bits) := by
  intro comesBackAs
  have replied := fun pattern => flow_cbor_delivery lib cbor pattern topic _ _ returns
  have item : cborItem lib (.float bits) (lib.serializeJson (.float bits)) =
      .float (toBinary32 bits) := rfl
  have back : comesBackAs (toBinary64 (toBinary32 bits)) :=
    fun pattern => ⟨_, replied pattern, item.symm ▸ faithful⟩
  refine ⟨flow_cbor_publish lib cbor frame topic _ rfl encoded, back,
    to_binary32_nearest bits number, ?_⟩
  constructor
  · intro transparent
    obtain ⟨reply, delivered, decodes⟩ := transparent []
    rw [replied, item] at delivered
    rw [Cbor.Faithful, List.singleton_inj.mp delivered] at faithful
    have same := decodes_unique faithful decodes
    simp only [pubDocument, CborItem.json, Json.array.injEq, List.cons.injEq, true_and, and_true,
      Json.float.injEq] at same
    exact ⟨toBinary32 bits, to_binary32_number bits number, same⟩
  · rintro ⟨single, small, rfl⟩
    rwa [to_binary32_widened single small] at back

/-- ArduinoJson on the texts of the CBOR examples: 1, null, and the `pub`
documents on the topic `t` that occur with them. -/
def cborSampleJson : ArduinoJson where
  deserializeJson source :=
    if source = text "1" then (.ok, .int (jsonInteger 1))
    else if source = text "null" then (.ok, .null)
    else if source = text "[\"pub\",\"t\",1]" then
      (.ok, pubDocument (text "t") (.int (jsonInteger 1)))
    else if source = text "[\"pub\",\"t\",null]" then (.ok, pubDocument (text "t") .null)
    else if source = text "[\"pub\",\"t\",\"1\"]" then
      (.ok, pubDocument (text "t") (.literal "1"))
    else if source = text "[\"pub\",\"t\",\"null\"]" then
      (.ok, pubDocument (text "t") (.literal "null"))
    else (.invalidInput, .null)
  serializeJson document := if document.isInt64 then text "1" else text "null"

def sampleCbor : Cbor where
  valueToJson frame :=
    if frame = [0x9F, 0x63, 0x70, 0x75, 0x62, 0x61, 0x74, 0x01, 0xFF] then
      some (text "[\"pub\",\"t\",1]")
    else if frame = [0x9F, 0x63, 0x70, 0x75, 0x62, 0x61, 0x74, 0xF6, 0xFF] then
      some (text "[\"pub\",\"t\",null]")
    else if frame = [0x9F, 0x63, 0x70, 0x75, 0x62, 0x61, 0x74, 0x61, 0x31, 0xFF] then
      some (text "[\"pub\",\"t\",\"1\"]")
    else if frame =
        [0x9F, 0x63, 0x70, 0x75, 0x62, 0x61, 0x74, 0x64, 0x6E, 0x75, 0x6C, 0x6C, 0xFF] then
      some (text "[\"pub\",\"t\",\"null\"]")
    else none
  toBytes items :=
    [0x9F] ++ items.flatMap (fun
      | .text value => BitVec.ofNat 8 (0x60 + value.length) :: value
      | .integer value => [BitVec.ofNat 8 value.val.toNat]
      | .float bits => [0xFA] ++ (List.range 4).map fun i => bits.extractLsb' (24 - 8 * i) 8
      | .bool value => [if value then 0xF5 else 0xF4]) ++ [0xFF]

theorem cbor_value_transparent_one :
    (flow (cborToRequest cborSampleJson sampleCbor)
        [0x9F, 0x63, 0x70, 0x75, 0x62, 0x61, 0x74, 0x01, 0xFF] =
          [publishRequest (text "t") (text "1")] ∧
      ∀ pattern, ∃ reply,
        flow (responseToCbor cborSampleJson sampleCbor)
            (pmessageResponse pattern (text "t") (text "1")) = [reply] ∧
          sampleCbor.Decodes cborSampleJson reply
            (pubDocument (text "t") (.int (jsonInteger 1)))) ↔
      IsScalar (.int (jsonInteger 1)) :=
  cbor_value_transparent_iff cborSampleJson sampleCbor
    [0x9F, 0x63, 0x70, 0x75, 0x62, 0x61, 0x74, 0x01, 0xFF] (text "t") (.int (jsonInteger 1))
    (.int _) ⟨text "[\"pub\",\"t\",1]", rfl, rfl⟩ rfl
    (by
      intro item which
      rcases which with same | rfl
      · cases item with
        | integer value =>
            have one : value = jsonInteger 1 := Json.int.inj same
            subst one
            exact ⟨text "[\"pub\",\"t\",1]", rfl, rfl⟩
        | text value => cases same
        | float bits => cases same
        | bool value => cases same
      · exact ⟨text "[\"pub\",\"t\",\"1\"]", rfl, rfl⟩)

/-- A device that publishes null is sent the string `"null"` back. -/
theorem cbor_null_comes_back_as_text :
    sampleCbor.Decodes cborSampleJson [0x9F, 0x63, 0x70, 0x75, 0x62, 0x61, 0x74, 0xF6, 0xFF]
        (pubDocument (text "t") .null) ∧
      cborSampleJson.RoundTrips .null ∧
      flow (cborToRequest cborSampleJson sampleCbor)
        [0x9F, 0x63, 0x70, 0x75, 0x62, 0x61, 0x74, 0xF6, 0xFF] =
          [publishRequest (text "t") (text "null")] ∧
      ∀ pattern, ∃ reply,
        flow (responseToCbor cborSampleJson sampleCbor)
            (pmessageResponse pattern (text "t") (text "null")) = [reply] ∧
          cborToJson cborSampleJson sampleCbor reply = pubDocument (text "t") (.literal "null") ∧
          ¬sampleCbor.Decodes cborSampleJson reply (pubDocument (text "t") .null) := by
  refine ⟨⟨text "[\"pub\",\"t\",null]", rfl, rfl⟩, rfl, rfl, ?_⟩
  intro pattern
  refine ⟨[0x9F, 0x63, 0x70, 0x75, 0x62, 0x61, 0x74, 0x64, 0x6E, 0x75, 0x6C, 0x6C, 0xFF],
    rfl, rfl, ?_⟩
  intro decodes
  have same := cbor_to_json_decodes decodes
  have third := congrArg (fun document => document.element 2) same
  change Json.literal "null" = Json.null at third
  cases third

def halfBits : BitVec 64 := 0x3FE0000000000000

def halfJson : ArduinoJson where
  deserializeJson source :=
    if source = text "0.5" then (.ok, .float halfBits)
    else if source = text "[\"pub\",\"t\",0.5]" then (.ok, pubDocument (text "t") (.float halfBits))
    else (.invalidInput, .null)
  serializeJson
    | .float _ => text "0.5"
    | _ => text "[\"pub\",\"t\",0.5]"

/-- `["pub","t",0.5]` with the number in 32 bits. -/
def halfFrame : Bytes := [0x9F, 0x63, 0x70, 0x75, 0x62, 0x61, 0x74, 0xFA, 0x3F, 0, 0, 0, 0xFF]

def halfCbor : Cbor where
  valueToJson frame := if frame = halfFrame then some (text "[\"pub\",\"t\",0.5]") else none
  toBytes := sampleCbor.toBytes

theorem half_rounded : toBinary32 halfBits = 0x3F000000 := by
  decide +kernel

theorem half_widened : toBinary64 0x3F000000 = halfBits := by
  decide +kernel

theorem cbor_float_transparent_half :
    let comesBackAs := fun single : BitVec 64 => ∀ pattern, ∃ reply,
      flow (responseToCbor halfJson halfCbor)
          (pmessageResponse pattern (text "t") (text "0.5")) = [reply] ∧
        halfCbor.Decodes halfJson reply (pubDocument (text "t") (.float single))
    flow (cborToRequest halfJson halfCbor) halfFrame =
        [publishRequest (text "t") (text "0.5")] ∧
      comesBackAs (toBinary64 (toBinary32 halfBits)) ∧
      (((toBinary32 halfBits).setWidth 31).toNat < binary32.infinity →
        NearestFloat halfBits (toBinary32 halfBits)) ∧
      (comesBackAs halfBits ↔
        ∃ single : BitVec 32, (single.setWidth 31).toNat ≤ binary32.infinity ∧
          toBinary64 single = halfBits) :=
  cbor_float_transparent_iff halfJson halfCbor halfFrame (text "t") halfBits (by decide)
    ⟨text "[\"pub\",\"t\",0.5]", rfl, rfl⟩ rfl
    (by
      rw [Cbor.Faithful, CborItem.json, half_rounded, half_widened]
      exact ⟨text "[\"pub\",\"t\",0.5]", rfl, rfl⟩)

end Serial2Redis
