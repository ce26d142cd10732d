import Mathlib.Algebra.Ring.Int.Defs
import Mathlib.Data.List.Basic

/-!
Bytes, strings, ArduinoJson documents and limero flows: what every translator of
the bridge works on. `std::string` is a list of chars, stored as bytes; where a
char is widened its sign matters and is written out there. A document is the
value tree; the parser and the writer of ArduinoJson are not part of the
repository and stay a parameter.
-/

namespace Serial2Redis

abbrev Byte := BitVec 8
abbrev Bytes := List Byte
abbrev CppString := List Byte

def text (literal : String) : CppString := literal.toList.map fun c => BitVec.ofNat 8 c.toNat

/-- ArduinoJson keeps integers in 64 bits, signed or unsigned. -/
abbrev JsonInteger := { value : Int // -2 ^ 63 ≤ value ∧ value < 2 ^ 64 }

def jsonInteger (value : Byte) : JsonInteger := ⟨value.toNat, by omega⟩

/-- The numbers that are no integers are doubles, given by their bits. -/
inductive Json where
  | null
  | bool (value : Bool)
  | int (value : JsonInteger)
  | float (bits : BitVec 64)
  | string (value : CppString)
  | array (items : List Json)
  | object (members : List (CppString × Json))

instance : Inhabited Json := ⟨.null⟩

namespace Json

def literal (source : String) : Json := string (text source)

/-- `document[index]` read; an index that is not there reads as null. -/
def element : Json → Nat → Json
  | array items, index => items.getD index null
  | _, _ => null

/-- `document[index] = value`: null becomes an array, an array is filled up with
nulls, any other document is left as it is. -/
def setElement : Json → Nat → Json → Json
  | null, index, value => array (List.replicate index null ++ [value])
  | array items, index, value =>
      if index < items.length then array (items.set index value)
      else array (items ++ List.replicate (index - items.length) null ++ [value])
  | other, _, _ => other

def equals : Json → String → Bool
  | string value, name => value == text name
  | _, _ => false

def isArray : Json → Bool
  | array _ => true
  | _ => false

def isObject : Json → Bool
  | object _ => true
  | _ => false

def isString : Json → Bool
  | string _ => true
  | _ => false

def isBool : Json → Bool
  | bool _ => true
  | _ => false

def isInt64 : Json → Bool
  | int value => decide (-2 ^ 63 ≤ value.val ∧ value.val < 2 ^ 63)
  | _ => false

def isUint64 : Json → Bool
  | int value => decide (0 ≤ value.val ∧ value.val < 2 ^ 64)
  | _ => false

def isFloat : Json → Bool
  | int _ => true
  | float _ => true
  | _ => false

def asInteger : Json → JsonInteger
  | int value => value
  | _ => jsonInteger 0

def asBool : Json → Bool
  | bool value => value
  | _ => false

@[simp] theorem literal_equals (source name : String) :
    (literal source).equals name = (text source == text name) := rfl

theorem set_three (first second third : Json) :
    ((null.setElement 0 first).setElement 1 second).setElement 2 third =
      array [first, second, third] := by
  simp [setElement]

end Json

inductive DeserializationError where
  | ok | emptyInput | incompleteInput | invalidInput | noMemory | tooDeep
  deriving DecidableEq

/-- The two ArduinoJson entry points. On an error the document half of the result
is whatever the parser left in the target. -/
structure ArduinoJson where
  deserializeJson : CppString → DeserializationError × Json
  serializeJson : Json → CppString

namespace ArduinoJson

/-- The conversion of a variant to `std::string`: a string gives its contents,
anything else its serialized text. -/
def asString (lib : ArduinoJson) : Json → CppString
  | .string value => value
  | other => lib.serializeJson other

@[simp] theorem as_string_string (lib : ArduinoJson) (value : CppString) :
    lib.asString (.string value) = value := rfl

def Parses (lib : ArduinoJson) (source : CppString) (document : Json) : Prop :=
  lib.deserializeJson source = (.ok, document)

def RoundTrips (lib : ArduinoJson) (document : Json) : Prop :=
  lib.Parses (lib.serializeJson document) document

/-- The text of an array opens and closes with its brackets. -/
def Brackets (lib : ArduinoJson) (items : List Json) : Prop :=
  ∃ body, lib.serializeJson (.array items) = text "[" ++ body ++ text "]"

theorem brackets_length {lib : ArduinoJson} {items : List Json} (brackets : lib.Brackets items) :
    2 ≤ (lib.serializeJson (.array items)).length := by
  obtain ⟨body, written⟩ := brackets
  rw [written]
  simp [text]

end ArduinoJson

/-- One element through a limero flow: the function fills a fresh output and the
flow emits it exactly when the function returns true. -/
def flow {Input Output : Type} [Inhabited Output] (function : Output → Input → Bool × Output)
    (input : Input) : List Output :=
  if (function default input).1 then [(function default input).2] else []

end Serial2Redis
