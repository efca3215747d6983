import HapRust.Ble.Write

/-! Values of characteristics in the JSON of an accessory: how a value is read
under the declared format of its characteristic, and how it is written. -/

namespace HapRust.Model
open Lib
open Ble (CharFormat CharValue)

inductive JsonNumber where
  | posInt (n : UInt64)
  | negInt (n : Int64) (neg : n < 0)
  | float (f : Float)

def i64TryFrom (n : UInt64) : Option Int64 := if n.toNat < 2 ^ 63 then some n.toInt64 else none

namespace JsonNumber

def asU64 : JsonNumber → Option UInt64
  | posInt n => some n
  | negInt _ _ | float _ => none

def asI64 : JsonNumber → Option Int64
  | posInt n => i64TryFrom n
  | negInt n _ => some n
  | float _ => none

def asF64 : JsonNumber → Option Float
  | posInt n => some n.toFloat
  | negInt n _ => some n.toFloat
  | float f => some f

def ofI64 (n : Int64) : JsonNumber := if h : n < 0 then negInt n h else posInt n.toUInt64

end JsonNumber

inductive Json where
  | null
  | bool (b : Bool)
  | number (n : JsonNumber)
  | string (s : String)
  | array (values : List Json)
  | object (fields : List (String × Json))

namespace Json

def asNumber : Json → Option JsonNumber
  | number n => some n
  | _ => none

def asU64 (v : Json) : Option UInt64 := v.asNumber.bind (·.asU64)
def asI64 (v : Json) : Option Int64 := v.asNumber.bind (·.asI64)
def asF64 (v : Json) : Option Float := v.asNumber.bind (·.asF64)

end Json

structure WireReadEntry where
  aid : UInt64
  iid : UInt64
  value : Option Json
  status : Option Int64
  format : Option CharFormat

/-- The libraries for JSON and for base64, which the crate calls. -/
structure JsonCodec where
  fromSlice : Bytes → Except String (List WireReadEntry)
  toVec : Json → Bytes
  display : Json → String
  fromF64 : Float → Option JsonNumber
  decodeBase64 : Bytes → Except String Bytes
  encodeBase64 : Bytes → String

inductive ModelError where
  | json (e : String)
  | malformedUuid (s : String)
  | valueType (format detail : String)
  | valueRange (format value : String)
  | base64 (e : String)
  | characteristicStatus (aid iid : UInt64) (status : Int64)

section
variable (J : JsonCodec)

def asStr : CharFormat → String
  | .bool => "bool"
  | .uint8 => "uint8"
  | .uint16 => "uint16"
  | .uint32 => "uint32"
  | .uint64 => "uint64"
  | .int => "int"
  | .float => "float"
  | .string => "string"
  | .tlv8 => "tlv8"
  | .data => "data"

def uintMax : CharFormat → Option UInt64
  | .uint8 => some 0xff
  | .uint16 => some 0xffff
  | .uint32 => some 0xffffffff
  | .uint64 => some 0xffffffffffffffff
  | _ => none

def typeErr (f : CharFormat) (v : Json) : ModelError := .valueType (asStr f) ("got JSON " ++ J.display v)

def uintFromJson (f : CharFormat) (v : Json) : Except ModelError CharValue := do
  let n ← okOr v.asU64 (typeErr J f v)
  ensure ((uintMax f).all (n ≤ ·)) (.valueRange (asStr f) (toString n))
  return .uint n

def bytesFromJson (f : CharFormat) : Json → Except ModelError CharValue
  | .string s => do
    let bytes ← mapErr .base64 (J.decodeBase64 (asBytes s))
    return .bytes bytes
  | other => .error (typeErr J f other)

def valueFromJson (f : CharFormat) (v : Json) : Except ModelError CharValue :=
  match f with
  | .bool =>
    match v with
    | .bool b => .ok (.bool b)
    | .number n =>
      if n.asU64 = some 0 then .ok (.bool false)
      else if n.asU64 = some 1 then .ok (.bool true)
      else .error (typeErr J f v)
    | _ => .error (typeErr J f v)
  | .uint8 | .uint16 | .uint32 | .uint64 => uintFromJson J f v
  | .int => do
    let n ← okOr v.asI64 (typeErr J f v)
    return .int n
  | .float => do
    let x ← okOr v.asF64 (typeErr J f v)
    return .float x
  | .string =>
    match v with
    | .string s => .ok (.str s)
    | _ => .error (typeErr J f v)
  | .tlv8 | .data => bytesFromJson J f v

def toJson : CharValue → Json
  | .bool b => .bool b
  | .int n => .number (.ofI64 n)
  | .uint n => .number (.posInt n)
  | .float f => ((J.fromF64 f).map Json.number).getD .null
  | .str s => .string s
  | .bytes b => .string (J.encodeBase64 b)

end
end HapRust.Model
