import HapRust.Model.CharacteristicTypes
import HapRust.Thread.Database

/-! The signature of a characteristic, as an accessory describes it over BLE: the type, what
may be done with the characteristic and the format of its value. -/

namespace HapRust.Ble
open Lib Tlv8 Model

namespace Param
def charType : UInt8 := 0x04
def properties : UInt8 := 0x0A
def presentationFormat : UInt8 := 0x0C
end Param

structure Signature where
  charType : CharacteristicType
  format : CharFormat
  perms : Perms
  properties : UInt16
  deriving DecidableEq

def charFormatFromGatt : UInt8 → Option CharFormat
  | 0x01 => some .bool
  | 0x04 => some .uint8
  | 0x06 => some .uint16
  | 0x08 => some .uint32
  | 0x0A => some .uint64
  | 0x10 => some .int
  | 0x14 => some .float
  | 0x19 => some .string
  | 0x1B => some .data
  | _ => none

def permsFromProperties (bits : UInt16) : Perms where
  read := bits &&& 0x0001 != 0 || bits &&& 0x0010 != 0
  write := bits &&& 0x0002 != 0 || bits &&& 0x0020 != 0
  events := bits &&& 0x0080 != 0
  hidden := bits &&& 0x0040 != 0
  additionalAuthorization := false
  timedWrite := false
  writeResponse := false

def leBytesToUuid (le : Bytes) : Except BleError String := do
  ensure (le.length = 16) (.malformedPdu "characteristic type uuid not 16 bytes")
  let h := le.reverse.flatMap fun b => (Nat.toDigits 16 b.toNat).leftpad 2 '0'
  return String.ofList (['-'].intercalate [h.take 8, (h.take 12).drop 8, (h.take 16).drop 12,
    (h.take 20).drop 16, (h.take 32).drop 20])

def signatureFormat (charType : CharacteristicType) (descriptor : Option Bytes) :
    Option CharFormat :=
  ((descriptor.bind List.head?).bind charFormatFromGatt).or charType.defaultFormat

def parseSignature (body : Bytes) : Except BleError Signature := do
  let map ← mapErr .tlv8 (Tlv8Map.parse body)
  let typeLe ← okOr (map.get Param.charType) (.malformedPdu "signature missing char type")
  let text ← leBytesToUuid typeLe
  let uuid ← mapErr (fun e => .model e.display) (Uuid.parse text)
  let charType := CharacteristicType.fromUuid uuid
  let propBytes ← okOr (map.get Param.properties) (.malformedPdu "signature missing properties")
  ensure (2 ≤ propBytes.length) (.malformedPdu "properties descriptor too short")
  let properties := UInt16.ofNat (leNat (propBytes.take 2))
  let format ← okOr (signatureFormat charType (map.get Param.presentationFormat))
    (.malformedPdu "no usable characteristic format")
  return ⟨charType, format, permsFromProperties properties, properties⟩

end HapRust.Ble
