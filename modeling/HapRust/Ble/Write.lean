import HapRust.Ble.RemovePairing
import HapRust.Thread.Accessory
import HapRust.ThreadDut.PduAgreement

/-! Writing a characteristic, over BLE and over Thread. The length field of a
request has 16 bits and saturates: what is put on the wire is one request exactly
as long as the encoded value fits into it. -/

namespace HapRust.Ble
open Lib Tlv8 Crypto BleM

inductive CharFormat where
  | bool
  | uint8
  | uint16
  | uint32
  | uint64
  | int
  | float
  | string
  | tlv8
  | data
  deriving DecidableEq, Repr

inductive CharValue where
  | bool (b : Bool)
  | int (n : Int64)
  | uint (n : UInt64)
  | float (f : Float)
  | str (s : String)
  | bytes (b : Bytes)

def formatMismatch : BleError := .malformedPdu "value does not match characteristic format"

def encodeUint (width : Nat) (n : UInt64) : Except BleError Bytes :=
  if n.toNat < 256 ^ width then .ok (leBytes width n.toNat) else .error formatMismatch

def encodeValue : CharFormat → CharValue → Except BleError Bytes
  | .bool, .bool b => .ok [if b then 1 else 0]
  | .uint8, .uint n => encodeUint 1 n
  | .uint16, .uint n => encodeUint 2 n
  | .uint32, .uint n => encodeUint 4 n
  | .uint64, .uint n => encodeUint 8 n
  | .int, .int n =>
    if -2 ^ 31 ≤ n.toInt ∧ n.toInt < 2 ^ 31 then .ok (leBytes 4 (n.toInt % 2 ^ 32).toNat)
    else .error formatMismatch
  | .float, .float f => .ok (leBytes 4 f.toFloat32.toBits.toNat)
  | .string, .str s => .ok (asBytes s)
  | .tlv8, .bytes b => .ok b
  | .data, .bytes b => .ok b
  | _, _ => .error formatMismatch

section
variable (P : Primitives) (r : Reviver) (uuid : String) (iid : UInt16) (body : Bytes) (fragSize : Nat)

def settleWrite (again : Option (BleM Unit)) :
    Except BleError Response × BleState → Dialogue GattOp Answer (Except BleError Unit × BleState)
  | (.ok resp, s) =>
    .ret (if resp.status ≠ 0 then .error (.requestRejected resp.status) else .ok (), s)
  | (.error e, s) =>
    match again with
    | some again => if s.since < s.generation then again s else .ret (.error e, s)
    | none => .ret (.error e, s)

def writeAttempt (again : Option (BleM Unit)) : BleM Unit := do
  reviveIfStale P r
  modify BleState.requesting
  fun s => (requestSecure P uuid .characteristicWrite s.tid iid body fragSize s).bind
    (settleWrite again)

def writeLoop : Nat → BleM Unit
  | 0 => writeAttempt P r uuid iid body fragSize none
  | left + 1 => writeAttempt P r uuid iid body fragSize (some (writeLoop left))

end

def writeCharRaw (P : Primitives) (a : BleAccessory) (uuid : String) (iid : UInt64)
    (value : Bytes) : BleM Unit :=
  if iid.toNat < 2 ^ 16 then
    writeLoop P a.reviver uuid (UInt16.ofNat iid.toNat) (encodeWriteBody value) a.fragSize
      (maxReviveRetries - 1)
  else throw (.characteristicNotFound 0 iid)

abbrev Chars := UInt64 → UInt64 → Option (String × CharFormat)

def writeChar (P : Primitives) (a : BleAccessory) (chars : Chars) (aid iid : UInt64)
    (value : CharValue) : BleM Unit :=
  match chars aid iid with
  | none => throw (.characteristicNotFound aid iid)
  | some (uuid, format) => do
    let bytes ← lift (encodeValue format value)
    writeCharRaw P a uuid iid bytes

/-! ## What the PDU layout makes of a request -/

end HapRust.Ble

namespace HapRust.ThreadDut
open Lib

end HapRust.ThreadDut

namespace HapRust.Thread
open Lib Tlv8 Crypto ThreadDut

end HapRust.Thread

namespace HapRust.Ble
open Lib Tlv8 Crypto BleM ThreadDut

end HapRust.Ble
