import HapRust.Ble.Write
import HapRust.Lib.Serial

/-! Advertisements of an accessory: regular ones, which carry its global state number (GSN),
and encrypted broadcasts of a changed value; and values as they come over BLE. -/

namespace HapRust.Ble
open Lib Tlv8 Crypto

def gsnIsNewer (new last : UInt16) : Bool :=
  let diff := new - last
  diff != 0 && diff < 0x8000

theorem gsnIsNewer_iff {new last : UInt16} : gsnIsNewer new last = true ↔ Newer new last := by
  have hzero : new - last ≠ 0 ↔ 0 < (new - last).toNat := by
    rw [ne_eq, ← UInt16.toNat_inj, UInt16.toNat_zero]
    omega
  simp only [gsnIsNewer, Bool.and_eq_true, bne_iff_ne, decide_eq_true_eq, Newer, ahead, hzero,
    UInt16.lt_iff_toNat_lt]
  rfl

def u16Le (b : Bytes) : UInt16 := UInt16.ofNat (leNat (b.take 2))

inductive HapAdvert where
  | regular (deviceId : Arr 6) (gsn : UInt16) (paired : Bool)
  | encryptedNotification (advertisingId : Arr 6) (payload : Bytes)
  deriving DecidableEq

def HapAdvert.parse (mfg : Bytes) : Option HapAdvert :=
  if mfg.head? = some 0x06 ∧ 13 ≤ mfg.length then do
    let deviceId ← tryIntoArr 6 ((mfg.drop 3).take 6)
    return .regular deviceId (u16Le (mfg.drop 11)) (mfg.getD 2 0 &&& 0x01 == 0)
  else if mfg.head? = some 0x11 ∧ 8 ≤ mfg.length then do
    let advertisingId ← tryIntoArr 6 ((mfg.drop 2).take 6)
    return .encryptedNotification advertisingId (mfg.drop 8)
  else none

section
variable (raw : Bytes)

def need (n : Nat) : Except BleError Nat := do
  ensure (n ≤ raw.length) (.malformedPdu "value shorter than its format width")
  return leNat (raw.take n)

variable {raw} in
theorem need_of_le {n : Nat} (h : n ≤ raw.length) : need raw n = .ok (leNat (raw.take n)) := by
  rw [need, ensure, if_pos h]
  rfl

variable {raw} in
theorem need_of_lt {n : Nat} (h : raw.length < n) :
    need raw n = .error (.malformedPdu "value shorter than its format width") := by
  rw [need, ensure, if_neg (by omega)]
  rfl

def decodeValue : CharFormat → Except BleError CharValue
  | .bool => do
    let n ← need raw 1
    return .bool (n != 0)
  | .uint8 => do
    let n ← need raw 1
    return .uint (UInt64.ofNat n)
  | .uint16 => do
    let n ← need raw 2
    return .uint (UInt64.ofNat n)
  | .uint32 => do
    let n ← need raw 4
    return .uint (UInt64.ofNat n)
  | .uint64 => do
    let n ← need raw 8
    return .uint (UInt64.ofNat n)
  | .int => do
    let n ← need raw 4
    return .int (Int64.ofInt (if n < 2 ^ 31 then n else n - 2 ^ 32))
  | .float => do
    let n ← need raw 4
    return .float (Float32.ofBits (UInt32.ofNat n)).toFloat
  | .string => .ok (.str (fromUtf8Lossy raw))
  | .tlv8 | .data => .ok (.bytes raw)

end
end HapRust.Ble
