import HapRust.Model.Uuid

/-! The attribute database, which an accessory sends in one body of nested TLV8: how a body
is decoded into the accessories with their services and characteristics. -/

namespace HapRust
open Lib Tlv8

namespace Model

structure Perms where
  read : Bool
  write : Bool
  events : Bool
  additionalAuthorization : Bool
  timedWrite : Bool
  hidden : Bool
  writeResponse : Bool
  deriving DecidableEq, Repr

structure Characteristic (χ : Type) where
  iid : UInt64
  charType : χ
  format : Ble.CharFormat
  perms : Perms
  value : Option Ble.CharValue
  unit : Option String
  minValue : Option Float
  maxValue : Option Float
  minStep : Option Float
  maxLen : Option UInt64

structure Service (σ χ : Type) where
  iid : UInt64
  serviceType : σ
  characteristics : List (Characteristic χ)

structure Accessory (σ χ : Type) where
  aid : UInt64
  services : List (Service σ χ)

structure TypeTables (σ χ : Type) where
  serviceType : Uuid → σ
  characteristicType : Uuid → χ

end Model

namespace Thread
open Model

namespace Ty

def accessories : UInt8 := 0x18
def accessory : UInt8 := 0x19
def accIid : UInt8 := 0x1A
def services : UInt8 := 0x16
def service : UInt8 := 0x15
def svcType : UInt8 := 0x06
def svcIid : UInt8 := 0x07
def chars : UInt8 := 0x14
def char : UInt8 := 0x13
def chrType : UInt8 := 0x04
def chrIid : UInt8 := 0x05
def chrProps : UInt8 := 0x0A
def presFmt : UInt8 := 0x0C

end Ty

def listItems (value : Bytes) (itemType : UInt8) : Except ThreadError (List Bytes) := do
  let map ← mapErr .tlv8 (Tlv8Map.parse value)
  return (map.items.filter (·.1 == itemType)).map (·.2)

/-! ## Types -/

def hexBytes (b : Bytes) : List Char := b.flatMap fun x => (Nat.toDigits 16 x.toNat).leftpad 2 '0'

def dashed (be : Bytes) : List Char :=
  ['-'].intercalate [hexBytes (be.take 4), hexBytes ((be.drop 4).take 2),
    hexBytes ((be.drop 6).take 2), hexBytes ((be.drop 8).take 2), hexBytes (be.drop 10)]

def typeBytes (bytes : Bytes) : Bytes := bytes.take 16 ++ List.replicate (16 - bytes.length) 0

def typeUuid (bytes : Bytes) : Except ThreadError Uuid :=
  let le := typeBytes bytes
  let s := if (le.drop 4).all (· == 0) then Nat.toDigits 16 (leNat (le.take 4)) else dashed le.reverse
  mapErr (fun e => .model e.display) (Uuid.parse (String.ofList s))

def permsFrom (p : UInt16) : Perms where
  read := p &&& (0x0001 ||| 0x0010) != 0
  write := p &&& (0x0002 ||| 0x0020) != 0
  events := p &&& (0x0080 ||| 0x0100) != 0
  additionalAuthorization := p &&& 0x0004 != 0
  timedWrite := p &&& 0x0008 != 0
  hidden := p &&& 0x0040 != 0
  writeResponse := false

def presentationFormat : Option UInt8 → Ble.CharFormat
  | some 0x01 => .bool
  | some 0x04 => .uint8
  | some 0x06 => .uint16
  | some 0x08 => .uint32
  | some 0x0A => .uint64
  | some 0x10 => .int
  | some 0x14 => .float
  | some 0x19 => .string
  | _ => .data

def presentationUnit : Nat → Option String
  | 0x272F => some "celsius"
  | 0x27AD => some "percentage"
  | 0x2700 => some "unitless"
  | 0x2731 => some "lux"
  | 0x2703 => some "seconds"
  | 0x2763 => some "arcdegrees"
  | _ => none

def formatAndUnit : Option Bytes → Ble.CharFormat × Option String
  | none => (.data, none)
  | some pf => (presentationFormat pf.head?,
      if 4 ≤ pf.length then presentationUnit (leNat ((pf.drop 2).take 2)) else none)

/-! ## The tree -/

section
variable {σ χ : Type} (T : TypeTables σ χ)

def decodeCharacteristic (bytes : Bytes) : Except ThreadError (Characteristic χ) := do
  let map ← mapErr .tlv8 (Tlv8Map.parse bytes)
  let iid ← mapErr .tlv8 (map.getU16 Ty.chrIid)
  let uuid ← typeUuid ((map.get Ty.chrType).getD [])
  let properties ← mapErr .tlv8 (map.getU16 Ty.chrProps)
  return {
    iid := (iid.getD 0).toUInt64
    charType := T.characteristicType uuid
    format := (formatAndUnit (map.get Ty.presFmt)).1
    perms := permsFrom (properties.getD 0)
    value := none
    unit := (formatAndUnit (map.get Ty.presFmt)).2
    minValue := none
    maxValue := none
    minStep := none
    maxLen := none }

def decodeService (bytes : Bytes) : Except ThreadError (Service σ χ) := do
  let map ← mapErr .tlv8 (Tlv8Map.parse bytes)
  let iid ← mapErr .tlv8 (map.getU16 Ty.svcIid)
  let uuid ← typeUuid ((map.get Ty.svcType).getD [])
  let items ← listItems ((map.get Ty.chars).getD []) Ty.char
  let characteristics ← items.mapM (decodeCharacteristic T)
  return ⟨(iid.getD 0).toUInt64, T.serviceType uuid, characteristics⟩

def decodeAccessory (bytes : Bytes) : Except ThreadError (Accessory σ χ) := do
  let map ← mapErr .tlv8 (Tlv8Map.parse bytes)
  let aid ← mapErr .tlv8 (map.getU16 Ty.accIid)
  let items ← listItems ((map.get Ty.services).getD []) Ty.service
  let services ← items.mapM (decodeService T)
  return ⟨(aid.getD 0).toUInt64, services⟩

def decodeDatabase (raw : Bytes) : Except ThreadError (List (Accessory σ χ)) := do
  let map ← mapErr .tlv8 (Tlv8Map.parse raw)
  let items ← listItems ((map.get Ty.accessories).getD []) Ty.accessory
  items.mapM (decodeAccessory T)

end

/-! ## Every type is read -/

section
variable {bytes be : Bytes}

theorem length_typeBytes (bytes : Bytes) : (typeBytes bytes).length = 16 := by
  rw [typeBytes, List.length_append, List.length_take, List.length_replicate]
  omega

theorem typeBytes_of_length (h : bytes.length = 16) : typeBytes bytes = bytes := by
  rw [typeBytes, List.take_of_length_le (by omega), h]
  exact List.append_nil _

theorem hexBytes_eq (b : Bytes) : hexBytes b = b.flatMap fun x => fixedDigits 16 2 x.toNat := by
  apply List.flatMap_congr
  intro x _
  exact leftpad_toDigits (by decide) (show x.toNat < 16 ^ (1 + 1) from x.toNat_lt)

theorem length_hexBytes (b : Bytes) : (hexBytes b).length = 2 * b.length := by
  rw [hexBytes_eq, List.length_flatMap]
  simp only [length_fixedDigits, List.map_const', List.sum_replicate_nat]
  exact Nat.mul_comm _ _

theorem canonical_hexBytes {b : Bytes} {c : Char} (hc : c ∈ hexBytes b) : Uuid.Canonical c := by
  rw [hexBytes_eq] at hc
  obtain ⟨x, _, hx⟩ := List.mem_flatMap.mp hc
  exact Uuid.canonical_fixedDigits hx

theorem hexBytes_leBytes (k n : Nat) :
    hexBytes (leBytes k n).reverse = fixedDigits 16 (2 * k) n := by
  induction k generalizing n with
  | zero => rfl
  | succ k ih =>
    have hbyte : hexBytes [UInt8.ofNat n] =
        [Nat.digitChar (n / 16 % 16), Nat.digitChar (n % 16)] := by
      rw [hexBytes_eq, List.flatMap_singleton, UInt8.toNat_ofNat']
      have hlow : n % 2 ^ 8 % 16 = n % 16 := by omega
      have hhigh : n % 2 ^ 8 / 16 % 16 = n / 16 % 16 := by omega
      simp only [fixedDigits, hlow, hhigh, List.nil_append, List.cons_append]
    have hsplit : hexBytes ((leBytes k (n / 256)).reverse ++ [UInt8.ofNat n]) =
        hexBytes (leBytes k (n / 256)).reverse ++ hexBytes [UInt8.ofNat n] := List.flatMap_append
    rw [leBytes, List.reverse_cons, hsplit, ih, hbyte, Nat.mul_succ, fixedDigits, fixedDigits,
      Nat.div_div_eq_div_mul, List.append_assoc]
    rfl

theorem canonical_dashed {c : Char} (hc : c ∈ dashed be) : Uuid.Canonical c := by
  simp only [dashed, List.intercalate, List.intersperse, List.flatten_cons, List.flatten_nil,
    List.mem_append, List.mem_singleton, List.append_nil] at hc
  rcases hc with hc | rfl | hc | rfl | hc | rfl | hc | rfl | hc <;>
    first | exact canonical_hexBytes hc | exact Uuid.canonical_dash

theorem parse_dashed (h : be.length = 16) :
    Uuid.parse (String.ofList (dashed be)) = .ok ⟨String.ofList (dashed be)⟩ := by
  have hfour : (hexBytes (be.take 4)).length = 8 := by
    rw [length_hexBytes, List.length_take]
    omega
  apply Uuid.parse_full
  · intro c hc
    exact canonical_dashed hc
  · simp only [dashed, List.intercalate, List.intersperse, List.flatten_cons, List.flatten_nil,
      List.length_append, List.length_singleton, length_hexBytes, List.length_take, List.length_drop,
      List.length_nil, h]
    rfl
  · obtain ⟨rest, hsplit⟩ : ∃ rest, dashed be = hexBytes (be.take 4) ++ '-' :: rest := ⟨_, rfl⟩
    rw [hsplit, List.getElem?_append_right (by omega), hfour]
    rfl

def IsShort (bytes : Bytes) : Prop := ((typeBytes bytes).drop 4).all (· == 0) = true

theorem typeUuid_of_short (h : IsShort bytes) :
    typeUuid bytes = .ok (.hapBase (UInt32.ofNat (leNat ((typeBytes bytes).take 4)))) := by
  have hlt : leNat ((typeBytes bytes).take 4) < UInt32.size := by
    have hlt := leNat_lt ((typeBytes bytes).take 4)
    rwa [List.length_take, length_typeBytes] at hlt
  have hparse := Uuid.parse_toDigits (UInt32.ofNat (leNat ((typeBytes bytes).take 4)))
  rw [UInt32.toNat_ofNat_of_lt' hlt] at hparse
  unfold IsShort at h
  rw [typeUuid, if_pos h, hparse]
  rfl

theorem typeUuid_of_not_short (h : ¬ IsShort bytes) :
    typeUuid bytes = .ok ⟨String.ofList (dashed (typeBytes bytes).reverse)⟩ := by
  have hlength : (typeBytes bytes).reverse.length = 16 := by
    rw [List.length_reverse, length_typeBytes]
  unfold IsShort at h
  rw [typeUuid, if_neg h, parse_dashed hlength]
  rfl

end
end Thread
end HapRust
