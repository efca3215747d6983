import HapRust.Lib.Result
import HapRust.Tlv8.Writer

/-! The TLV8 decoder and the typed lookups over its items. -/

namespace HapRust.Tlv8
open Lib

inductive Tlv8Error where
  | unexpectedEof
  | integerTooLarge (requested actual : Nat)
  deriving DecidableEq, Repr

abbrev Item := UInt8 × Bytes

namespace Tlv8Reader

structure State where
  items : List Item
  openRun : Option (UInt8 × Bool)

def takeValue : Bytes → Except Tlv8Error (Bytes × Bytes)
  | [] => .error .unexpectedEof
  | len :: tail =>
    if tail.length < len.toNat then .error .unexpectedEof
    else .ok (tail.take len.toNat, tail.drop len.toNat)

def extendLast (value : Bytes) : List Item → List Item
  | [] => []
  | [(ty, v)] => [(ty, v ++ value)]
  | i :: j :: items => i :: extendLast value (j :: items)

def absorb (s : State) (ty : UInt8) (value : Bytes) : State :=
  if ty = separator then ⟨s.items ++ [(ty, value)], none⟩
  else
    let continues := s.openRun = some (ty, true)
    ⟨if continues then extendLast value s.items else s.items ++ [(ty, value)],
      some (ty, value.length = 255)⟩

def parseLoop : Nat → Bytes → State → Except Tlv8Error (List Item)
  | _, [], s => .ok s.items
  | 0, _ :: _, s => .ok s.items
  | fuel + 1, ty :: tail, s => do
    let (value, rest) ← takeValue tail
    parseLoop fuel rest (absorb s ty value)

def parseFrom (bytes : Bytes) (s : State) : Except Tlv8Error (List Item) :=
  parseLoop bytes.length bytes s

def parse (bytes : Bytes) : Except Tlv8Error (List Item) := parseFrom bytes ⟨[], none⟩

theorem takeValue_length {tail value rest : Bytes} (h : takeValue tail = .ok (value, rest)) :
    rest.length < tail.length := by
  cases tail with
  | nil => simp [takeValue] at h
  | cons len tail =>
    simp only [takeValue] at h
    split_ifs at h
    simp only [Except.ok.injEq, Prod.mk.injEq] at h
    simp only [← h.2, List.length_drop, List.length_cons]
    omega

theorem takeValue_append {value : Bytes} (rest : Bytes) (h : value.length ≤ 255) :
    takeValue (UInt8.ofNat value.length :: (value ++ rest)) = .ok (value, rest) := by
  have hn : (UInt8.ofNat value.length).toNat = value.length := by
    rw [UInt8.toNat_ofNat']
    exact Nat.mod_eq_of_lt (by omega)
  simp [takeValue, hn]

theorem parseLoop_fuel : ∀ (f g : Nat) (bytes : Bytes) (s : State), bytes.length ≤ f →
    bytes.length ≤ g → parseLoop f bytes s = parseLoop g bytes s := by
  intro f
  induction f with
  | zero =>
    intro g bytes s hf _
    obtain rfl : bytes = [] := List.eq_nil_of_length_eq_zero (by omega)
    cases g <;> rfl
  | succ f ih =>
    intro g bytes s hf hg
    cases bytes with
    | nil => cases g <;> rfl
    | cons ty tail =>
      cases g with
      | zero => simp at hg
      | succ g =>
        simp only [List.length_cons] at hf hg
        simp only [parseLoop]
        cases ht : takeValue tail with
        | error e => rfl
        | ok p =>
          obtain ⟨value, rest⟩ := p
          have hlt : rest.length < tail.length := takeValue_length ht
          exact ih g rest _ (by omega) (by omega)

theorem parseFrom_fragment (ty : UInt8) {value : Bytes} (rest : Bytes) (s : State)
    (h : value.length ≤ 255) :
    parseFrom (Tlv8Writer.fragment ty value ++ rest) s = parseFrom rest (absorb s ty value) := by
  unfold parseFrom Tlv8Writer.fragment
  simp only [List.cons_append, List.length_cons, parseLoop, takeValue_append rest h, ok_bind]
  exact parseLoop_fuel _ _ _ _ (by simp only [List.length_append]; omega) (le_refl _)

@[simp] theorem extendLast_concat (value : Bytes) (items : List Item) (ty : UInt8) (v : Bytes) :
    extendLast value (items ++ [(ty, v)]) = items ++ [(ty, v ++ value)] := by
  induction items with
  | nil => rfl
  | cons i items ih =>
    cases items with
    | nil => rfl
    | cons j items => simpa only [List.cons_append, extendLast, List.cons.injEq, true_and] using ih

end Tlv8Reader

/-! ## Lookups -/

structure Tlv8Map where
  items : List Item
  deriving DecidableEq, Repr

namespace Tlv8Map

def parse (bytes : Bytes) : Except Tlv8Error Tlv8Map := do
  let items ← Tlv8Reader.parse bytes
  return ⟨items⟩

def get (m : Tlv8Map) (ty : UInt8) : Option Bytes := (m.items.find? (·.1 == ty)).map (·.2)

def getUint (m : Tlv8Map) (ty : UInt8) (width : Nat) : Except Tlv8Error (Option Nat) :=
  match m.get ty with
  | none => .ok none
  | some bytes =>
    if width < bytes.length then .error (.integerTooLarge width bytes.length)
    else .ok (some (leNat bytes))

def getU8 (m : Tlv8Map) (ty : UInt8) : Except Tlv8Error (Option UInt8) := do
  let v ← m.getUint ty 1
  return v.map UInt8.ofNat

def getU16 (m : Tlv8Map) (ty : UInt8) : Except Tlv8Error (Option UInt16) := do
  let v ← m.getUint ty 2
  return v.map UInt16.ofNat

theorem parse_eq_ok {bytes : Bytes} {items : List Item} (h : Tlv8Reader.parse bytes = .ok items) :
    parse bytes = .ok ⟨items⟩ := by
  simp only [parse, h, ok_bind]
  rfl

theorem getU8_of_get {m : Tlv8Map} {ty n : UInt8} (h : m.get ty = some [n]) :
    m.getU8 ty = .ok (some n) := by
  have hn : UInt8.ofNat (leNat [n]) = n := by
    simp only [leNat, Nat.mul_zero, Nat.add_zero, UInt8.ofNat_toNat]
  simp only [getU8, getUint, h, List.length_singleton, lt_irrefl, if_false, ok_bind,
    Option.map_some, hn]
  rfl

theorem getU16_of_get {m : Tlv8Map} {ty : UInt8} {n : UInt16}
    (h : m.get ty = some (leBytes 2 n.toNat)) : m.getU16 ty = .ok (some n) := by
  have hn : UInt16.ofNat (leNat (leBytes 2 n.toNat)) = n := by
    rw [leNat_leBytes, Nat.mod_eq_of_lt (show n.toNat < 256 ^ 2 from n.toNat_lt), UInt16.ofNat_toNat]
  simp only [getU16, getUint, h, leBytes_length, lt_irrefl, if_false, ok_bind, Option.map_some, hn]
  rfl

end Tlv8Map
end HapRust.Tlv8
