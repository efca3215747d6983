import HapRust.Lib.Bytes
import Mathlib.Data.List.DropRight

/-! Text as the Rust standard library treats it: strict and lossy UTF-8,
trimming, ASCII case, and unsigned integers. -/

namespace HapRust.Lib

def asBytes (s : String) : Bytes := s.toUTF8.data.toList

def fromUtf8 (b : Bytes) : Option String := String.fromUTF8? ⟨b.toArray⟩

theorem fromUtf8_eq_some {b : Bytes} {s : String} : fromUtf8 b = some s ↔ b = asBytes s := by
  unfold fromUtf8 asBytes String.fromUTF8?
  split_ifs with h
  · rw [Option.some.injEq]
    constructor
    · rintro rfl
      rfl
    · rintro rfl
      rfl
  · simp only [false_iff]
    rintro rfl
    exact h s.isValidUTF8

@[simp] theorem fromUtf8_asBytes (s : String) : fromUtf8 (asBytes s) = some s :=
  fromUtf8_eq_some.mpr rfl

theorem asBytes_ofList (cs : List Char) :
    asBytes (String.ofList cs) = cs.flatMap String.utf8EncodeChar := by
  simp [asBytes, String.toUTF8, List.utf8Encode]

def replacementCharacter : Char := Char.ofNat 0xFFFD

def utf8CharWidth (b : UInt8) : Nat :=
  if b < 0x80 then 1
  else if 0xC2 ≤ b ∧ b ≤ 0xDF then 2
  else if 0xE0 ≤ b ∧ b ≤ 0xEF then 3
  else if 0xF0 ≤ b ∧ b ≤ 0xF4 then 4
  else 0

def isContinuation (b : UInt8) : Bool := 0x80 ≤ b && b ≤ 0xBF

def isSecondByte (first second : UInt8) : Bool :=
  if first = 0xE0 then 0xA0 ≤ second && second ≤ 0xBF
  else if first = 0xED then 0x80 ≤ second && second ≤ 0x9F
  else if first = 0xF0 then 0x90 ≤ second && second ≤ 0xBF
  else if first = 0xF4 then 0x80 ≤ second && second ≤ 0x8F
  else isContinuation second

def lossyStep (b : UInt8) (t : Bytes) : Char × Bytes :=
  let low (c : UInt8) := c.toNat % 64
  match utf8CharWidth b, t with
  | 1, t => (Char.ofNat b.toNat, t)
  | 2, c₁ :: t₁ =>
    if isContinuation c₁ then (Char.ofNat (b.toNat % 32 * 64 + low c₁), t₁)
    else (replacementCharacter, c₁ :: t₁)
  | 3, c₁ :: t₁ =>
    if isSecondByte b c₁ then
      match t₁ with
      | c₂ :: t₂ =>
        if isContinuation c₂ then (Char.ofNat ((b.toNat % 16 * 64 + low c₁) * 64 + low c₂), t₂)
        else (replacementCharacter, t₁)
      | [] => (replacementCharacter, [])
    else (replacementCharacter, c₁ :: t₁)
  | 4, c₁ :: t₁ =>
    if isSecondByte b c₁ then
      match t₁ with
      | c₂ :: t₂ =>
        if isContinuation c₂ then
          match t₂ with
          | c₃ :: t₃ =>
            if isContinuation c₃ then
              (Char.ofNat (((b.toNat % 8 * 64 + low c₁) * 64 + low c₂) * 64 + low c₃), t₃)
            else (replacementCharacter, t₂)
          | [] => (replacementCharacter, [])
        else (replacementCharacter, t₁)
      | [] => (replacementCharacter, [])
    else (replacementCharacter, c₁ :: t₁)
  | _, t => (replacementCharacter, t)

def lossyChars : Nat → Bytes → List Char
  | 0, _ => []
  | _ + 1, [] => []
  | n + 1, b :: t => (lossyStep b t).1 :: lossyChars n (lossyStep b t).2

def fromUtf8Lossy (b : Bytes) : String := String.ofList (lossyChars b.length b)

def isWhitespace (c : Char) : Bool :=
  (0x09 ≤ c.toNat && c.toNat ≤ 0x0D) || c.toNat = 0x20 || c.toNat = 0x85 || c.toNat = 0xA0 ||
    c.toNat = 0x1680 || (0x2000 ≤ c.toNat && c.toNat ≤ 0x200A) || c.toNat = 0x2028 ||
    c.toNat = 0x2029 || c.toNat = 0x202F || c.toNat = 0x205F || c.toNat = 0x3000

def trim (s : String) : String :=
  String.ofList ((s.toList.dropWhile isWhitespace).rdropWhile isWhitespace)

def asciiLower (c : Char) : Char := if 'A' ≤ c ∧ c ≤ 'Z' then Char.ofNat (c.toNat + 32) else c

def toAsciiLowercase (s : String) : String := String.ofList (s.toList.map asciiLower)

def eqIgnoreAsciiCase (s t : String) : Bool := toAsciiLowercase s == toAsciiLowercase t

def toDigit (radix : Nat) (c : Char) : Option Nat :=
  let d :=
    if '0' ≤ c ∧ c ≤ '9' then c.toNat - '0'.toNat
    else if 'a' ≤ c ∧ c ≤ 'z' then c.toNat - 'a'.toNat + 10
    else if 'A' ≤ c ∧ c ≤ 'Z' then c.toNat - 'A'.toNat + 10
    else radix
  if d < radix then some d else none

def digitsValue (radix : Nat) (digits : List Char) : Option Nat :=
  digits.foldlM (fun n c => (toDigit radix c).map (n * radix + ·)) 0

def stripPlus : List Char → List Char
  | '+' :: digits => digits
  | digits => digits

def fromStrRadix (bits radix : Nat) (s : String) : Option Nat :=
  if stripPlus s.toList = [] then none
  else (digitsValue radix (stripPlus s.toList)).filter (· < 2 ^ bits)

theorem fromStrRadix_lt {bits radix : Nat} {s : String} {n : Nat}
    (h : fromStrRadix bits radix s = some n) : n < 2 ^ bits := by
  unfold fromStrRadix at h
  split_ifs at h
  exact of_decide_eq_true (Option.filter_eq_some_iff.mp h).2

end HapRust.Lib
