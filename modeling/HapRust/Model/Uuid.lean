import HapRust.Lib.TextRoundTrip
import HapRust.Model.Format

/-! Type UUIDs. A type that HAP defines is written as up to eight hex digits in front of a
suffix that all of them share; any other type is written out. -/

namespace HapRust
open Lib

def Model.escapeDebug (c : Char) : String :=
  match c.toNat with
  | 0 => "\\0"
  | 9 => "\\t"
  | 10 => "\\n"
  | 13 => "\\r"
  | 34 => "\\\""
  | 92 => "\\\\"
  | n =>
    if n < 0x20 ∨ n = 0x7F then "\\u\x7b" ++ String.ofList (Nat.toDigits 16 n) ++ "\x7d"
    else c.toString

def Model.ModelError.display : Model.ModelError → String
  | json e => "invalid /accessories or /characteristics JSON: " ++ e
  | malformedUuid s =>
    "malformed type UUID \"" ++ String.join (s.toList.map escapeDebug) ++ "\""
  | valueType format detail => "value type mismatch for format " ++ format ++ ": " ++ detail
  | valueRange format value => "value " ++ value ++ " out of range for format " ++ format
  | base64 e => "invalid base64 in tlv8/data value: " ++ e
  | characteristicStatus aid iid status =>
    "characteristic " ++ toString aid ++ "." ++ toString iid ++ " returned HAP status " ++
      toString status

namespace Model

structure Uuid where
  full : String
  deriving DecidableEq, Repr

def hapBaseSuffix : String := "-0000-1000-8000-0026BB765291"

def isAsciiHexdigit (c : Char) : Bool := (toDigit 16 c).isSome

namespace Uuid

def parse (s : String) : Except ModelError Uuid :=
  let t := trim s
  if (asBytes t).length = 36 ∧ (asBytes t)[8]? = some 0x2D then
    if t.toList.all fun c => isAsciiHexdigit c || c == '-' then .ok ⟨toAsciiLowercase t⟩
    else .error (.malformedUuid s)
  else if (1 ≤ (asBytes t).length ∧ (asBytes t).length ≤ 8) ∧ t.toList.all isAsciiHexdigit then
    let padded := String.ofList ((toAsciiLowercase t).toList.leftpad 8 '0')
    .ok ⟨toAsciiLowercase (padded ++ hapBaseSuffix)⟩
  else .error (.malformedUuid s)

def hapBase (n : UInt32) : Uuid :=
  ⟨String.ofList (fixedDigits 16 8 n.toNat ++ (toAsciiLowercase hapBaseSuffix).toList)⟩

/-! ## Canonical texts -/

def Canonical (c : Char) : Prop := (isAsciiHexdigit c = true ∨ c = '-') ∧ asciiLower c = c

theorem canonical_digitChar {n : Nat} (hn : n < 16) :
    isAsciiHexdigit (Nat.digitChar n) = true ∧ asciiLower (Nat.digitChar n) = Nat.digitChar n := by
  have hall : ∀ m < 16, isAsciiHexdigit (Nat.digitChar m) = true ∧
      asciiLower (Nat.digitChar m) = Nat.digitChar m := by decide
  exact hall n hn

theorem canonical_fixedDigits {w n : Nat} {c : Char} (hc : c ∈ fixedDigits 16 w n) :
    Canonical c := by
  obtain ⟨m, hm, rfl⟩ := mem_fixedDigits (by decide) hc
  obtain ⟨hdigit, hlower⟩ := canonical_digitChar hm
  exact ⟨Or.inl hdigit, hlower⟩

theorem canonical_dash : Canonical '-' := ⟨Or.inr rfl, by decide⟩

theorem Canonical.ascii {c : Char} (h : Canonical c) : c.toNat < 128 := by
  rcases h.1 with hdigit | rfl
  · exact ascii_of_toDigit hdigit
  · decide

theorem isWhitespace_of_hexdigit {c : Char} (h : isAsciiHexdigit c = true) : isWhitespace c = false := by
  by_contra hspace
  have hnone : toDigit 16 c = none := isWhitespace_not_digit (by simpa using hspace)
  rw [isAsciiHexdigit, hnone] at h
  cases h

theorem Canonical.not_whitespace {c : Char} (h : Canonical c) : isWhitespace c = false := by
  rcases h.1 with hdigit | rfl
  · exact isWhitespace_of_hexdigit hdigit
  · decide

section
variable {cs : List Char} (h : ∀ c ∈ cs, Canonical c)
include h

theorem asBytes_canonical : asBytes (String.ofList cs) = cs.map fun c => UInt8.ofNat c.toNat :=
  asBytes_ascii fun c hc => (h c hc).ascii

theorem trim_canonical : trim (String.ofList cs) = String.ofList cs :=
  trim_of_no_whitespace fun c hc => (h c hc).not_whitespace

theorem map_asciiLower_canonical : cs.map asciiLower = cs := by
  conv_rhs => rw [← List.map_id cs]
  exact List.map_congr_left fun c hc => (h c hc).2

theorem toAsciiLowercase_canonical : toAsciiLowercase (String.ofList cs) = String.ofList cs := by
  rw [toAsciiLowercase, String.toList_ofList, map_asciiLower_canonical h]

theorem parse_full (hlength : cs.length = 36) (hdash : cs[8]? = some '-') :
    parse (String.ofList cs) = .ok ⟨String.ofList cs⟩ := by
  have hall : (cs.all fun c => isAsciiHexdigit c || c == '-') = true := by
    rw [List.all_eq_true]
    intro c hc
    simpa using (h c hc).1
  rw [parse, trim_canonical h, asBytes_canonical h, List.length_map, List.getElem?_map, hdash,
    String.toList_ofList, toAsciiLowercase_canonical h]
  simp only [hlength, hall]
  rfl

end

theorem parse_toDigits (n : UInt32) :
    parse (String.ofList (Nat.toDigits 16 n.toNat)) = .ok (hapBase n) := by
  have hn : n.toNat < 16 ^ (7 + 1) := n.toNat_lt
  have hnumeral : Numeral 16 (Nat.toDigits 16 n.toNat) n.toNat :=
    numeral_toDigits (by decide) (by decide) n.toNat
  have hpad : (Nat.toDigits 16 n.toNat).leftpad 8 '0' = fixedDigits 16 8 n.toNat :=
    leftpad_toDigits (by decide) hn
  have hmem : ∀ c ∈ Nat.toDigits 16 n.toNat, c ∈ fixedDigits 16 8 n.toNat := by
    intro c hc
    rw [← hpad, List.leftpad]
    exact List.mem_append_right _ hc
  have hcanonical : ∀ c ∈ Nat.toDigits 16 n.toNat, Canonical c :=
    fun c hc => canonical_fixedDigits (hmem c hc)
  have hdigits : (Nat.toDigits 16 n.toNat).all isAsciiHexdigit = true := by
    rw [List.all_eq_true]
    intro c hc
    obtain ⟨m, hm, rfl⟩ := mem_fixedDigits (by decide) (hmem c hc)
    exact (canonical_digitChar hm).1
  have hlow : 1 ≤ (Nat.toDigits 16 n.toNat).length := List.length_pos_of_ne_nil hnumeral.1
  have hhigh : (Nat.toDigits 16 n.toNat).length ≤ 8 := length_toDigits_le (by decide) hn
  have hlower : toAsciiLowercase (String.ofList (fixedDigits 16 8 n.toNat) ++ hapBaseSuffix) =
      (hapBase n).full := by
    rw [toAsciiLowercase, String.toList_append, String.toList_ofList, List.map_append,
      map_asciiLower_canonical fun c hc => canonical_fixedDigits hc, hapBase, toAsciiLowercase,
      String.toList_ofList]
  rw [parse, trim_canonical hcanonical, asBytes_canonical hcanonical, List.length_map,
    String.toList_ofList, toAsciiLowercase_canonical hcanonical, String.toList_ofList, hpad]
  dsimp only
  rw [if_neg (by omega), if_pos ⟨⟨hlow, hhigh⟩, hdigits⟩, hlower]

end Uuid
end Model
end HapRust
