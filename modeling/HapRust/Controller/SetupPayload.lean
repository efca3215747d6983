import HapRust.Lib.Numerals
import HapRust.Lib.Result

/-! The setup payload that a code on an accessory encodes: nine digits to the base 36, in which
the setup code, the flags and the category are packed, and a setup id behind them. -/

namespace HapRust.Controller
open Lib

structure SetupFlags where
  ip : Bool
  ble : Bool
  nfc : Bool
  deriving DecidableEq, Repr

structure SetupPayload where
  setupCode : String
  category : UInt16
  setupId : Option String
  flags : SetupFlags
  deriving DecidableEq, Repr

inductive PayloadFault where
  | invalidSetupPayload
  | panic
  deriving DecidableEq, Repr

namespace SetupPayload

def scheme : String := "X-HM://"

def categoryBits (full : Nat) : Nat :=
  let valueLow := full &&& 0xFFFFFFFF
  let valueHigh := full >>> 32
  ((valueHigh &&& 0x7F) <<< 1) ||| ((valueLow >>> 31) &&& 1)

def flagsNibble (full : Nat) : Nat := ((full &&& 0xFFFFFFFF) >>> 27) &&& 0xF

def setupCodeNum (full : Nat) : Nat := (full &&& 0xFFFFFFFF) &&& 0x7FFFFFF

def fromFull (full : Nat) (category : UInt16) (setupIdStr : List Char) : SetupPayload where
  setupCode := String.ofList ((Nat.toDigits 10 (setupCodeNum full)).leftpad 8 '0')
  category := category
  setupId := if setupIdStr = [] then none else some (String.ofList setupIdStr)
  flags :=
    { ip := flagsNibble full &&& 0b0010 != 0
      ble := flagsNibble full &&& 0b0100 != 0
      nfc := flagsNibble full &&& 0b1000 != 0 }

def u16TryFrom (n : Nat) : Option UInt16 := if n < 2 ^ 16 then some (UInt16.ofNat n) else none

def parse (uri : String) : Except PayloadFault SetupPayload := do
  let rest ← okOr (stripPrefix scheme uri) .invalidSetupPayload
  ensure (9 ≤ (asBytes rest).length) .invalidSetupPayload
  let (payloadStr, setupIdStr) ← okOr (splitAt 9 rest.toList) .panic
  let full ← okOr (fromStrRadix 64 36 (String.ofList payloadStr)) .invalidSetupPayload
  let category ← okOr (u16TryFrom (categoryBits full)) .invalidSetupPayload
  return fromFull full category setupIdStr

/-! ## The packed fields -/

theorem low_eq (full : Nat) : full &&& 0xFFFFFFFF = full % 2 ^ 32 :=
  Nat.and_two_pow_sub_one_eq_mod full 32

theorem setupCodeNum_eq (full : Nat) : setupCodeNum full = full % 2 ^ 27 := by
  have hmask : ∀ n : Nat, n &&& 0x7FFFFFF = n % 2 ^ 27 := fun n =>
    Nat.and_two_pow_sub_one_eq_mod n 27
  rw [setupCodeNum, low_eq, hmask]
  omega

theorem flagsNibble_eq (full : Nat) : flagsNibble full = full / 2 ^ 27 % 2 ^ 4 := by
  have hmask : ∀ n : Nat, n &&& 0xF = n % 2 ^ 4 := fun n => Nat.and_two_pow_sub_one_eq_mod n 4
  rw [flagsNibble, low_eq, Nat.shiftRight_eq_div_pow, hmask]
  omega

theorem categoryBits_eq (full : Nat) : categoryBits full = full / 2 ^ 31 % 2 ^ 8 := by
  have hhigh : ∀ n : Nat, n &&& 0x7F = n % 2 ^ 7 := fun n => Nat.and_two_pow_sub_one_eq_mod n 7
  have hbit : ∀ n : Nat, n &&& 1 = n % 2 := Nat.and_one_is_mod
  have hlow : full % 2 ^ 32 / 2 ^ 31 % 2 < 2 ^ 1 := Nat.mod_lt _ (by decide)
  rw [categoryBits, low_eq, Nat.shiftRight_eq_div_pow, Nat.shiftRight_eq_div_pow, hhigh, hbit,
    ← Nat.shiftLeft_add_eq_or_of_lt hlow, Nat.shiftLeft_eq]
  omega

theorem flags_eq {nibble : Nat} (h : nibble < 16) :
    (nibble &&& 0b0010 != 0) = nibble.testBit 1 ∧ (nibble &&& 0b0100 != 0) = nibble.testBit 2 ∧
      (nibble &&& 0b1000 != 0) = nibble.testBit 3 := by
  revert nibble
  decide

theorem u16TryFrom_categoryBits (full : Nat) :
    u16TryFrom (categoryBits full) = some (UInt16.ofNat (categoryBits full)) := by
  have hsmall : categoryBits full < 2 ^ 16 := by
    rw [categoryBits_eq]
    omega
  exact if_pos hsmall

/-! ## What is accepted -/

def decoded (full : Nat) (tail : List Char) : SetupPayload :=
  fromFull full (UInt16.ofNat (categoryBits full)) tail

section
variable {s : String} {front tail rest : List Char}

section
variable (h : s.toList = scheme.toList ++ rest)
include h

theorem parse_eq_split (hlong : 9 ≤ utf8Length rest) :
    parse s = (okOr (splitAt 9 rest) .panic).bind fun p =>
      (okOr (fromStrRadix 64 36 (String.ofList p.1)) .invalidSetupPayload).map fun full =>
        decoded full p.2 := by
  have hs : s = String.ofList (scheme.toList ++ rest) := by rw [← h, String.ofList_toList]
  have hbytes : 9 ≤ (asBytes (String.ofList rest)).length := by
    rwa [length_asBytes, String.toList_ofList]
  rw [parse, hs, stripPrefix_append, okOr_some, ok_bind, ensure_of hbytes, ok_bind,
    String.toList_ofList]
  cases splitAt 9 rest with
  | none => rfl
  | some p =>
    rw [okOr_some, ok_bind]
    dsimp only [Except.bind]
    cases fromStrRadix 64 36 (String.ofList p.1) with
    | none => rfl
    | some full =>
      rw [okOr_some, ok_bind, u16TryFrom_categoryBits, okOr_some, ok_bind]
      rfl

theorem parse_of_short (hshort : utf8Length rest < 9) : parse s = .error .invalidSetupPayload := by
  have hs : s = String.ofList (scheme.toList ++ rest) := by rw [← h, String.ofList_toList]
  have hbytes : ¬ 9 ≤ (asBytes (String.ofList rest)).length := by
    rw [length_asBytes, String.toList_ofList]
    omega
  rw [parse, hs, stripPrefix_append, okOr_some, ok_bind, ensure, if_neg hbytes]
  rfl

end

theorem parse_of_front (h : s.toList = scheme.toList ++ (front ++ tail))
    (hfront : utf8Length front = 9) :
    parse s = (okOr (fromStrRadix 64 36 (String.ofList front)) .invalidSetupPayload).map fun full =>
      decoded full tail := by
  have hlong : 9 ≤ utf8Length (front ++ tail) := by
    rw [utf8Length_append]
    omega
  rw [parse_eq_split h hlong, splitAt_eq_some.mpr ⟨rfl, hfront⟩]
  rfl

theorem parse_of_straddled (h : s.toList = scheme.toList ++ rest) (hlong : 9 ≤ utf8Length rest)
    (hnone : splitAt 9 rest = none) : parse s = .error .panic := by
  rw [parse_eq_split h hlong, hnone]
  rfl

theorem parse_error_of_not_scheme (h : ∀ rest, s.toList ≠ scheme.toList ++ rest) :
    parse s = .error .invalidSetupPayload := by
  have hstrip : stripPrefix scheme s = none := by
    cases hstrip : stripPrefix scheme s with
    | none => rfl
    | some rest => exact absurd (stripPrefix_eq_some hstrip) (h rest.toList)
  rw [parse, hstrip]
  rfl

theorem parse_cases (s : String) :
    parse s = .error .invalidSetupPayload ∧
        (∀ front tail, s.toList = scheme.toList ++ (front ++ tail) → utf8Length front ≠ 9) ∨
      (∃ rest, s.toList = scheme.toList ++ rest ∧ 9 ≤ utf8Length rest ∧ splitAt 9 rest = none) ∨
      ∃ front tail, s.toList = scheme.toList ++ (front ++ tail) ∧ utf8Length front = 9 := by
  by_cases hscheme : ∃ rest, s.toList = scheme.toList ++ rest
  · obtain ⟨rest, h⟩ := hscheme
    by_cases hlong : 9 ≤ utf8Length rest
    · cases hsplit : splitAt 9 rest with
      | none => exact .inr (.inl ⟨rest, h, hlong, hsplit⟩)
      | some p =>
        obtain ⟨rfl, hfront⟩ := splitAt_eq_some.mp hsplit
        exact .inr (.inr ⟨p.1, p.2, h, hfront⟩)
    · refine .inl ⟨parse_of_short h (by omega), fun front tail h' hfront => ?_⟩
      rw [List.append_cancel_left (h.symm.trans h'), utf8Length_append] at hlong
      omega
  · have hnone : ∀ rest, s.toList ≠ scheme.toList ++ rest := fun rest h => hscheme ⟨rest, h⟩
    exact .inl ⟨parse_error_of_not_scheme hnone, fun front tail h _ => hnone _ h⟩

end

/-! ## Rendered payloads -/

theorem numeral_of_rendered {digits : List Char} {n : Nat} (hn : n < 36 ^ 9)
    (h : digits.map asciiLower = radixDigits 36 9 n) : digits.length = 9 ∧ Numeral 36 digits n := by
  have hlength : digits.length = 9 := by
    have hmap := congrArg List.length h
    rwa [List.length_map, length_radixDigits] at hmap
  have hvalue : digitsValue 36 digits = some n := by
    rw [← digitsValue_map_asciiLower (by decide), h, digitsValue_radixDigits (by decide) hn]
  exact ⟨hlength, List.ne_nil_of_length_eq_add_one hlength, hvalue⟩

/-- The fields of a payload in their places; what is above bit 38 is reserved. -/
def packed (code nibble category reserved : Nat) : Nat :=
  code + nibble * 2 ^ 27 + category * 2 ^ 31 + reserved * 2 ^ 39

theorem decoded_packed {code nibble category reserved : Nat} (hcode : code < 100000000)
    (hnibble : nibble < 16) (hcategory : category < 256) (tail : List Char) :
    decoded (packed code nibble category reserved) tail =
      { setupCode := String.ofList (fixedDigits 10 8 code)
        category := UInt16.ofNat category
        setupId := if tail = [] then none else some (String.ofList tail)
        flags := ⟨nibble.testBit 1, nibble.testBit 2, nibble.testBit 3⟩ } := by
  have hnum : setupCodeNum (packed code nibble category reserved) = code := by
    rw [setupCodeNum_eq, packed]
    omega
  have hflags : flagsNibble (packed code nibble category reserved) = nibble := by
    rw [flagsNibble_eq, packed]
    omega
  have hbits : categoryBits (packed code nibble category reserved) = category := by
    rw [categoryBits_eq, packed]
    omega
  have hdigits : (Nat.toDigits 10 code).leftpad 8 '0' = fixedDigits 10 8 code :=
    leftpad_toDigits (by decide) (show code < 10 ^ (7 + 1) from hcode)
  obtain ⟨hip, hble, hnfc⟩ := flags_eq hnibble
  rw [decoded, fromFull, hnum, hflags, hbits, hdigits, hip, hble, hnfc]

/-- Every payload that can be rendered is read back, whatever the reserved bits and the case of
the digits. -/
theorem parse_rendered {code nibble category reserved : Nat} {digits : List Char}
    {setupId : Option String} (hcode : code < 100000000) (hnibble : nibble < 16)
    (hcategory : category < 256) (hpacked : packed code nibble category reserved < 36 ^ 9)
    (hdigits : digits.map asciiLower = radixDigits 36 9 (packed code nibble category reserved))
    (hid : ∀ id, setupId = some id → id.toList.length = 4) :
    parse (String.ofList (scheme.toList ++ (digits ++ (setupId.getD "").toList))) =
      .ok { setupCode := String.ofList (fixedDigits 10 8 code)
            category := UInt16.ofNat category
            setupId := setupId
            flags := ⟨nibble.testBit 1, nibble.testBit 2, nibble.testBit 3⟩ } := by
  obtain ⟨hlength, hnumeral⟩ := numeral_of_rendered hpacked hdigits
  have hfront : utf8Length digits = 9 := by rw [hnumeral.utf8Length_eq, hlength]
  have hfull : fromStrRadix 64 36 (String.ofList digits) =
      some (packed code nibble category reserved) :=
    hnumeral.fromStrRadix (Nat.lt_trans hpacked (by decide))
  have htail : (if (setupId.getD "").toList = [] then none
      else some (String.ofList (setupId.getD "").toList)) = setupId := by
    cases setupId with
    | none => rfl
    | some id =>
      have hne : id.toList ≠ [] := List.ne_nil_of_length_eq_add_one (hid id rfl)
      rw [Option.getD_some, if_neg hne, String.ofList_toList]
  rw [parse_of_front String.toList_ofList hfront, hfull, okOr_some]
  change Except.ok (decoded _ _) = _
  rw [decoded_packed hcode hnibble hcategory, htail]

theorem parse_rendered_bridge :
    parse "X-HM://0024BRZUU7OSX" = .ok
      { setupCode := "51808582", category := 2, setupId := some "7OSX",
        flags := ⟨true, false, false⟩ } :=
  @parse_rendered 51808582 2 2 0 "0024BRZUU".toList (some "7OSX") (by decide) (by decide)
    (by decide) (by decide) (by decide) (by intro id h; cases h; rfl)

/-! ## Every text -/

/-- Nine digits with a setup code in them, and nothing or four characters behind them. -/
def WellFormed (s : String) : Prop :=
  ∃ digits tail n, s.toList = scheme.toList ++ (digits ++ tail) ∧ digits.length = 9 ∧
    Numeral 36 digits n ∧ n % 2 ^ 27 < 100000000 ∧ (tail = [] ∨ tail.length = 4)

def EightDigits (code : String) : Prop :=
  code.toList.length = 8 ∧ ∀ c ∈ code.toList, c.isDigit = true

/-- No character lies across the ninth byte behind the scheme, and if nine bytes there are read
as a number, then without a sign, with room for the code, and with an id or nothing behind. -/
structure Regular (s : String) : Prop where
  boundary : ∀ rest, s.toList = scheme.toList ++ rest → 9 ≤ utf8Length rest →
    ∃ front tail, rest = front ++ tail ∧ utf8Length front = 9
  plain : ∀ front tail full, s.toList = scheme.toList ++ (front ++ tail) → utf8Length front = 9 →
    fromStrRadix 64 36 (String.ofList front) = some full →
    front.head? ≠ some '+' ∧ full % 2 ^ 27 < 100000000 ∧ (tail = [] ∨ tail.length = 4)

section
variable {s : String} {front tail : List Char} {full : Nat}

theorem eightDigits_decoded (h : full % 2 ^ 27 < 100000000) :
    EightDigits (decoded full tail).setupCode := by
  have hdigits : (decoded full tail).setupCode = String.ofList (fixedDigits 10 8 (full % 2 ^ 27)) := by
    rw [decoded, fromFull, setupCodeNum_eq]
    exact congrArg String.ofList
      (leftpad_toDigits (by decide) (show full % 2 ^ 27 < 10 ^ (7 + 1) from h))
  rw [EightDigits, hdigits, String.toList_ofList]
  refine ⟨length_fixedDigits 8 _, fun c hc => ?_⟩
  obtain ⟨m, hm, rfl⟩ := mem_fixedDigits (by decide) hc
  have hall : ∀ k < 10, (Nat.digitChar k).isDigit = true := by decide
  exact hall m hm

theorem front_unique {front' tail' : List Char} (h : front ++ tail = front' ++ tail')
    (hlength : utf8Length front = utf8Length front') : front = front' ∧ tail = tail' := by
  have hsplit := splitAt_append front tail
  rw [h, hlength, splitAt_append] at hsplit
  obtain ⟨hfront, htail⟩ := Prod.mk.inj (Option.some.inj hsplit)
  exact ⟨hfront.symm, htail.symm⟩

theorem numeral_of_no_plus (hfull : fromStrRadix 64 36 (String.ofList front) = some full)
    (hplus : front.head? ≠ some '+') : Numeral 36 front full := by
  rcases numeral_of_fromStrRadix hfull with hnumeral | ⟨digits, rfl, -⟩
  · exact hnumeral
  · exact absurd rfl hplus

theorem no_plus_of_numeral {n : Nat} (h : Numeral 36 front n) : front.head? ≠ some '+' := by
  intro hplus
  have hdigit := toDigit_of_mem h.value '+' (List.mem_of_head? hplus)
  revert hdigit
  decide

theorem parse_of_wellFormed (h : WellFormed s) : ∃ p, parse s = .ok p := by
  obtain ⟨digits, tail, n, hs, hlength, hnumeral, -, -⟩ := h
  have hfront : utf8Length digits = 9 := by rw [hnumeral.utf8Length_eq, hlength]
  have hlt : n < 2 ^ 64 := by
    have hlt := digitsValue_lt hnumeral.value
    rw [hlength] at hlt
    exact Nat.lt_trans hlt (by decide)
  rw [parse_of_front hs hfront, hnumeral.fromStrRadix hlt]
  exact ⟨_, rfl⟩

theorem parse_eq_decoded (hs : s.toList = scheme.toList ++ (front ++ tail))
    (hfront : utf8Length front = 9)
    (hfull : fromStrRadix 64 36 (String.ofList front) = some full) :
    parse s = .ok (decoded full tail) := by
  rw [parse_of_front hs hfront, hfull]
  rfl

theorem of_parse_ok {p : SetupPayload} (h : parse s = .ok p) :
    ∃ front tail full, s.toList = scheme.toList ++ (front ++ tail) ∧ utf8Length front = 9 ∧
      fromStrRadix 64 36 (String.ofList front) = some full ∧ p = decoded full tail := by
  rcases parse_cases s with ⟨herr, -⟩ | ⟨rest, hs, hlong, hnone⟩ | ⟨front, tail, hs, hfront⟩
  · cases h.symm.trans herr
  · cases h.symm.trans (parse_of_straddled hs hlong hnone)
  · cases hfull : fromStrRadix 64 36 (String.ofList front) with
    | none =>
      rw [parse_of_front hs hfront, hfull] at h
      cases h
    | some full =>
      exact ⟨front, tail, full, hs, hfront, hfull,
        Except.ok.inj (h.symm.trans (parse_eq_decoded hs hfront hfull))⟩

end

/-- The parser keeps what its description promises on exactly the regular texts. -/
theorem parse_exact_iff (s : String) :
    (parse s ≠ .error .panic ∧ ((∃ p, parse s = .ok p) ↔ WellFormed s) ∧
      ∀ p, parse s = .ok p → EightDigits p.setupCode) ↔ Regular s := by
  constructor
  · rintro ⟨hpanic, haccepts, -⟩
    constructor
    · intro rest hs hlong
      cases hsplit : splitAt 9 rest with
      | none => exact absurd (parse_of_straddled hs hlong hsplit) hpanic
      | some p => exact ⟨p.1, p.2, splitAt_eq_some.mp hsplit⟩
    · intro front tail full hs hfront hfull
      obtain ⟨digits, tail', n, hs', hlength, hnumeral, hcode, htail⟩ :=
        haccepts.mp ⟨_, parse_eq_decoded hs hfront hfull⟩
      have hsame : utf8Length front = utf8Length digits := by
        rw [hfront, hnumeral.utf8Length_eq, hlength]
      obtain ⟨rfl, rfl⟩ := front_unique (List.append_cancel_left (hs.symm.trans hs')) hsame
      have hplus := no_plus_of_numeral hnumeral
      have hvalue := (numeral_of_no_plus hfull hplus).value.symm.trans hnumeral.value
      rw [Option.some.inj hvalue]
      exact ⟨hplus, hcode, htail⟩
  · intro hregular
    refine ⟨?_, ⟨?_, parse_of_wellFormed⟩, ?_⟩
    · intro hpanic
      rcases parse_cases s with ⟨herr, -⟩ | ⟨rest, hs, hlong, hnone⟩ | ⟨front, tail, hs, hfront⟩
      · cases hpanic.symm.trans herr
      · obtain ⟨front, tail, rfl, hfront⟩ := hregular.boundary rest hs hlong
        cases hnone.symm.trans (splitAt_eq_some.mpr ⟨rfl, hfront⟩)
      · rw [parse_of_front hs hfront] at hpanic
        cases hfull : fromStrRadix 64 36 (String.ofList front) with
        | none =>
          rw [hfull] at hpanic
          cases hpanic
        | some full =>
          rw [hfull] at hpanic
          cases hpanic
    · rintro ⟨p, hp⟩
      obtain ⟨front, tail, full, hs, hfront, hfull, -⟩ := of_parse_ok hp
      obtain ⟨hplus, hcode, htail⟩ := hregular.plain front tail full hs hfront hfull
      have hnumeral := numeral_of_no_plus hfull hplus
      exact ⟨front, tail, full, hs, (hnumeral.utf8Length_eq).symm.trans hfront, hnumeral, hcode,
        htail⟩
    · intro p hp
      obtain ⟨front, tail, full, hs, hfront, hfull, rfl⟩ := of_parse_ok hp
      exact eightDigits_decoded (hregular.plain front tail full hs hfront hfull).2.1

/-- A text on which the parser panics, and three that it accepts against its description: with a
sign, with a code of nine digits, and with a character in the place of an id. -/
theorem parse_irregular :
    parse "X-HM://12345678é" = .error .panic ∧
      parse "X-HM://+00000001" = .ok
        { setupCode := "00000001", category := 0, setupId := none, flags := ⟨false, false, false⟩ } ∧
      parse "X-HM://0001NJCHS" = .ok
        { setupCode := "100000000", category := 0, setupId := none, flags := ⟨false, false, false⟩ } ∧
      parse "X-HM://0024BRZUU7" = .ok
        { setupCode := "51808582", category := 2, setupId := some "7",
          flags := ⟨true, false, false⟩ } := by
  decide +kernel

end SetupPayload
end HapRust.Controller
