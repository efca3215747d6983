import HapRust.Lib.Numerals
import HapRust.Lib.Separated
import HapRust.Pairing.Records

/-! Device identifiers as text. Two crates have a parser and a formatter each; the parsers
read six groups between colons, and leave the digits of a group to the integer parser, which
also takes a plus sign. -/

namespace HapRust
open Lib

namespace Ble.DeviceIds
open Pairing (hexPair parseByte)

def readSlots : Nat → List (List Char) → Option (Bytes × List (List Char))
  | 0, parts => some ([], parts)
  | _ + 1, [] => none
  | n + 1, p :: parts => do
    let slot ← parseByte p
    let (out, rest) ← readSlots n parts
    return (slot :: out, rest)

def parseDeviceId (s : String) : Option (Arr 6) := do
  let (out, rest) ← readSlots 6 (s.toList.splitOn ':')
  if rest = [] then tryIntoArr 6 out else none

def formatDeviceId (id : Arr 6) : String :=
  String.ofList (id.val.foldl (fun s b => (if s = [] then s else s ++ [':']) ++ hexPair b) [])

theorem readSlots_eq (n : Nat) (parts : List (List Char)) :
    readSlots n parts =
      if n ≤ parts.length then ((parts.take n).mapM parseByte).map (·, parts.drop n) else none := by
  induction n generalizing parts with
  | zero => rfl
  | succ n ih =>
    cases parts with
    | nil => rfl
    | cons p parts =>
      rw [readSlots, ih, List.take_succ_cons, List.drop_succ_cons, List.mapM_cons, List.length_cons]
      simp only [Nat.add_le_add_iff_right]
      cases parseByte p with
      | none => split_ifs <;> rfl
      | some slot =>
        split_ifs
        · cases (parts.take n).mapM parseByte <;> rfl
        · rfl

theorem parseDeviceId_eq (s : String) : parseDeviceId s = Pairing.parseDeviceId s := by
  rw [parseDeviceId, Pairing.parseDeviceId, readSlots_eq]
  generalize s.toList.splitOn ':' = parts
  have hlength : ∀ {out}, parts.mapM parseByte = some out → parts.length = out.length :=
    fun h => (mapM_eq_some.mp h).length_eq
  by_cases hsix : parts.length = 6
  · rw [if_pos hsix.ge, List.take_of_length_le hsix.le, List.drop_eq_nil_of_le hsix.le]
    cases parts.mapM parseByte <;> rfl
  · have hnone : (parts.mapM parseByte).bind (tryIntoArr 6) = none := by
      cases hread : parts.mapM parseByte with
      | none => rfl
      | some out =>
        have hout : out.length ≠ 6 := fun h => hsix ((hlength hread).trans h)
        exact dif_neg hout
    rw [hnone]
    split_ifs with hle
    · have hrest : parts.drop 6 ≠ [] := by
        rw [ne_eq, List.drop_eq_nil_iff]
        omega
      cases (parts.take 6).mapM parseByte with
      | none => rfl
      | some out => exact if_neg hrest
    · rfl

theorem formatDeviceId_eq (id : Arr 6) : formatDeviceId id = Pairing.formatDeviceId id := by
  obtain ⟨bytes, hlength⟩ := id
  match bytes, hlength with
  | [_, _, _, _, _, _], _ => rfl

end Ble.DeviceIds

namespace Pairing

/-! ## One group -/

def IsPair (p : List Char) : Prop := ∃ b, p.map asciiLower = hexPair b

def IsSigned (p : List Char) : Prop := ∃ d n, p = ['+', d] ∧ toDigit 16 d = some n

theorem hexPair_eq (b : UInt8) : hexPair b = fixedDigits 16 2 b.toNat := by
  have hhigh : b.toNat / 16 % 16 = b.toNat / 16 := Nat.mod_eq_of_lt (high_lt b)
  rw [fixedDigits, fixedDigits, fixedDigits, hhigh]
  rfl

theorem parseByte_of_pair {p : List Char} {b : UInt8} (h : p.map asciiLower = hexPair b) :
    parseByte p = some b := by
  have hlength : p.length = 2 := by
    have hmap := congrArg List.length h
    rw [List.length_map] at hmap
    exact hmap
  have hvalue : digitsValue 16 p = some b.toNat := by
    rw [← digitsValue_map_asciiLower (by decide), h, (numeral_hexPair b).value]
  have hne : p ≠ [] := List.ne_nil_of_length_eq_add_one hlength
  exact parseByte_of_numeral hlength ⟨hne, hvalue⟩

theorem numeral_digit {d : Char} {n : Nat} (h : toDigit 16 d = some n) : Numeral 16 [d] n := by
  refine ⟨List.cons_ne_nil _ _, ?_⟩
  rw [digitsValue, List.foldlM_cons, h, Option.map_some, Nat.zero_mul, Nat.zero_add]
  rfl

theorem parseByte_of_signed {p : List Char} (h : IsSigned p) : ∃ b, parseByte p = some b := by
  obtain ⟨d, n, rfl, hd⟩ := h
  have hascii : ∀ c ∈ ['+', d], c.toNat < 128 := by
    intro c hc
    rcases List.mem_pair.mp hc with rfl | rfl
    · decide
    · exact ascii_of_toDigit (Option.isSome_of_eq_some hd)
  have hbytes : (asBytes (String.ofList ['+', d])).length = 2 := by
    rw [asBytes_ascii hascii]
    rfl
  have hsmall : n < 2 ^ 8 := Nat.lt_trans (toDigit_lt hd) (by decide)
  refine ⟨UInt8.ofNat n, ?_⟩
  rw [parseByte, if_neg (not_not.mpr hbytes), (numeral_digit hd).fromStrRadix_plus hsmall]
  rfl

theorem pair_or_signed_of_parseByte {p : List Char} {b : UInt8} (h : parseByte p = some b) :
    p.map asciiLower = hexPair b ∨ IsSigned p := by
  unfold parseByte at h
  split_ifs at h with hbytes
  rw [not_not, length_asBytes, String.toList_ofList] at hbytes
  obtain ⟨n, hn, rfl⟩ := Option.map_eq_some_iff.mp h
  have hlt : n < 256 := fromStrRadix_lt hn
  rcases numeral_of_fromStrRadix hn with hnumeral | ⟨digits, rfl, hnumeral⟩
  · left
    rw [hnumeral.utf8Length_eq] at hbytes
    rw [map_asciiLower_eq_fixedDigits hnumeral.value, hbytes, hexPair_eq, UInt8.toNat_ofNat',
      Nat.mod_eq_of_lt hlt]
  · right
    rw [utf8Length_cons, hnumeral.utf8Length_eq] at hbytes
    have hone : digits.length = 1 := Nat.add_left_cancel (n := 1) hbytes
    obtain ⟨d, rfl⟩ := List.length_eq_one_iff.mp hone
    have hdigit := toDigit_of_mem hnumeral.value d (List.mem_singleton_self d)
    obtain ⟨m, hm⟩ := Option.isSome_iff_exists.mp hdigit
    exact ⟨d, m, rfl, hm⟩

/-! ## Six groups -/

theorem splitOn_toAsciiLowercase (s : String) :
    (toAsciiLowercase s).toList.splitOn ':' = (s.toList.splitOn ':').map (List.map asciiLower) := by
  have hcolon : ∀ c, (asciiLower c == ':') = (c == ':') := by
    intro c
    rw [Bool.eq_iff_iff, beq_iff_eq, beq_iff_eq, asciiLower_eq_iff (by decide)]
  rw [toAsciiLowercase, String.toList_ofList, List.splitOn, List.splitOn, splitOnP_map hcolon]

theorem map_asciiLower_hexPair (b : UInt8) : (hexPair b).map asciiLower = hexPair b := by
  rw [map_asciiLower_eq_fixedDigits (numeral_hexPair b).value, hexPair_eq, length_fixedDigits]

theorem eq_of_splitOn_eq {s t : String} (h : s.toList.splitOn ':' = t.toList.splitOn ':') : s = t := by
  have hjoined := congrArg [':'].intercalate h
  rw [List.intercalate_splitOn, List.intercalate_splitOn] at hjoined
  exact String.toList_inj.mp hjoined

theorem eqIgnoreAsciiCase_formatDeviceId {s : String} {id : Arr 6} :
    eqIgnoreAsciiCase s (formatDeviceId id) = true ↔
      (s.toList.splitOn ':').map (List.map asciiLower) = id.val.map hexPair := by
  have hlower : toAsciiLowercase (formatDeviceId id) = formatDeviceId id := by
    apply eq_of_splitOn_eq
    rw [splitOn_toAsciiLowercase, splitOn_formatDeviceId, List.map_map]
    exact List.map_congr_left fun b _ => map_asciiLower_hexPair b
  rw [eqIgnoreAsciiCase, hlower, beq_iff_eq, ← splitOn_toAsciiLowercase,
    ← splitOn_formatDeviceId id]
  exact ⟨fun h => by rw [h], eq_of_splitOn_eq⟩

theorem parseDeviceId_eq_some {s : String} {id : Arr 6} :
    parseDeviceId s = some id ↔
      List.Forall₂ (fun p b => parseByte p = some b) (s.toList.splitOn ':') id.val := by
  rw [parseDeviceId, bind_tryIntoArr_eq_some, mapM_eq_some]

/-- Six pairs between colons. -/
def SixPairs (s : String) : Prop :=
  (s.toList.splitOn ':').length = 6 ∧ ∀ p ∈ s.toList.splitOn ':', IsPair p

/-- Six groups between colons of which some, but not all need to, have a plus sign in the place
of their first digit. -/
def HasSign (s : String) : Prop :=
  (s.toList.splitOn ':').length = 6 ∧
    (∀ p ∈ s.toList.splitOn ':', IsPair p ∨ IsSigned p) ∧ ∃ p ∈ s.toList.splitOn ':', IsSigned p

theorem not_pair_of_signed {p : List Char} (h : IsSigned p) : ¬ IsPair p := by
  rintro ⟨b, hb⟩
  obtain ⟨d, n, rfl, -⟩ := h
  have hplus : '+' ∈ hexPair b := by
    rw [← hb]
    exact List.mem_cons_self
  have hdigit := toDigit_of_mem (numeral_hexPair b).value '+' hplus
  revert hdigit
  decide

theorem groups_of_parseDeviceId {s : String} {id : Arr 6} (h : parseDeviceId s = some id) :
    (s.toList.splitOn ':').length = 6 ∧
      ∀ p ∈ s.toList.splitOn ':', IsPair p ∨ IsSigned p := by
  have hread := parseDeviceId_eq_some.mp h
  have hgroups : List.Forall₂ (fun p b => (IsPair p ∨ IsSigned p) ∧ parseByte p = some b)
      (s.toList.splitOn ':') id.val := by
    apply hread.imp
    intro p b hb
    exact ⟨(pair_or_signed_of_parseByte hb).imp_left fun hpair => ⟨b, hpair⟩, hb⟩
  exact ⟨hread.length_eq.trans id.property, ((List.forall₂_and_left _ _).mp hgroups).1⟩

theorem exists_parseDeviceId {s : String} (hlength : (s.toList.splitOn ':').length = 6)
    (h : ∀ p ∈ s.toList.splitOn ':', IsPair p ∨ IsSigned p) : ∃ id, parseDeviceId s = some id := by
  have hbytes : ∀ l : List (List Char), (∀ p ∈ l, IsPair p ∨ IsSigned p) →
      ∃ out, List.Forall₂ (fun p b => parseByte p = some b) l out := by
    intro l hl
    induction l with
    | nil => exact ⟨[], .nil⟩
    | cons p l ih =>
      obtain ⟨out, hout⟩ := ih fun q hq => hl q (List.mem_cons_of_mem _ hq)
      rcases hl p List.mem_cons_self with ⟨b, hb⟩ | hsigned
      · exact ⟨b :: out, .cons (parseByte_of_pair hb) hout⟩
      · obtain ⟨b, hb⟩ := parseByte_of_signed hsigned
        exact ⟨b :: out, .cons hb hout⟩
  obtain ⟨out, hout⟩ := hbytes _ h
  exact ⟨⟨out, hout.length_eq.symm.trans hlength⟩, parseDeviceId_eq_some.mpr hout⟩

theorem parseDeviceId_eq_some_iff {s : String} {id : Arr 6} (hsign : ¬ HasSign s) :
    parseDeviceId s = some id ↔ eqIgnoreAsciiCase s (formatDeviceId id) = true := by
  have hmap : (s.toList.splitOn ':').map (List.map asciiLower) = id.val.map hexPair ↔
      List.Forall₂ (fun p b => p.map asciiLower = hexPair b) (s.toList.splitOn ':') id.val := by
    rw [← List.forall₂_eq_eq_eq, List.forall₂_map_left_iff, List.forall₂_map_right_iff]
  rw [eqIgnoreAsciiCase_formatDeviceId, hmap]
  constructor
  · intro h
    obtain ⟨hlength, hgroups⟩ := groups_of_parseDeviceId h
    have hplain : ∀ p ∈ s.toList.splitOn ':', ¬ IsSigned p :=
      fun p hp hsigned => hsign ⟨hlength, hgroups, p, hp, hsigned⟩
    have hboth := (List.forall₂_and_left _ _).mpr ⟨hplain, parseDeviceId_eq_some.mp h⟩
    exact hboth.imp fun p b hpb => (pair_or_signed_of_parseByte hpb.2).resolve_right hpb.1
  · intro h
    exact parseDeviceId_eq_some.mpr (h.imp fun p b hpb => parseByte_of_pair hpb)

/-- Both parsers are one, and take the texts of identifiers and nothing else, unless a plus sign
stands where a digit should. -/
theorem parseDeviceId_exact_iff (s : String) :
    (Ble.DeviceIds.parseDeviceId s = parseDeviceId s ∧
      (∀ id, parseDeviceId s = some id ↔ eqIgnoreAsciiCase s (Ble.DeviceIds.formatDeviceId id) = true) ∧
      ((∃ id, parseDeviceId s = some id) ↔ SixPairs s)) ↔ ¬ HasSign s := by
  constructor
  · rintro ⟨-, -, hsix⟩ ⟨hlength, hgroups, p, hp, hsigned⟩
    have hpairs := hsix.mp (exists_parseDeviceId hlength hgroups)
    exact not_pair_of_signed hsigned (hpairs.2 p hp)
  · intro hsign
    refine ⟨Ble.DeviceIds.parseDeviceId_eq s, fun id => ?_, ?_, ?_⟩
    · rw [Ble.DeviceIds.formatDeviceId_eq, parseDeviceId_eq_some_iff hsign]
    · rintro ⟨id, hid⟩
      obtain ⟨hlength, hgroups⟩ := groups_of_parseDeviceId hid
      refine ⟨hlength, fun p hp => (hgroups p hp).resolve_right fun hsigned => ?_⟩
      exact hsign ⟨hlength, hgroups, p, hp, hsigned⟩
    · rintro ⟨hlength, hpairs⟩
      exact exists_parseDeviceId hlength fun p hp => .inl (hpairs p hp)

/-- A plus sign is taken for a digit. -/
theorem parseDeviceId_plus :
    parseDeviceId "+1:00:00:00:00:00" = some ⟨[1, 0, 0, 0, 0, 0], rfl⟩ ∧
      eqIgnoreAsciiCase "+1:00:00:00:00:00" (Ble.DeviceIds.formatDeviceId ⟨[1, 0, 0, 0, 0, 0], rfl⟩) =
        false := by
  decide

end Pairing
end HapRust
