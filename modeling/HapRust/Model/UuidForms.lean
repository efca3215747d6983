import HapRust.Lib.Numerals
import HapRust.Model.Uuid

/-! What `Uuid::parse` accepts, what it makes of it, and how a type is written for the JSON of
an accessory. A text that is written out is only checked for its characters and the first dash,
so that its other dashes can be anywhere. -/

namespace HapRust.Model.Uuid
open Lib

def asShort (u : Uuid) : Option String :=
  (stripSuffix (toAsciiLowercase hapBaseSuffix) u.full).map fun head =>
    let trimmed := head.toList.dropWhile (· == '0')
    toAsciiUppercase (if trimmed = [] then "0" else String.ofList trimmed)

def serialize (u : Uuid) : String := u.asShort.getD u.full

def deserialize (raw : String) : Except String Uuid := mapErr ModelError.display (parse raw)

/-! ## The two forms -/

def baseTail : List Char := (toAsciiLowercase hapBaseSuffix).toList

def WrittenOut (cs : List Char) : Prop :=
  cs.length = 36 ∧ cs[8]? = some '-' ∧ ∀ c ∈ cs, isAsciiHexdigit c = true ∨ c = '-'

def Abbreviated (cs : List Char) : Prop :=
  (1 ≤ cs.length ∧ cs.length ≤ 8) ∧ ∀ c ∈ cs, isAsciiHexdigit c = true

def written (cs : List Char) : Uuid := ⟨String.ofList (cs.map asciiLower)⟩

def expanded (cs : List Char) : Uuid :=
  ⟨String.ofList ((cs.map asciiLower).leftpad 8 '0' ++ baseTail)⟩

section
variable {s : String} {u : Uuid} {cs : List Char}

theorem ascii_of_hexdigit_or_dash {c : Char} (h : isAsciiHexdigit c = true ∨ c = '-') :
    c.toNat < 128 := by
  rcases h with hdigit | rfl
  · exact ascii_of_toDigit hdigit
  · decide

theorem hexdigit_ne_dash {c : Char} (h : isAsciiHexdigit c = true) : c ≠ '-' := by
  rintro rfl
  revert h
  decide

theorem hexdigit_asciiLower (c : Char) : isAsciiHexdigit (asciiLower c) = isAsciiHexdigit c := by
  rw [isAsciiHexdigit, isAsciiHexdigit, toDigit_asciiLower (by decide)]

theorem hexdigit_asciiUpper (c : Char) : isAsciiHexdigit (asciiUpper c) = isAsciiHexdigit c := by
  rw [isAsciiHexdigit, isAsciiHexdigit, toDigit_asciiUpper (by decide)]

theorem toAsciiLowercase_padded (cs : List Char) :
    toAsciiLowercase (String.ofList ((toAsciiLowercase (String.ofList cs)).toList.leftpad 8 '0') ++
      hapBaseSuffix) = (expanded cs).full := by
  have hidem : (cs.map asciiLower).map asciiLower = cs.map asciiLower := by
    rw [List.map_map]
    exact List.map_congr_left fun c _ => asciiLower_asciiLower c
  have hzero : asciiLower '0' = '0' := by decide
  rw [toAsciiLowercase, String.toList_append, String.toList_ofList, toAsciiLowercase,
    String.toList_ofList, String.toList_ofList, List.map_append, List.leftpad, List.map_append,
    List.map_replicate, hidem, hzero, expanded, List.leftpad, baseTail, toAsciiLowercase,
    String.toList_ofList]

theorem parse_writtenOut (h : WrittenOut (trim s).toList) :
    parse s = .ok (written (trim s).toList) := by
  obtain ⟨hlength, hdash, hall⟩ := h
  have hbytes := asBytes_ascii fun c hc => ascii_of_hexdigit_or_dash (hall c hc)
  rw [String.ofList_toList] at hbytes
  have hcheck : ((trim s).toList.all fun c => isAsciiHexdigit c || c == '-') = true := by
    rw [List.all_eq_true]
    intro c hc
    simpa using hall c hc
  rw [parse, hbytes, List.length_map, List.getElem?_map, hdash]
  dsimp only
  rw [if_pos ⟨hlength, by rfl⟩, if_pos hcheck]
  rfl

theorem parse_abbreviated (h : Abbreviated (trim s).toList) :
    parse s = .ok (expanded (trim s).toList) := by
  obtain ⟨hlength, hall⟩ := h
  have hbytes := asBytes_ascii fun c hc => ascii_of_hexdigit_or_dash (.inl (hall c hc))
  have hpadded := toAsciiLowercase_padded (trim s).toList
  rw [String.ofList_toList] at hbytes hpadded
  rw [parse, hbytes, List.length_map]
  dsimp only
  rw [if_neg (by omega), if_pos ⟨hlength, List.all_eq_true.mpr hall⟩, hpadded]

theorem form_of_parse (h : parse s = .ok u) :
    WrittenOut (trim s).toList ∨ Abbreviated (trim s).toList := by
  unfold parse at h
  dsimp only at h
  split_ifs at h with hfull hall hshort
  · left
    have hchars : ∀ c ∈ (trim s).toList, isAsciiHexdigit c = true ∨ c = '-' := by
      intro c hc
      simpa using List.all_eq_true.mp hall c hc
    have hbytes := asBytes_ascii fun c hc => ascii_of_hexdigit_or_dash (hchars c hc)
    rw [String.ofList_toList] at hbytes
    rw [hbytes, List.length_map, List.getElem?_map, Option.map_eq_some_iff] at hfull
    obtain ⟨hlength, c, hget, hc⟩ := hfull
    have hascii : c.toNat < 128 :=
      ascii_of_hexdigit_or_dash (hchars c (List.mem_of_getElem? hget))
    have hcode : c.toNat = 45 := by
      have hnat := congrArg UInt8.toNat hc
      rw [UInt8.toNat_ofNat', Nat.mod_eq_of_lt (by omega)] at hnat
      exact hnat
    have hdash : c = '-' := by rw [← Char.ofNat_toNat c, hcode]
    exact ⟨hlength, by rw [hget, hdash], hchars⟩
  · right
    have hchars : ∀ c ∈ (trim s).toList, isAsciiHexdigit c = true :=
      List.all_eq_true.mp hshort.2
    have hbytes := asBytes_ascii fun c hc => ascii_of_hexdigit_or_dash (.inl (hchars c hc))
    rw [String.ofList_toList] at hbytes
    have hlength := hshort.1
    rw [hbytes, List.length_map] at hlength
    exact ⟨hlength, hchars⟩

theorem parse_eq_ok_iff : parse s = .ok u ↔
    (WrittenOut (trim s).toList ∧ u = written (trim s).toList) ∨
      (Abbreviated (trim s).toList ∧ u = expanded (trim s).toList) := by
  constructor
  · intro h
    rcases form_of_parse h with hform | hform
    · exact .inl ⟨hform, Except.ok.inj (h.symm.trans (parse_writtenOut hform))⟩
    · exact .inr ⟨hform, Except.ok.inj (h.symm.trans (parse_abbreviated hform))⟩
  · rintro (⟨hform, rfl⟩ | ⟨hform, rfl⟩)
    · exact parse_writtenOut hform
    · exact parse_abbreviated hform

/-! ## Dashes in place -/

def dashPlaces : List Nat := [8, 13, 18, 23]

theorem not_mem_dashPlaces {i : Nat} (h : i < 8) : i ∉ dashPlaces := by
  simp only [dashPlaces, List.mem_cons, List.not_mem_nil, or_false]
  omega

/-- The lower-case text of a UUID, `8-4-4-4-12`. -/
def IsUuid (cs : List Char) : Prop :=
  cs.length = 36 ∧ ∀ i c, cs[i]? = some c →
    if i ∈ dashPlaces then c = '-' else isAsciiHexdigit c = true ∧ asciiLower c = c

/-- The dashes are where those of a UUID are, and there are no others. -/
def DashesInPlace (cs : List Char) : Prop := ∀ i, cs[i]? = some '-' ↔ i ∈ dashPlaces

theorem isUuid_written_iff (h : WrittenOut cs) :
    IsUuid (cs.map asciiLower) ↔ DashesInPlace cs := by
  obtain ⟨hlength, -, hchars⟩ := h
  constructor
  · rintro ⟨-, huuid⟩ i
    constructor
    · intro hget
      by_contra hplace
      have hc := huuid i '-' (by rw [List.getElem?_map, hget]; rfl)
      rw [if_neg hplace] at hc
      exact hexdigit_ne_dash hc.1 rfl
    · intro hplace
      have hi : i < cs.length := by
        rw [hlength]
        revert hplace i
        decide
      have hc := huuid i (asciiLower cs[i]) (by rw [List.getElem?_map, List.getElem?_eq_getElem hi]; rfl)
      rw [if_pos hplace] at hc
      rcases hchars cs[i] (List.getElem_mem hi) with hdigit | hdash
      · rw [← hexdigit_asciiLower] at hdigit
        exact absurd hc (hexdigit_ne_dash hdigit)
      · rw [List.getElem?_eq_getElem hi, hdash]
  · intro hdashes
    refine ⟨by rw [List.length_map, hlength], fun i d hget => ?_⟩
    rw [List.getElem?_map, Option.map_eq_some_iff] at hget
    obtain ⟨c, hc, rfl⟩ := hget
    split_ifs with hplace
    · rw [(hdashes i).mpr hplace] at hc
      rw [← Option.some.inj hc]
      decide
    · rcases hchars c (List.mem_of_getElem? hc) with hdigit | rfl
      · exact ⟨by rwa [hexdigit_asciiLower], asciiLower_asciiLower c⟩
      · exact absurd ((hdashes i).mp hc) hplace

theorem length_padded (h : cs.length ≤ 8) : ((cs.map asciiLower).leftpad 8 '0').length = 8 := by
  rw [List.length_leftpad, List.length_map]
  omega

theorem hexdigit_padded (h : ∀ c ∈ cs, isAsciiHexdigit c = true) :
    ∀ c ∈ (cs.map asciiLower).leftpad 8 '0', isAsciiHexdigit c = true ∧ asciiLower c = c := by
  intro c hc
  rw [List.leftpad] at hc
  rcases List.mem_append.mp hc with hc | hc
  · rw [(List.mem_replicate.mp hc).2]
    decide
  · obtain ⟨d, hd, rfl⟩ := List.mem_map.mp hc
    exact ⟨by rw [hexdigit_asciiLower, h d hd], asciiLower_asciiLower d⟩

theorem isUuid_expanded (h : Abbreviated cs) : IsUuid (expanded cs).full.toList := by
  obtain ⟨⟨-, hlength⟩, hchars⟩ := h
  have hhead := length_padded hlength
  rw [expanded, String.toList_ofList]
  refine ⟨by rw [List.length_append, hhead]; rfl, fun i c hget => ?_⟩
  by_cases hi : i < 8
  · rw [List.getElem?_append_left (by omega)] at hget
    rw [if_neg (not_mem_dashPlaces hi)]
    exact hexdigit_padded hchars c (List.mem_of_getElem? hget)
  · have htail : ∀ p ∈ baseTail.zipIdx 8, if p.2 ∈ dashPlaces then p.1 = '-'
        else isAsciiHexdigit p.1 = true ∧ asciiLower p.1 = p.1 := by decide
    rw [List.getElem?_append_right (by omega), hhead, ← List.mk_add_mem_zipIdx_iff_getElem?,
      Nat.add_sub_cancel' (by omega)] at hget
    exact htail (c, i) hget

/-! ## Serialised and read again -/

theorem parse_digits (hlength : 1 ≤ cs.length ∧ cs.length ≤ 8)
    (hchars : ∀ c ∈ cs, isAsciiHexdigit c = true) :
    parse (String.ofList cs) = .ok (expanded cs) := by
  have htrim : trim (String.ofList cs) = String.ofList cs :=
    trim_of_no_whitespace fun c hc => isWhitespace_of_hexdigit (hchars c hc)
  have hform : Abbreviated (trim (String.ofList cs)).toList := by
    rw [htrim, String.toList_ofList]
    exact ⟨hlength, hchars⟩
  rw [parse_abbreviated hform, htrim, String.toList_ofList]

def IsHead (head : List Char) : Prop :=
  head.length = 8 ∧ ∀ c ∈ head, isAsciiHexdigit c = true ∧ asciiLower c = c

def significant (head : List Char) : List Char :=
  if head.dropWhile (· == '0') = [] then ['0'] else head.dropWhile (· == '0')

theorem asShort_of_head (head : List Char) :
    asShort ⟨String.ofList (head ++ baseTail)⟩ =
      some (String.ofList ((significant head).map asciiUpper)) := by
  have hstrip : stripSuffix (toAsciiLowercase hapBaseSuffix) (String.ofList (head ++ baseTail)) =
      some (String.ofList head) := stripSuffix_append head _
  rw [asShort, hstrip, Option.map_some]
  dsimp only
  rw [String.toList_ofList, toAsciiUppercase, significant]
  split_ifs
  · rfl
  · rw [String.toList_ofList]

theorem leftpad_significant {head : List Char} (h : head.length = 8) :
    (significant head).leftpad 8 '0' = head := by
  have hzeros : head.takeWhile (· == '0') =
      List.replicate (head.takeWhile (· == '0')).length '0' := by
    rw [List.eq_replicate_iff]
    exact ⟨rfl, fun c hc => by simpa using List.mem_takeWhile_imp hc⟩
  have hsplit : head.takeWhile (· == '0') ++ head.dropWhile (· == '0') = head :=
    List.takeWhile_append_dropWhile
  have hlength := congrArg List.length hsplit
  rw [List.length_append, h] at hlength
  unfold significant
  split_ifs with hempty
  · rw [hempty, List.length_nil, Nat.add_zero] at hlength
    rw [hempty, List.append_nil, hzeros, hlength] at hsplit
    rw [← hsplit]
    rfl
  · have hcount : 8 - (head.dropWhile (· == '0')).length = (head.takeWhile (· == '0')).length := by
      omega
    rw [List.leftpad, hcount, ← hzeros, hsplit]

theorem mem_significant {head : List Char} {c : Char} (hc : c ∈ significant head) :
    c ∈ head ∨ c = '0' := by
  unfold significant at hc
  split_ifs at hc
  · exact .inr (List.mem_singleton.mp hc)
  · exact .inl (List.dropWhile_subset _ hc)

theorem length_significant {head : List Char} (h : head.length = 8) :
    1 ≤ (significant head).length ∧ (significant head).length ≤ 8 := by
  have hle : (head.dropWhile (· == '0')).length ≤ head.length := List.length_dropWhile_le _ _
  unfold significant
  split_ifs with hempty
  · decide
  · exact ⟨List.length_pos_of_ne_nil hempty, h ▸ hle⟩

theorem hexdigit_significant {head : List Char} (h : IsHead head) :
    ∀ c ∈ significant head, isAsciiHexdigit c = true ∧ asciiLower c = c := by
  intro c hc
  rcases mem_significant hc with hc | rfl
  · exact h.2 c hc
  · decide

theorem expanded_significant {head : List Char} (h : IsHead head) :
    expanded ((significant head).map asciiUpper) = ⟨String.ofList (head ++ baseTail)⟩ := by
  have hlower : ((significant head).map asciiUpper).map asciiLower = significant head := by
    rw [List.map_map]
    conv_rhs => rw [← List.map_id (significant head)]
    apply List.map_congr_left
    intro c hc
    exact (asciiLower_asciiUpper c).trans (hexdigit_significant h c hc).2
  rw [expanded, hlower, leftpad_significant h.1]

theorem deserialize_serialize_head {head : List Char} (h : IsHead head) :
    deserialize (serialize ⟨String.ofList (head ++ baseTail)⟩) =
      .ok ⟨String.ofList (head ++ baseTail)⟩ := by
  have hlength : 1 ≤ ((significant head).map asciiUpper).length ∧
      ((significant head).map asciiUpper).length ≤ 8 := by
    rw [List.length_map]
    exact length_significant h.1
  have hchars : ∀ c ∈ (significant head).map asciiUpper, isAsciiHexdigit c = true := by
    intro c hc
    obtain ⟨d, hd, rfl⟩ := List.mem_map.mp hc
    rw [hexdigit_asciiUpper]
    exact (hexdigit_significant h d hd).1
  rw [serialize, asShort_of_head, Option.getD_some, deserialize, parse_digits hlength hchars,
    expanded_significant h, mapErr_ok]

theorem deserialize_serialize_expanded (h : Abbreviated cs) :
    deserialize (serialize (expanded cs)) = .ok (expanded cs) :=
  deserialize_serialize_head ⟨length_padded h.1.2, hexdigit_padded h.2⟩

theorem deserialize_serialize_written (h : WrittenOut cs) (hdashes : DashesInPlace cs) :
    deserialize (serialize (written cs)) = .ok (written cs) := by
  have huuid := (isUuid_written_iff h).mpr hdashes
  cases hstrip : stripSuffix (toAsciiLowercase hapBaseSuffix) (written cs).full with
  | none =>
    have hcanonical : ∀ c ∈ cs.map asciiLower, Canonical c := by
      intro c hc
      obtain ⟨d, hd, rfl⟩ := List.mem_map.mp hc
      refine ⟨?_, asciiLower_asciiLower d⟩
      rcases h.2.2 d hd with hdigit | rfl
      · exact .inl (by rwa [hexdigit_asciiLower])
      · exact .inr (by decide)
    have hdash : (cs.map asciiLower)[8]? = some '-' := by
      rw [List.getElem?_map, h.2.1]
      rfl
    have hparse := parse_full hcanonical huuid.1 hdash
    rw [serialize, asShort, hstrip, Option.map_none, Option.getD_none, deserialize, written, hparse,
      mapErr_ok]
  | some head =>
    have hsplit : cs.map asciiLower = head.toList ++ baseTail := by
      have hfull := stripSuffix_eq_some hstrip
      rwa [written, String.toList_ofList] at hfull
    have hhead : IsHead head.toList := by
      have hlength : head.toList.length = 8 := by
        have htotal := huuid.1
        rw [hsplit, List.length_append] at htotal
        exact Nat.add_right_cancel (m := baseTail.length) htotal
      refine ⟨hlength, fun c hc => ?_⟩
      obtain ⟨i, hi, rfl⟩ := List.getElem_of_mem hc
      have hget : (cs.map asciiLower)[i]? = some head.toList[i] := by
        rw [hsplit, List.getElem?_append_left hi, List.getElem?_eq_getElem hi]
      have hplaced := huuid.2 i _ hget
      rwa [if_neg (not_mem_dashPlaces (hlength ▸ hi))] at hplaced
    rw [written, hsplit]
    exact deserialize_serialize_head hhead

/-! ## The type a text stands for -/

def hapBaseDigits : List Char := "0000100080000026bb765291".toList

def withDashes (digits : List Char) : List Char :=
  ['-'].intercalate [digits.take 8, (digits.drop 8).take 4, (digits.drop 12).take 4,
    (digits.drop 16).take 4, digits.drop 20]

def ofNumber (n : Nat) : Uuid := ⟨String.ofList (withDashes (fixedDigits 16 32 n))⟩

inductive Denotes (s : String) : Nat → Prop
  | short {n : Nat} (hlength : (trim s).toList.length ≤ 8) (h : Numeral 16 (trim s).toList n) :
    Denotes s (n * 16 ^ 24 + 0x100080000026bb765291)
  | full {digits : List Char} {n : Nat} (hlength : digits.length = 32) (h : Numeral 16 digits n)
    (htext : (trim s).toList = withDashes digits) : Denotes s n

theorem hexdigit_of_numeral {digits : List Char} {n : Nat} (h : Numeral 16 digits n) :
    ∀ c ∈ digits, isAsciiHexdigit c = true := toDigit_of_mem h.value

theorem map_withDashes (f : Char → Char) (hdash : f '-' = '-') (digits : List Char) :
    (withDashes digits).map f = withDashes (digits.map f) := by
  simp only [withDashes, List.intercalate, List.intersperse, List.flatten_cons, List.flatten_nil,
    List.map_append, List.map_cons, List.map_nil, List.map_take, List.map_drop, hdash]

theorem mem_withDashes {digits : List Char} {c : Char} (hc : c ∈ withDashes digits) :
    c ∈ digits ∨ c = '-' := by
  simp only [withDashes, List.intercalate, List.intersperse, List.flatten_cons, List.flatten_nil,
    List.mem_append, List.mem_singleton, List.append_nil] at hc
  rcases hc with hc | rfl | hc | rfl | hc | rfl | hc | rfl | hc
  · exact .inl (List.mem_of_mem_take hc)
  · exact .inr rfl
  · exact .inl (List.mem_of_mem_drop (List.mem_of_mem_take hc))
  · exact .inr rfl
  · exact .inl (List.mem_of_mem_drop (List.mem_of_mem_take hc))
  · exact .inr rfl
  · exact .inl (List.mem_of_mem_drop (List.mem_of_mem_take hc))
  · exact .inr rfl
  · exact .inl (List.mem_of_mem_drop hc)

theorem writtenOut_withDashes {digits : List Char} (hlength : digits.length = 32)
    (h : ∀ c ∈ digits, isAsciiHexdigit c = true) : WrittenOut (withDashes digits) := by
  refine ⟨?_, ?_, fun c hc => (mem_withDashes hc).imp_left (h c)⟩
  · simp only [withDashes, List.intercalate, List.intersperse, List.flatten_cons, List.flatten_nil,
      List.length_append, List.length_singleton, List.length_take, List.length_drop, List.length_nil,
      hlength]
    rfl
  · obtain ⟨rest, hsplit⟩ : ∃ rest, withDashes digits = digits.take 8 ++ '-' :: rest := ⟨_, rfl⟩
    have hfront : (digits.take 8).length = 8 := by
      rw [List.length_take]
      omega
    rw [hsplit, List.getElem?_append_right (by omega), hfront]
    rfl

theorem withDashes_hapBase {head : List Char} (h : head.length = 8) :
    withDashes (head ++ hapBaseDigits) = head ++ baseTail := by
  have hdrop : ∀ k, (head ++ hapBaseDigits).drop (8 + k) = hapBaseDigits.drop k := by
    intro k
    rw [← List.drop_drop, List.drop_left' h]
  have htail : ['-'].intercalate [[], hapBaseDigits.take 4, (hapBaseDigits.drop 4).take 4,
      (hapBaseDigits.drop 8).take 4, hapBaseDigits.drop 12] = baseTail := by decide
  rw [withDashes, List.take_left' h, hdrop 0, hdrop 4, hdrop 8, hdrop 12, ← htail]
  rfl

theorem parse_of_denotes {n : Nat} (h : Denotes s n) : parse s = .ok (ofNumber n) := by
  cases h with
  | full hlength hnumeral htext =>
    next digits =>
    have hform : WrittenOut (trim s).toList := by
      rw [htext]
      exact writtenOut_withDashes hlength (hexdigit_of_numeral hnumeral)
    rw [parse_writtenOut hform, htext, written, map_withDashes asciiLower (by decide),
      map_asciiLower_eq_fixedDigits hnumeral.value, hlength]
    rfl
  | short hlength hnumeral =>
    next k =>
    have hform : Abbreviated (trim s).toList :=
      ⟨⟨List.length_pos_of_ne_nil hnumeral.nonempty, hlength⟩, hexdigit_of_numeral hnumeral⟩
    have hpadded : digitsValue 16 (((trim s).toList.map asciiLower).leftpad 8 '0') = some k := by
      have hdigits : digitsValue 16 ((trim s).toList.map asciiLower) = some k := by
        rw [digitsValue_map_asciiLower (by decide), hnumeral.value]
      rw [List.leftpad, digitsValue_append_eq (digitsValue_replicate_zero (by decide) _) hdigits,
        Nat.zero_mul, Nat.zero_add]
    have hbase : digitsValue 16 hapBaseDigits = some 0x100080000026bb765291 := by decide
    have hvalue := digitsValue_append_eq hpadded hbase
    have hlower : ∀ c ∈ ((trim s).toList.map asciiLower).leftpad 8 '0' ++ hapBaseDigits,
        asciiLower c = c := by
      intro c hc
      rcases List.mem_append.mp hc with hc | hc
      · exact (hexdigit_padded hform.2 c hc).2
      · have hbaseLower : (hapBaseDigits.all fun c => asciiLower c == c) = true := by decide
        exact beq_iff_eq.mp (List.all_eq_true.mp hbaseLower c hc)
    have hdigits : ((trim s).toList.map asciiLower).leftpad 8 '0' ++ hapBaseDigits =
        fixedDigits 16 32 (k * 16 ^ 24 + 0x100080000026bb765291) := by
      have hfixed := map_asciiLower_eq_fixedDigits hvalue
      rw [List.length_append, length_padded hlength, List.map_congr_left hlower, List.map_id'] at hfixed
      exact hfixed
    rw [parse_abbreviated hform, ofNumber, ← hdigits, withDashes_hapBase (length_padded hlength),
      expanded]

end

/-- What is accepted is a UUID, comes back when it is written and read again, and does not
depend on the way the type was written. -/
def Faithful (s : String) : Prop :=
  ∀ u, parse s = .ok u → IsUuid u.full.toList ∧ deserialize (serialize u) = .ok u ∧
    ∀ s' u' n, parse s' = .ok u' → Denotes s n → Denotes s' n → u' = u

/-- A text is taken faithfully unless it is thirty-six hex digits and dashes, with a dash behind
the first eight, that has a dash out of place. -/
theorem faithful_iff (s : String) :
    Faithful s ↔ (WrittenOut (trim s).toList → DashesInPlace (trim s).toList) := by
  constructor
  · intro hfaithful hform
    have huuid := (hfaithful _ (parse_writtenOut hform)).1
    rw [written, String.toList_ofList] at huuid
    exact (isUuid_written_iff hform).mp huuid
  · intro hdashes u hu
    have hsame : ∀ s' u' n, parse s' = .ok u' → Denotes s n → Denotes s' n → u' = u := by
      intro s' u' n hu' hn hn'
      have hleft := Except.ok.inj (hu'.symm.trans (parse_of_denotes hn'))
      have hright := Except.ok.inj (hu.symm.trans (parse_of_denotes hn))
      rw [hleft, hright]
    rcases parse_eq_ok_iff.mp hu with ⟨hform, rfl⟩ | ⟨hform, rfl⟩
    · refine ⟨?_, deserialize_serialize_written hform (hdashes hform), hsame⟩
      rw [written, String.toList_ofList]
      exact (isUuid_written_iff hform).mpr (hdashes hform)
    · exact ⟨isUuid_expanded hform, deserialize_serialize_expanded hform, hsame⟩

def misplacedHead : List Char := "1-2-3-4-".toList

theorem canonical_misplaced : ∀ c ∈ misplacedHead ++ baseTail, Canonical c := by
  have hall : ((misplacedHead ++ baseTail).all fun c =>
      (isAsciiHexdigit c || c == '-') && asciiLower c == c) = true := by decide
  intro c hc
  have hc := List.all_eq_true.mp hall c hc
  rw [Bool.and_eq_true, Bool.or_eq_true, beq_iff_eq, beq_iff_eq] at hc
  exact hc

theorem fails_misplacedHead : Fails (deserialize (String.ofList misplacedHead)) := by
  have htrim : trim (String.ofList misplacedHead) = String.ofList misplacedHead :=
    trim_canonical fun c hc => canonical_misplaced c (List.mem_append_left _ hc)
  cases hparse : parse (String.ofList misplacedHead) with
  | error e => exact ⟨e.display, by rw [deserialize, hparse]; rfl⟩
  | ok u =>
    have hform := form_of_parse hparse
    rw [htrim, String.toList_ofList] at hform
    rcases hform with ⟨hlength, -⟩ | ⟨-, hchars⟩
    · cases hlength
    · cases hchars '-' (by decide)

/-- A type that is accepted, is no UUID, and cannot be read again. -/
theorem parse_misplacedDashes :
    parse "1-2-3-4--0000-1000-8000-0026bb765291" =
        .ok ⟨"1-2-3-4--0000-1000-8000-0026bb765291"⟩ ∧
      ¬ IsUuid "1-2-3-4--0000-1000-8000-0026bb765291".toList ∧
      serialize ⟨"1-2-3-4--0000-1000-8000-0026bb765291"⟩ = "1-2-3-4-" ∧
      Fails (deserialize "1-2-3-4-") := by
  refine ⟨parse_full canonical_misplaced (by decide) (by decide), ?_, ?_, fails_misplacedHead⟩
  · rintro ⟨-, huuid⟩
    have hplaced := huuid 1 '-' (by decide)
    revert hplaced
    decide
  · have hshort : asShort ⟨"1-2-3-4--0000-1000-8000-0026bb765291"⟩ = some "1-2-3-4-" :=
      asShort_of_head misplacedHead
    rw [serialize, hshort, Option.getD_some]

end HapRust.Model.Uuid
