import HapRust.Lib.TextRoundTrip

/-! Numerals in either case of their letters: that the value does not depend on the case, and
that the digits of a given width are determined by the value. Taking a known start or end off
a text is here as well. -/

namespace HapRust.Lib

def asciiUpper (c : Char) : Char := if 'a' ≤ c ∧ c ≤ 'z' then Char.ofNat (c.toNat - 32) else c

def toAsciiUppercase (s : String) : String := String.ofList (s.toList.map asciiUpper)

def stripPrefix (start : String) (s : String) : Option String :=
  if start.toList <+: s.toList then some (String.ofList (s.toList.drop start.toList.length))
  else none

def stripSuffix (tail : String) (s : String) : Option String :=
  if tail.toList <:+ s.toList then
    some (String.ofList (s.toList.take (s.toList.length - tail.toList.length)))
  else none

theorem stripPrefix_append (start : String) (rest : List Char) :
    stripPrefix start (String.ofList (start.toList ++ rest)) = some (String.ofList rest) := by
  rw [stripPrefix, String.toList_ofList, if_pos (List.prefix_append _ _), List.drop_left]

theorem stripPrefix_eq_some {start s rest : String} (h : stripPrefix start s = some rest) :
    s.toList = start.toList ++ rest.toList := by
  unfold stripPrefix at h
  split_ifs at h with hstart
  obtain ⟨tail, htail⟩ := hstart
  rw [← Option.some.inj h, ← htail, List.drop_left, String.toList_ofList]

theorem stripSuffix_append (head : List Char) (tail : String) :
    stripSuffix tail (String.ofList (head ++ tail.toList)) = some (String.ofList head) := by
  rw [stripSuffix, String.toList_ofList, if_pos (List.suffix_append _ _), List.length_append,
    Nat.add_sub_cancel, List.take_left]

theorem stripSuffix_eq_some {tail s head : String} (h : stripSuffix tail s = some head) :
    s.toList = head.toList ++ tail.toList := by
  unfold stripSuffix at h
  split_ifs at h with htail
  obtain ⟨front, hfront⟩ := htail
  rw [← Option.some.inj h, ← hfront, List.length_append, Nat.add_sub_cancel, List.take_left,
    String.toList_ofList]

def utf8Length (cs : List Char) : Nat := (cs.flatMap String.utf8EncodeChar).length

def splitAt : Nat → List Char → Option (List Char × List Char)
  | 0, cs => some ([], cs)
  | _ + 1, [] => none
  | mid + 1, c :: cs =>
    if utf8Length [c] ≤ mid + 1 then
      (splitAt (mid + 1 - utf8Length [c]) cs).map fun p => (c :: p.1, p.2)
    else none

theorem length_asBytes (s : String) : (asBytes s).length = utf8Length s.toList := by
  rw [asBytes_eq, utf8Length]

theorem utf8Length_cons (c : Char) (cs : List Char) :
    utf8Length (c :: cs) = utf8Length [c] + utf8Length cs := by
  rw [utf8Length, utf8Length, utf8Length, ← List.length_append, ← List.flatMap_append]
  rfl

theorem utf8Length_append (cs ds : List Char) :
    utf8Length (cs ++ ds) = utf8Length cs + utf8Length ds := by
  rw [utf8Length, List.flatMap_append, List.length_append]
  rfl

theorem utf8Length_ascii {cs : List Char} (h : ∀ c ∈ cs, c.toNat < 128) :
    utf8Length cs = cs.length := by
  rw [utf8Length, ← asBytes_ofList, asBytes_ascii h, List.length_map]

theorem utf8Length_pos (c : Char) : 0 < utf8Length [c] := by
  rw [utf8Length, List.flatMap_singleton, String.length_utf8EncodeChar]
  exact c.utf8Size_pos

theorem splitAt_append (front tail : List Char) :
    splitAt (utf8Length front) (front ++ tail) = some (front, tail) := by
  induction front with
  | nil => cases tail <;> rfl
  | cons c front ih =>
    obtain ⟨k, hk⟩ := Nat.exists_eq_succ_of_ne_zero (utf8Length_pos c).ne'
    have htotal : utf8Length (c :: front) = k + utf8Length front + 1 := by
      rw [utf8Length_cons, hk]
      omega
    have hrest : k + utf8Length front + 1 - utf8Length [c] = utf8Length front := by omega
    rw [htotal, List.cons_append, splitAt, if_pos (by omega), hrest, ih, Option.map_some]

theorem splitAt_eq_some {mid : Nat} {cs front tail : List Char} :
    splitAt mid cs = some (front, tail) ↔ cs = front ++ tail ∧ utf8Length front = mid := by
  constructor
  · intro h
    induction cs generalizing mid front with
    | nil =>
      cases mid with
      | zero =>
        obtain ⟨rfl, rfl⟩ := Prod.mk.inj (Option.some.inj h)
        exact ⟨rfl, rfl⟩
      | succ mid => cases h
    | cons c cs ih =>
      cases mid with
      | zero =>
        obtain ⟨rfl, rfl⟩ := Prod.mk.inj (Option.some.inj h)
        exact ⟨rfl, rfl⟩
      | succ mid =>
        rw [splitAt] at h
        split_ifs at h with hfits
        obtain ⟨⟨front', tail'⟩, hsplit, hpair⟩ := Option.map_eq_some_iff.mp h
        obtain ⟨rfl, rfl⟩ := Prod.mk.inj hpair
        obtain ⟨rfl, hmid⟩ := ih hsplit
        refine ⟨rfl, ?_⟩
        rw [utf8Length_cons, hmid]
        omega
  · rintro ⟨rfl, rfl⟩
    exact splitAt_append front tail

/-! ## Case -/

section
variable {radix : Nat} {c : Char} {d : Nat}

theorem of_codes {p : Char → Prop} (m n : Nat) (h : ∀ k ≤ n, m ≤ k → p (Char.ofNat k))
    (hc : m ≤ c.toNat ∧ c.toNat ≤ n) : p c := by
  rw [← Char.ofNat_toNat c]
  exact h c.toNat hc.2 hc.1

theorem toDigit_asciiLower (hradix : radix ≤ 36) (c : Char) :
    toDigit radix (asciiLower c) = toDigit radix c := by
  by_cases hupper : 'A' ≤ c ∧ c ≤ 'Z'
  · exact of_codes (p := fun c => ∀ r ≤ 36, toDigit r (asciiLower c) = toDigit r c) 65 90
      (by decide +kernel) hupper radix hradix
  · rw [asciiLower, if_neg hupper]

theorem asciiLower_asciiLower (c : Char) : asciiLower (asciiLower c) = asciiLower c := by
  by_cases hupper : 'A' ≤ c ∧ c ≤ 'Z'
  · exact of_codes (p := fun c => asciiLower (asciiLower c) = asciiLower c) 65 90
      (by decide +kernel) hupper
  · have hsame : asciiLower c = c := if_neg hupper
    rw [hsame, hsame]

theorem asciiLower_asciiUpper (c : Char) : asciiLower (asciiUpper c) = asciiLower c := by
  by_cases hlower : 'a' ≤ c ∧ c ≤ 'z'
  · exact of_codes (p := fun c => asciiLower (asciiUpper c) = asciiLower c) 97 122
      (by decide +kernel) hlower
  · rw [asciiUpper, if_neg hlower]

theorem asciiLower_eq_iff {a : Char} (ha : a.toNat < 65) : asciiLower c = a ↔ c = a := by
  by_cases hupper : 'A' ≤ c ∧ c ≤ 'Z'
  · have hlow : 65 ≤ c.toNat := hupper.1
    have hletter : 97 ≤ (asciiLower c).toNat :=
      of_codes (p := fun c => 97 ≤ (asciiLower c).toNat) 65 90 (by decide +kernel) hupper
    constructor
    · rintro rfl
      omega
    · rintro rfl
      omega
  · rw [asciiLower, if_neg hupper]

theorem toDigit_asciiUpper (hradix : radix ≤ 36) (c : Char) :
    toDigit radix (asciiUpper c) = toDigit radix c := by
  rw [← toDigit_asciiLower hradix, asciiLower_asciiUpper, toDigit_asciiLower hradix]

theorem toDigit_lt (h : toDigit radix c = some d) : d < radix := by
  unfold toDigit at h
  dsimp only at h
  split_ifs at h with _ hd <;> cases h <;> assumption

theorem digitsValue_map_asciiLower (hradix : radix ≤ 36) (digits : List Char) :
    digitsValue radix (digits.map asciiLower) = digitsValue radix digits := by
  unfold digitsValue
  rw [List.foldlM_map]
  congr 1
  funext n c
  rw [toDigit_asciiLower hradix]

theorem asciiLower_of_toDigit (h : toDigit 16 c = some d) : asciiLower c = Nat.digitChar d := by
  have hascii : c.toNat < 128 := ascii_of_toDigit (Option.isSome_of_eq_some h)
  exact of_codes (p := fun c => ∀ d < 16, toDigit 16 c = some d → asciiLower c = Nat.digitChar d)
    0 127 (by decide +kernel) ⟨Nat.zero_le _, Nat.le_of_lt_succ hascii⟩ d (toDigit_lt h) h

end

/-! ## Values -/

theorem digitsValue_append_eq {radix m k : Nat} {front back : List Char}
    (hfront : digitsValue radix front = some m) (hback : digitsValue radix back = some k) :
    digitsValue radix (front ++ back) = some (m * radix ^ back.length + k) := by
  induction back using List.reverseRecOn generalizing k with
  | nil =>
    obtain rfl : k = 0 := (Option.some.inj hback).symm
    rw [List.append_nil, hfront, List.length_nil, Nat.pow_zero, Nat.mul_one, Nat.add_zero]
  | append_singleton back c ih =>
    rw [digitsValue_append] at hback
    obtain ⟨j, hj, hc⟩ := Option.bind_eq_some_iff.mp hback
    obtain ⟨d, hd, rfl⟩ := Option.map_eq_some_iff.mp hc
    rw [← List.append_assoc, digitsValue_append, ih hj, Option.bind_some, hd, Option.map_some,
      List.length_append, List.length_singleton, Nat.pow_succ]
    congr 1
    ring

theorem digitsValue_lt {radix n : Nat} {digits : List Char} (h : digitsValue radix digits = some n) :
    n < radix ^ digits.length := by
  induction digits using List.reverseRecOn generalizing n with
  | nil =>
    obtain rfl : n = 0 := (Option.some.inj h).symm
    exact Nat.one_pos
  | append_singleton digits c ih =>
    rw [digitsValue_append] at h
    obtain ⟨m, hm, hc⟩ := Option.bind_eq_some_iff.mp h
    obtain ⟨d, hd, rfl⟩ := Option.map_eq_some_iff.mp hc
    rw [List.length_append, List.length_singleton, Nat.pow_succ]
    calc m * radix + d < m * radix + radix := Nat.add_lt_add_left (toDigit_lt hd) _
      _ = (m + 1) * radix := (Nat.succ_mul m radix).symm
      _ ≤ radix ^ digits.length * radix := Nat.mul_le_mul_right radix (ih hm)

theorem digitsValue_replicate_zero {radix : Nat} (hradix : 0 < radix) (k : Nat) :
    digitsValue radix (List.replicate k '0') = some 0 := by
  induction k with
  | zero => rfl
  | succ k ih =>
    have hzero : toDigit radix '0' = some 0 := by
      simp [toDigit, hradix]
    rw [List.replicate_succ', digitsValue_append, ih, Option.bind_some, hzero, Option.map_some,
      Nat.zero_mul]

def radixDigit (d : Nat) : Char :=
  if d < 10 then Char.ofNat ('0'.toNat + d) else Char.ofNat ('a'.toNat + (d - 10))

def radixDigits (radix : Nat) : Nat → Nat → List Char
  | 0, _ => []
  | w + 1, n => radixDigits radix w (n / radix) ++ [radixDigit (n % radix)]

theorem length_radixDigits (radix w n : Nat) : (radixDigits radix w n).length = w := by
  induction w generalizing n with
  | zero => rfl
  | succ w ih => rw [radixDigits, List.length_append, ih, List.length_singleton]

theorem toDigit_radixDigit {radix d : Nat} (hradix : radix ≤ 36) (hd : d < radix) :
    toDigit radix (radixDigit d) = some d := by
  have hall : ∀ e < 36, ∀ r ≤ 36, e < r → toDigit r (radixDigit e) = some e := by decide +kernel
  exact hall d (by omega) radix hradix hd

theorem digitsValue_radixDigits {radix w n : Nat} (hradix : radix ≤ 36) (hn : n < radix ^ w) :
    digitsValue radix (radixDigits radix w n) = some n := by
  induction w generalizing n with
  | zero =>
    obtain rfl : n = 0 := Nat.lt_one_iff.mp hn
    rfl
  | succ w ih =>
    have hpos : 0 < radix := by
      rcases Nat.eq_zero_or_pos radix with rfl | hpos
      · rw [Nat.zero_pow (Nat.succ_pos w)] at hn
        omega
      · exact hpos
    have hdiv : n / radix < radix ^ w := by
      rwa [Nat.div_lt_iff_lt_mul hpos, ← Nat.pow_succ]
    rw [radixDigits, digitsValue_append, ih hdiv, Option.bind_some,
      toDigit_radixDigit hradix (Nat.mod_lt _ hpos), Option.map_some, Nat.mul_comm, Nat.div_add_mod]

theorem Numeral.utf8Length_eq {radix n : Nat} {digits : List Char} (h : Numeral radix digits n) :
    utf8Length digits = digits.length :=
  utf8Length_ascii fun c hc => ascii_of_toDigit (toDigit_of_mem h.value c hc)

theorem Numeral.fromStrRadix_plus {radix n bits : Nat} {digits : List Char}
    (h : Numeral radix digits n) (hn : n < 2 ^ bits) :
    Lib.fromStrRadix bits radix (String.ofList ('+' :: digits)) = some n := by
  rw [Lib.fromStrRadix, String.toList_ofList, stripPlus, if_neg h.nonempty, h.value,
    Option.filter_some, if_pos (decide_eq_true hn)]

theorem stripPlus_cases (cs : List Char) : stripPlus cs = cs ∨ cs = '+' :: stripPlus cs := by
  unfold stripPlus
  split
  · exact .inr rfl
  · exact .inl rfl

theorem numeral_of_fromStrRadix {radix n bits : Nat} {cs : List Char}
    (h : fromStrRadix bits radix (String.ofList cs) = some n) :
    Numeral radix cs n ∨ ∃ digits, cs = '+' :: digits ∧ Numeral radix digits n := by
  rw [fromStrRadix, String.toList_ofList] at h
  split_ifs at h with hempty
  have hvalue := (Option.filter_eq_some_iff.mp h).1
  rcases stripPlus_cases cs with hsame | hplus
  · rw [hsame] at hempty hvalue
    exact .inl ⟨hempty, hvalue⟩
  · exact .inr ⟨stripPlus cs, hplus, hempty, hvalue⟩

theorem map_asciiLower_eq_fixedDigits {digits : List Char} {n : Nat}
    (h : digitsValue 16 digits = some n) :
    digits.map asciiLower = fixedDigits 16 digits.length n := by
  induction digits using List.reverseRecOn generalizing n with
  | nil => rfl
  | append_singleton digits c ih =>
    rw [digitsValue_append] at h
    obtain ⟨m, hm, hc⟩ := Option.bind_eq_some_iff.mp h
    obtain ⟨d, hd, rfl⟩ := Option.map_eq_some_iff.mp hc
    have hlt := toDigit_lt hd
    have hdiv : (m * 16 + d) / 16 = m := by omega
    have hmod : (m * 16 + d) % 16 = d := by omega
    rw [List.map_append, ih hm, List.map_singleton, asciiLower_of_toDigit hd, List.length_append,
      List.length_singleton, fixedDigits, hdiv, hmod]

end HapRust.Lib
