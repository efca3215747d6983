import HapRust.Lib.Text
import Mathlib.Data.List.Induction

/-! Texts and numbers that are written read back: UTF-8 by the lossy decoder, character by
character, and numerals digit by digit. -/

namespace HapRust.Lib

/-! ## UTF-8 -/

theorem utf8CharWidth_eq (b : UInt8) : utf8CharWidth b =
    if b.toNat < 128 then 1 else if 194 ≤ b.toNat ∧ b.toNat ≤ 223 then 2
    else if 224 ≤ b.toNat ∧ b.toNat ≤ 239 then 3
    else if 240 ≤ b.toNat ∧ b.toNat ≤ 244 then 4 else 0 := rfl

theorem isContinuation_iff {b : UInt8} :
    isContinuation b = true ↔ 128 ≤ b.toNat ∧ b.toNat ≤ 191 := by
  rw [isContinuation, Bool.and_eq_true, decide_eq_true_eq, decide_eq_true_eq]
  rfl

theorem toNat_ofNat_of_lt {n : Nat} (h : n < 256) : (UInt8.ofNat n).toNat = n := by
  rw [UInt8.toNat_ofNat']
  exact Nat.mod_eq_of_lt h

theorem continuation_tail (n : Nat) : isContinuation (UInt8.ofNat (n % 64 + 128)) = true ∧
    (UInt8.ofNat (n % 64 + 128)).toNat % 64 = n % 64 := by
  have hbyte : (UInt8.ofNat (n % 64 + 128)).toNat = n % 64 + 128 := toNat_ofNat_of_lt (by omega)
  rw [isContinuation_iff, hbyte]
  omega

theorem isSecondByte_iff {b c : UInt8} : isSecondByte b c = true ↔
    if b.toNat = 0xE0 then 0xA0 ≤ c.toNat ∧ c.toNat ≤ 0xBF
    else if b.toNat = 0xED then 0x80 ≤ c.toNat ∧ c.toNat ≤ 0x9F
    else if b.toNat = 0xF0 then 0x90 ≤ c.toNat ∧ c.toNat ≤ 0xBF
    else if b.toNat = 0xF4 then 0x80 ≤ c.toNat ∧ c.toNat ≤ 0x8F
    else 0x80 ≤ c.toNat ∧ c.toNat ≤ 0xBF := by
  simp only [isSecondByte, ← UInt8.toNat_inj]
  split_ifs <;> simp_all [isContinuation, UInt8.le_iff_toNat_le]

/-! The four lengths of an encoded character, each read back as the number it encodes. -/

section
variable {v : Nat} (rest : Bytes)

theorem lossyStep_oneByte (h : v ≤ 0x7F) :
    lossyStep (UInt8.ofNat v) rest = (Char.ofNat v, rest) := by
  have hb : (UInt8.ofNat v).toNat = v := toNat_ofNat_of_lt (by omega)
  have hwidth : utf8CharWidth (UInt8.ofNat v) = 1 := by
    rw [utf8CharWidth_eq, hb, if_pos (by omega)]
  simp only [lossyStep, hwidth, hb]

theorem lossyStep_twoBytes (hlow : 0x7F < v) (hhigh : v ≤ 0x7FF) :
    lossyStep (UInt8.ofNat (v / 64 % 32 + 192)) (UInt8.ofNat (v % 64 + 128) :: rest) =
      (Char.ofNat v, rest) := by
  have hb : (UInt8.ofNat (v / 64 % 32 + 192)).toNat = v / 64 % 32 + 192 :=
    toNat_ofNat_of_lt (by omega)
  have hwidth : utf8CharWidth (UInt8.ofNat (v / 64 % 32 + 192)) = 2 := by
    rw [utf8CharWidth_eq, hb, if_neg (by omega), if_pos (by omega)]
  obtain ⟨hcont, htail⟩ := continuation_tail v
  have hvalue : (v / 64 % 32 + 192) % 32 * 64 + v % 64 = v := by omega
  simp only [lossyStep, hwidth, hcont, if_true, hb, htail, hvalue]

theorem lossyStep_threeBytes (hlow : 0x7FF < v) (hhigh : v ≤ 0xFFFF)
    (hsurrogate : v < 0xD800 ∨ 0xDFFF < v) :
    lossyStep (UInt8.ofNat (v / 4096 % 16 + 224))
        (UInt8.ofNat (v / 64 % 64 + 128) :: UInt8.ofNat (v % 64 + 128) :: rest) =
      (Char.ofNat v, rest) := by
  have hb : (UInt8.ofNat (v / 4096 % 16 + 224)).toNat = v / 4096 % 16 + 224 :=
    toNat_ofNat_of_lt (by omega)
  have hwidth : utf8CharWidth (UInt8.ofNat (v / 4096 % 16 + 224)) = 3 := by
    rw [utf8CharWidth_eq, hb, if_neg (by omega), if_neg (by omega), if_pos (by omega)]
  have hc₁ : (UInt8.ofNat (v / 64 % 64 + 128)).toNat = v / 64 % 64 + 128 :=
    toNat_ofNat_of_lt (by omega)
  have hsecond : isSecondByte (UInt8.ofNat (v / 4096 % 16 + 224))
      (UInt8.ofNat (v / 64 % 64 + 128)) = true := by
    rw [isSecondByte_iff, hb, hc₁]
    split_ifs <;> omega
  obtain ⟨hcont, htail⟩ := continuation_tail v
  obtain ⟨-, htail₁⟩ := continuation_tail (v / 64)
  have hvalue : ((v / 4096 % 16 + 224) % 16 * 64 + v / 64 % 64) * 64 + v % 64 = v := by omega
  simp only [lossyStep, hwidth, hsecond, hcont, if_true, hb, htail, htail₁, hvalue]

theorem lossyStep_fourBytes (hlow : 0xFFFF < v) (hhigh : v < 0x110000) :
    lossyStep (UInt8.ofNat (v / 262144 % 8 + 240)) (UInt8.ofNat (v / 4096 % 64 + 128) ::
        UInt8.ofNat (v / 64 % 64 + 128) :: UInt8.ofNat (v % 64 + 128) :: rest) =
      (Char.ofNat v, rest) := by
  have hb : (UInt8.ofNat (v / 262144 % 8 + 240)).toNat = v / 262144 % 8 + 240 :=
    toNat_ofNat_of_lt (by omega)
  have hwidth : utf8CharWidth (UInt8.ofNat (v / 262144 % 8 + 240)) = 4 := by
    rw [utf8CharWidth_eq, hb, if_neg (by omega), if_neg (by omega), if_neg (by omega),
      if_pos (by omega)]
  have hc₁ : (UInt8.ofNat (v / 4096 % 64 + 128)).toNat = v / 4096 % 64 + 128 :=
    toNat_ofNat_of_lt (by omega)
  have hsecond : isSecondByte (UInt8.ofNat (v / 262144 % 8 + 240))
      (UInt8.ofNat (v / 4096 % 64 + 128)) = true := by
    rw [isSecondByte_iff, hb, hc₁]
    split_ifs <;> omega
  obtain ⟨hcont, htail⟩ := continuation_tail v
  obtain ⟨hcont₂, htail₂⟩ := continuation_tail (v / 64)
  obtain ⟨-, htail₁⟩ := continuation_tail (v / 4096)
  have hvalue : (((v / 262144 % 8 + 240) % 8 * 64 + v / 4096 % 64) * 64 + v / 64 % 64) * 64 +
      v % 64 = v := by omega
  simp only [lossyStep, hwidth, hsecond, hcont, hcont₂, if_true, hb, htail, htail₁, htail₂, hvalue]

end

theorem lossyStep_utf8EncodeChar (c : Char) : ∃ b t, String.utf8EncodeChar c = b :: t ∧
    ∀ rest, lossyStep b (t ++ rest) = (c, rest) := by
  have hvalid : c.val.toNat < 0xD800 ∨ 0xDFFF < c.val.toNat ∧ c.val.toNat < 0x110000 := c.valid
  have hchar : Char.ofNat c.val.toNat = c := Char.ofNat_toNat c
  unfold String.utf8EncodeChar
  dsimp only
  split_ifs with h1 h2 h3
  · exact ⟨_, _, rfl, fun rest => (lossyStep_oneByte rest h1).trans (by rw [hchar])⟩
  · exact ⟨_, _, rfl, fun rest =>
      (lossyStep_twoBytes rest (by omega) h2).trans (by rw [hchar])⟩
  · exact ⟨_, _, rfl, fun rest =>
      (lossyStep_threeBytes rest (by omega) h3 (by omega)).trans (by rw [hchar])⟩
  · exact ⟨_, _, rfl, fun rest =>
      (lossyStep_fourBytes rest (by omega) (by omega)).trans (by rw [hchar])⟩

theorem lossyChars_utf8Encode (cs : List Char) {n : Nat}
    (hn : (cs.flatMap String.utf8EncodeChar).length ≤ n) :
    lossyChars n (cs.flatMap String.utf8EncodeChar) = cs := by
  induction cs generalizing n with
  | nil => cases n <;> rfl
  | cons c cs ih =>
    obtain ⟨b, t, henc, hstep⟩ := lossyStep_utf8EncodeChar c
    rw [List.flatMap_cons, henc, List.cons_append] at hn ⊢
    obtain ⟨n, rfl⟩ : ∃ m, n = m + 1 := ⟨n - 1, by rw [List.length_cons] at hn; omega⟩
    rw [lossyChars, hstep]
    rw [List.length_cons, List.length_append] at hn
    rw [ih (by omega)]

theorem asBytes_eq (s : String) : asBytes s = s.toList.flatMap String.utf8EncodeChar := by
  rw [← asBytes_ofList, String.ofList_toList]

@[simp] theorem fromUtf8Lossy_asBytes (s : String) : fromUtf8Lossy (asBytes s) = s := by
  rw [fromUtf8Lossy, asBytes_eq, lossyChars_utf8Encode _ le_rfl, String.ofList_toList]

theorem eq_of_mem_utf8EncodeChar {c : Char} {b : UInt8} (hb : b.toNat < 128)
    (h : b ∈ String.utf8EncodeChar c) : b.toNat = c.toNat := by
  have hval : c.val.toNat = c.toNat := rfl
  have hhigh : ∀ n, b ≠ UInt8.ofNat (n % 64 + 128) := by
    rintro n rfl
    rw [toNat_ofNat_of_lt (by omega)] at hb
    omega
  unfold String.utf8EncodeChar at h
  simp only [hval] at h
  split_ifs at h with h1 h2 h3 <;> simp only [List.mem_cons, List.not_mem_nil, or_false, hhigh] at h
  · rw [h, toNat_ofNat_of_lt (by omega)]
  all_goals
    rw [h, toNat_ofNat_of_lt (by omega)] at hb
    omega

theorem mem_of_mem_asBytes {s : String} {b : UInt8} (hb : b.toNat < 128) (h : b ∈ asBytes s) :
    Char.ofNat b.toNat ∈ s.toList := by
  rw [asBytes_eq] at h
  obtain ⟨c, hc, hmem⟩ := List.mem_flatMap.mp h
  rw [eq_of_mem_utf8EncodeChar hb hmem, Char.ofNat_toNat]
  exact hc

/-! ## NULs behind a text -/

theorem isSecondByte_zero (b : UInt8) : isSecondByte b 0 = false := by
  unfold isSecondByte
  split_ifs <;> rfl

theorem lossyStep_append_zero (b : UInt8) (t y : Bytes) :
    lossyStep b (t ++ 0 :: y) = ((lossyStep b t).1, (lossyStep b t).2 ++ 0 :: y) := by
  have hzero : isContinuation 0 = false := rfl
  unfold lossyStep
  dsimp only
  generalize utf8CharWidth b = n
  match n, t with
  | 0, _ | 1, _ | n + 5, _ => rfl
  | 2, [] => simp only [List.nil_append, hzero, Bool.false_eq_true, if_false]
  | 3, [] | 4, [] => simp only [List.nil_append, isSecondByte_zero, Bool.false_eq_true, if_false]
  | 3, [c₁] | 4, [c₁] | 4, [c₁, c₂] =>
    simp only [List.cons_append, List.nil_append, hzero, Bool.false_eq_true, if_false]
    split_ifs <;> rfl
  | 2, c₁ :: t₁ | 3, c₁ :: c₂ :: t₂ | 4, c₁ :: c₂ :: c₃ :: t₃ =>
    simp only [List.cons_append]
    split_ifs <;> rfl

theorem lossyStep_append_zeros (b : UInt8) (t : Bytes) (k : Nat) :
    lossyStep b (t ++ List.replicate k 0) =
      ((lossyStep b t).1, (lossyStep b t).2 ++ List.replicate k 0) := by
  cases k with
  | zero => rw [List.replicate_zero, List.append_nil, List.append_nil]
  | succ k => exact lossyStep_append_zero b t _

theorem length_lossyStep_le (b : UInt8) (t : Bytes) : (lossyStep b t).2.length ≤ t.length := by
  unfold lossyStep
  dsimp only
  generalize utf8CharWidth b = n
  match n, t with
  | 0, _ | 1, _ | n + 5, _ | 2, [] | 3, [] | 4, [] => exact Nat.le_refl _
  | 2, c₁ :: t₁ | 3, [c₁] | 4, [c₁] | 4, [c₁, c₂] | 3, c₁ :: c₂ :: t₂ | 4, c₁ :: c₂ :: c₃ :: t₃ =>
    simp only [List.length_cons, List.length_nil]
    split_ifs <;> simp only [List.length_cons, List.length_nil] <;> omega

theorem lossyChars_zeros (k n : Nat) (hn : k ≤ n) :
    lossyChars n (List.replicate k 0) = List.replicate k (Char.ofNat 0) := by
  induction k generalizing n with
  | zero => cases n <;> rfl
  | succ k ih =>
    obtain ⟨m, rfl⟩ : ∃ m, n = m + 1 := ⟨n - 1, by omega⟩
    rw [List.replicate_succ, List.replicate_succ, lossyChars, ← ih m (by omega)]
    rfl

theorem lossyChars_append_zeros {n m : Nat} {w : Bytes} (k : Nat) (hn : w.length + k ≤ n)
    (hm : w.length ≤ m) :
    lossyChars n (w ++ List.replicate k 0) = lossyChars m w ++ List.replicate k (Char.ofNat 0) := by
  induction n generalizing m w with
  | zero =>
    obtain rfl : w = [] := List.eq_nil_of_length_eq_zero (by omega)
    obtain rfl : k = 0 := by simpa using hn
    cases m <;> rfl
  | succ n ih =>
    cases w with
    | nil =>
      rw [List.nil_append, lossyChars_zeros k _ (by simpa using hn)]
      cases m <;> rfl
    | cons b t =>
      rw [List.length_cons] at hn hm
      obtain ⟨m, rfl⟩ : ∃ m', m = m' + 1 := ⟨m - 1, by omega⟩
      have hle := length_lossyStep_le b t
      rw [List.cons_append, lossyChars, lossyChars, List.cons_append, lossyStep_append_zeros]
      rw [ih (by omega) (show (lossyStep b t).2.length ≤ m by omega)]

theorem fromUtf8Lossy_append_zeros (w : Bytes) (k : Nat) :
    (fromUtf8Lossy (w ++ List.replicate k 0)).toList =
      (fromUtf8Lossy w).toList ++ List.replicate k (Char.ofNat 0) := by
  rw [fromUtf8Lossy, fromUtf8Lossy, String.toList_ofList, String.toList_ofList]
  refine lossyChars_append_zeros k ?_ (Nat.le_refl _)
  rw [List.length_append, List.length_replicate]

/-! ## Numerals -/

structure Numeral (radix : Nat) (digits : List Char) (n : Nat) : Prop where
  nonempty : digits ≠ []
  value : digitsValue radix digits = some n

theorem digitsValue_append (radix : Nat) (digits : List Char) (c : Char) :
    digitsValue radix (digits ++ [c]) =
      (digitsValue radix digits).bind fun n => (toDigit radix c).map (n * radix + ·) := by
  simp only [digitsValue, List.foldlM_append, List.foldlM_cons, List.foldlM_nil, bind_pure]
  rfl

theorem toDigit_of_mem {radix : Nat} {digits : List Char} {n : Nat}
    (h : digitsValue radix digits = some n) : ∀ c ∈ digits, (toDigit radix c).isSome := by
  induction digits using List.reverseRecOn generalizing n with
  | nil =>
    intro c hc
    cases hc
  | append_singleton digits d ih =>
    rw [digitsValue_append] at h
    obtain ⟨m, hm, hd⟩ := Option.bind_eq_some_iff.mp h
    obtain ⟨k, hk, -⟩ := Option.map_eq_some_iff.mp hd
    intro c hc
    rcases List.mem_append.mp hc with hc | hc
    · exact ih hm c hc
    · rw [List.mem_singleton.mp hc, hk]
      rfl

theorem Numeral.fromStrRadix {radix : Nat} {digits : List Char} {n bits : Nat}
    (h : Numeral radix digits n) (hn : n < 2 ^ bits) :
    fromStrRadix bits radix (String.ofList digits) = some n := by
  obtain ⟨hne, hvalue⟩ := h
  have hplus : stripPlus digits = digits := by
    unfold stripPlus
    split
    · next rest =>
      have hdigit := toDigit_of_mem hvalue '+' (List.mem_cons_self ..)
      have hnone : toDigit radix '+' = none := by
        simp [toDigit]
      rw [hnone] at hdigit
      cases hdigit
    · rfl
  rw [Lib.fromStrRadix, String.toList_ofList, hplus, if_neg hne, hvalue, Option.filter_some,
    if_pos (decide_eq_true hn)]

theorem toDigit_eq_none {radix : Nat} {c : Char} (h : c.toNat < 48 ∨ 57 < c.toNat ∧ c.toNat < 65 ∨
    90 < c.toNat ∧ c.toNat < 97 ∨ 122 < c.toNat) : toDigit radix c = none := by
  have hrange : ¬ ('0' ≤ c ∧ c ≤ '9') ∧ ¬ ('a' ≤ c ∧ c ≤ 'z') ∧ ¬ ('A' ≤ c ∧ c ≤ 'Z') := by
    simp only [Char.le_def, UInt32.le_iff_toNat_le]
    have h0 : ('0' : Char).val.toNat = 48 := rfl
    have h9 : ('9' : Char).val.toNat = 57 := rfl
    have ha : ('a' : Char).val.toNat = 97 := rfl
    have hz : ('z' : Char).val.toNat = 122 := rfl
    have hA : ('A' : Char).val.toNat = 65 := rfl
    have hZ : ('Z' : Char).val.toNat = 90 := rfl
    have hc : c.val.toNat = c.toNat := rfl
    rw [h0, h9, ha, hz, hA, hZ, hc]
    omega
  simp [toDigit, hrange]

theorem isWhitespace_not_digit {radix : Nat} {c : Char} (h : isWhitespace c = true) :
    toDigit radix c = none := by
  simp only [isWhitespace, Bool.or_eq_true, Bool.and_eq_true, decide_eq_true_eq] at h
  exact toDigit_eq_none (by omega)

theorem ascii_of_toDigit {radix : Nat} {c : Char} (h : (toDigit radix c).isSome = true) :
    c.toNat < 128 := by
  by_contra hlarge
  rw [toDigit_eq_none (by omega)] at h
  cases h

theorem utf8EncodeChar_ascii {c : Char} (h : c.toNat < 128) :
    String.utf8EncodeChar c = [UInt8.ofNat c.toNat] := by
  have hval : c.val.toNat ≤ 127 := Nat.le_of_lt_succ h
  simp only [String.utf8EncodeChar, hval, if_true]
  rfl

theorem asBytes_ascii {cs : List Char} (h : ∀ c ∈ cs, c.toNat < 128) :
    asBytes (String.ofList cs) = cs.map fun c => UInt8.ofNat c.toNat := by
  rw [asBytes_ofList, List.flatMap_congr fun c hc => utf8EncodeChar_ascii (h c hc)]
  exact List.map_eq_flatMap.symm

theorem toNat_charOfNat (b : UInt8) : (Char.ofNat b.toNat).toNat = b.toNat := by
  have hvalid : b.toNat.isValidChar := Or.inl (Nat.lt_trans b.toNat_lt (by decide))
  rw [Char.ofNat, dif_pos hvalid]
  rfl

theorem trim_of_no_whitespace {cs : List Char} (h : ∀ c ∈ cs, isWhitespace c = false) :
    trim (String.ofList cs) = String.ofList cs := by
  have hdrop : cs.dropWhile isWhitespace = cs := by
    cases cs with
    | nil => rfl
    | cons c cs => rw [List.dropWhile_cons_of_neg (by simp [h c (List.mem_cons_self ..)])]
  have hrdrop : cs.rdropWhile isWhitespace = cs := by
    rw [List.rdropWhile_eq_self_iff]
    intro hne
    simp [h _ (List.getLast_mem hne)]
  rw [trim, String.toList_ofList, hdrop, hrdrop]

section
variable {radix : Nat} {digits : List Char} {n : Nat}

theorem Numeral.no_whitespace (h : Numeral radix digits n) :
    ∀ c ∈ digits, isWhitespace c = false := by
  intro c hc
  cases hws : isWhitespace c with
  | false => rfl
  | true =>
    have hdigit := toDigit_of_mem h.value c hc
    rw [isWhitespace_not_digit hws] at hdigit
    cases hdigit

theorem Numeral.not_mem (h : Numeral radix digits n) {b : UInt8}
    (hb : isWhitespace (Char.ofNat b.toNat) = true) (hascii : b.toNat < 128) :
    b ∉ asBytes (String.ofList digits) := by
  intro hmem
  have hc := mem_of_mem_asBytes hascii hmem
  rw [String.toList_ofList] at hc
  rw [h.no_whitespace _ hc] at hb
  cases hb

end

theorem toDigit_digitChar_of_lt {radix n : Nat} (hradix : radix ≤ 16) (hn : n < radix) :
    toDigit radix (Nat.digitChar n) = some n := by
  have hdigit : ∀ m < 16, ∀ r ≤ 16, m < r → toDigit r (Nat.digitChar m) = some m := by decide
  exact hdigit n (by omega) radix hradix hn

theorem numeral_toDigits {radix : Nat} (hlow : 2 ≤ radix) (hhigh : radix ≤ 16) (n : Nat) :
    Numeral radix (Nat.toDigits radix n) n := by
  refine ⟨Nat.toDigits_ne_nil, ?_⟩
  induction n using Nat.strongRecOn with
  | _ n ih =>
    by_cases hn : n < radix
    · rw [Nat.toDigits_of_lt_base hn]
      simp [digitsValue, toDigit_digitChar_of_lt hhigh hn]
    · rw [Nat.toDigits_of_base_le (by omega) (by omega), digitsValue_append,
        ih (n / radix) (Nat.div_lt_self (by omega) (by omega)), Option.bind_some,
        toDigit_digitChar_of_lt hhigh (Nat.mod_lt _ (by omega)), Option.map_some, Nat.mul_comm,
        Nat.div_add_mod]

def fixedDigits (radix : Nat) : Nat → Nat → List Char
  | 0, _ => []
  | w + 1, n => fixedDigits radix w (n / radix) ++ [Nat.digitChar (n % radix)]

section
variable {radix : Nat}

@[simp] theorem length_fixedDigits (w n : Nat) : (fixedDigits radix w n).length = w := by
  induction w generalizing n with
  | zero => rfl
  | succ w ih => rw [fixedDigits, List.length_append, ih, List.length_singleton]

theorem fixedDigits_zero (w : Nat) : fixedDigits radix w 0 = List.replicate w '0' := by
  induction w with
  | zero => rfl
  | succ w ih =>
    rw [fixedDigits, Nat.zero_div, Nat.zero_mod, ih, List.replicate_succ']
    rfl

theorem mem_fixedDigits (hradix : 0 < radix) {w n : Nat} {c : Char} (hc : c ∈ fixedDigits radix w n) :
    ∃ m < radix, c = Nat.digitChar m := by
  induction w generalizing n with
  | zero => cases hc
  | succ w ih =>
    rcases List.mem_append.mp hc with hc | hc
    · exact ih hc
    · exact ⟨n % radix, Nat.mod_lt _ hradix, List.mem_singleton.mp hc⟩

theorem leftpad_concat (w : Nat) (a c : Char) (l : List Char) :
    List.leftpad (w + 1) a (l ++ [c]) = List.leftpad w a l ++ [c] := by
  rw [List.leftpad, List.leftpad, List.length_append, List.length_singleton, Nat.add_sub_add_right,
    List.append_assoc]

theorem leftpad_toDigits (hradix : 2 ≤ radix) {w n : Nat} (hn : n < radix ^ (w + 1)) :
    List.leftpad (w + 1) '0' (Nat.toDigits radix n) = fixedDigits radix (w + 1) n := by
  induction w generalizing n with
  | zero =>
    rw [Nat.zero_add, Nat.pow_one] at hn
    rw [Nat.toDigits_of_lt_base hn, fixedDigits, Nat.mod_eq_of_lt hn]
    rfl
  | succ w ih =>
    rw [fixedDigits]
    by_cases hlt : n < radix
    · rw [Nat.toDigits_of_lt_base hlt, Nat.div_eq_of_lt hlt, Nat.mod_eq_of_lt hlt, fixedDigits_zero]
      rfl
    · have hdiv : n / radix < radix ^ (w + 1) := by
        rw [Nat.div_lt_iff_lt_mul (by omega)]
        exact hn
      rw [Nat.toDigits_of_base_le (by omega) (by omega), leftpad_concat, ih hdiv]

theorem length_toDigits_le (hradix : 2 ≤ radix) {w n : Nat} (hn : n < radix ^ (w + 1)) :
    (Nat.toDigits radix n).length ≤ w + 1 := by
  have hlength := congrArg List.length (leftpad_toDigits hradix hn)
  rw [List.length_leftpad, length_fixedDigits] at hlength
  omega

end

end HapRust.Lib
