import HapRust.Ble.Operations
import HapRust.Lib.TextRoundTrip

/-! A value that is written to a characteristic and read again. An accessory keeps the bytes of
the Value parameter and returns them as a Value parameter; both bodies are TLV8. -/

namespace HapRust.Ble
open Lib Tlv8 Crypto BleM

/-- The typed values of a format. -/
inductive CharFormat.Admits : CharFormat → CharValue → Prop
  | bool (b : Bool) : Admits .bool (.bool b)
  | uint8 {n : UInt64} (h : n.toNat < 2 ^ 8) : Admits .uint8 (.uint n)
  | uint16 {n : UInt64} (h : n.toNat < 2 ^ 16) : Admits .uint16 (.uint n)
  | uint32 {n : UInt64} (h : n.toNat < 2 ^ 32) : Admits .uint32 (.uint n)
  | uint64 (n : UInt64) : Admits .uint64 (.uint n)
  | int {n : Int64} (hlow : -2 ^ 31 ≤ n.toInt) (hhigh : n.toInt < 2 ^ 31) : Admits .int (.int n)
  | float (f : Float) : Admits .float (.float f)
  | string (s : String) : Admits .string (.str s)
  | tlv8 (b : Bytes) : Admits .tlv8 (.bytes b)
  | data (b : Bytes) : Admits .data (.bytes b)

def keptValue (body : Bytes) : Option Bytes :=
  match Tlv8Map.parse body with
  | .ok params => params.get Param.value
  | .error _ => none

def readBody (before : List LogicalItem) (kept : Bytes) (after : List LogicalItem) : Bytes :=
  writeItems (before ++ .value Param.value kept (by decide) :: after)

def readValue (format : CharFormat) (body : Bytes) : Except BleError CharValue := do
  let raw ← valueParam body
  decodeValue raw format

/-! ## Values and their bytes -/

section
variable {format : CharFormat} {value : CharValue} {bytes : Bytes}

theorem encodeUint_of_lt {width : Nat} {n : UInt64} (h : n.toNat < 256 ^ width) :
    encodeUint width n = .ok (leBytes width n.toNat) := if_pos h

theorem lt_of_encodeUint {width : Nat} {n : UInt64} (h : encodeUint width n = .ok bytes) :
    n.toNat < 256 ^ width := by
  by_contra hlarge
  rw [encodeUint, if_neg hlarge] at h
  cases h

theorem encodeUint_error {width : Nat} {n : UInt64} {e : BleError}
    (h : encodeUint width n = .error e) : e = formatMismatch := by
  rw [encodeUint] at h
  split_ifs at h
  exact (Except.error.inj h).symm

theorem encodeValue_error {e : BleError} (h : encodeValue format value = .error e) :
    e = formatMismatch := by
  unfold encodeValue at h
  split at h
  · cases h
  · exact encodeUint_error h
  · exact encodeUint_error h
  · exact encodeUint_error h
  · exact encodeUint_error h
  · split_ifs at h
    exact (Except.error.inj h).symm
  · cases h
  · cases h
  · cases h
  · cases h
  · exact (Except.error.inj h).symm

theorem admits_of_encodeValue (h : encodeValue format value = .ok bytes) : format.Admits value := by
  unfold encodeValue at h
  split at h
  · exact .bool _
  · exact .uint8 (lt_of_encodeUint h)
  · exact .uint16 (lt_of_encodeUint h)
  · exact .uint32 (lt_of_encodeUint h)
  · exact .uint64 _
  · split_ifs at h with hrange
    exact .int hrange.1 hrange.2
  · exact .float _
  · exact .string _
  · exact .tlv8 _
  · exact .data _
  · cases h

theorem encodeValue_of_admits (h : format.Admits value) :
    ∃ bytes, encodeValue format value = .ok bytes := by
  cases h with
  | uint8 h => exact ⟨_, encodeUint_of_lt h⟩
  | uint16 h => exact ⟨_, encodeUint_of_lt h⟩
  | uint32 h => exact ⟨_, encodeUint_of_lt h⟩
  | uint64 n => exact ⟨_, encodeUint_of_lt n.toNat_lt⟩
  | int hlow hhigh => exact ⟨_, if_pos ⟨hlow, hhigh⟩⟩
  | bool | float | string | tlv8 | data => exact ⟨_, rfl⟩

theorem encodeValue_ok_iff :
    (∃ bytes, encodeValue format value = .ok bytes) ↔ format.Admits value := by
  constructor
  · rintro ⟨bytes, h⟩
    exact admits_of_encodeValue h
  · exact encodeValue_of_admits

/-! ## Bytes and their values -/

theorem need_leBytes {width n : Nat} (h : n < 256 ^ width) :
    need (leBytes width n) width = .ok n := by
  rw [need_of_le (Nat.le_of_eq (leBytes_length width n).symm),
    List.take_of_length_le (Nat.le_of_eq (leBytes_length width n)), leNat_leBytes,
    Nat.mod_eq_of_lt h]

theorem signed_of_mod {i : Int} (hlow : -2 ^ 31 ≤ i) (hhigh : i < 2 ^ 31) :
    (if (i % 2 ^ 32).toNat < 2 ^ 31 then ((i % 2 ^ 32).toNat : Int)
      else (i % 2 ^ 32).toNat - 2 ^ 32) = i := by
  split_ifs with h
  · omega
  · omega

theorem decodeValue_encodeValue (h : encodeValue format value = .ok bytes) (hfloat : format ≠ .float) :
    decodeValue bytes format = .ok value := by
  cases admits_of_encodeValue h with
  | bool b =>
    cases h
    cases b <;> rfl
  | uint8 hn =>
    cases (encodeUint_of_lt hn).symm.trans h
    rw [decodeValue, need_leBytes hn, ok_bind, UInt64.ofNat_toNat]
    rfl
  | uint16 hn =>
    cases (encodeUint_of_lt hn).symm.trans h
    rw [decodeValue, need_leBytes hn, ok_bind, UInt64.ofNat_toNat]
    rfl
  | uint32 hn =>
    cases (encodeUint_of_lt hn).symm.trans h
    rw [decodeValue, need_leBytes hn, ok_bind, UInt64.ofNat_toNat]
    rfl
  | uint64 n =>
    cases (encodeUint_of_lt n.toNat_lt).symm.trans h
    rw [decodeValue, need_leBytes n.toNat_lt, ok_bind, UInt64.ofNat_toNat]
    rfl
  | int hlow hhigh =>
    rw [encodeValue, if_pos ⟨hlow, hhigh⟩] at h
    cases h
    rw [decodeValue, need_leBytes (by omega), ok_bind, signed_of_mod hlow hhigh, Int64.ofInt_toInt]
    rfl
  | float f => exact absurd rfl hfloat
  | string s =>
    cases h
    rw [decodeValue, fromUtf8Lossy_asBytes]
  | tlv8 b =>
    cases h
    rfl
  | data b =>
    cases h
    rfl

end

/-! ## The two bodies -/

theorem get_value_append {before after : List LogicalItem} {kept : Bytes}
    (hbefore : ∀ i ∈ before, i.toItem.1 ≠ Param.value) :
    Tlv8Map.get ⟨(before ++ .value Param.value kept (by decide) :: after).map LogicalItem.toItem⟩
      Param.value = some kept := by
  have hnone : (before.map LogicalItem.toItem).find? (·.1 == Param.value) = none := by
    rw [List.find?_eq_none]
    intro item hitem
    obtain ⟨i, hi, rfl⟩ := List.mem_map.mp hitem
    simpa using hbefore i hi
  rw [Tlv8Map.get, List.map_append, List.find?_append, hnone, Option.none_or, List.map_cons,
    List.find?_cons_of_pos (by rfl)]
  rfl

theorem valueParam_readBody {before after : List LogicalItem} (kept : Bytes)
    (hbefore : ∀ i ∈ before, i.toItem.1 ≠ Param.value) :
    valueParam (readBody before kept after) = .ok kept := by
  rw [valueParam, readBody, Tlv8Map.parse_eq_ok (parse_writeItems _), mapErr_ok, ok_bind,
    get_value_append hbefore]
  rfl

theorem keptValue_encodeWriteBody (bytes : Bytes) : keptValue (encodeWriteBody bytes) = some bytes := by
  have hbody : encodeWriteBody bytes = writeItems ([.value Param.returnResponse [1] (by decide)] ++
      .value Param.value bytes (by decide) :: []) := rfl
  rw [keptValue, hbody, Tlv8Map.parse_eq_ok (parse_writeItems _)]
  refine get_value_append ?_
  intro i hi
  rw [List.mem_singleton.mp hi]
  decide

/-! ## A write and a read -/

section
variable (P : Primitives) (a : BleAccessory) (chars : Chars) {aid iid : UInt64} {uuid : String}
  {format : CharFormat}

theorem writeChar_of_mismatch {value : CharValue} (hchar : chars aid iid = some (uuid, format))
    (h : ¬ format.Admits value) (s : BleState) :
    writeChar P a chars aid iid value s = .ret (.error formatMismatch, s) := by
  cases hvalue : encodeValue format value with
  | ok bytes => exact absurd (admits_of_encodeValue hvalue) h
  | error e =>
    obtain rfl := encodeValue_error hvalue
    rw [writeChar, hchar]
    dsimp only
    rw [hvalue, bind_apply]
    rfl

theorem readChar_ok (hchar : chars aid iid = some (uuid, format)) {s t : BleState}
    {answers : List Answer} {value : CharValue}
    (h : (readChar P a chars aid iid s).outcome answers = some (.ok value, t)) :
    ∃ before last u resp, answers = before ++ last ∧
      (requestSecure P uuid .characteristicRead u.tid (UInt16.ofNat iid.toNat) [] a.fragSize
        u).outcome last = some (.ok resp, t) ∧
      readValue format resp.body = .ok value := by
  rw [readChar, hchar] at h
  obtain ⟨before, rest, raw, u, rfl, hraw, hrest⟩ := BleM.outcome_bind_ok.mp h
  obtain ⟨rfl, heq⟩ := Dialogue.outcome_ret_nil hrest
  obtain ⟨hvalue, rfl⟩ := Prod.mk.inj heq
  unfold readCharRaw at hraw
  split_ifs at hraw
  · obtain ⟨before, last, v, resp, rfl, hrequest, hparam⟩ := readLoop_ok hraw
    refine ⟨before, last, v, resp, List.append_nil _, hrequest, ?_⟩
    rw [readValue, hparam, ok_bind, hvalue]
  · cases Dialogue.outcome_ret hraw

variable (aid iid) in
/-- What is written to a characteristic is what is read from it, for every value of its format
but a float; any other value is rejected before anything is sent. A value that is read is
always made of the body of a response in this way. -/
theorem written_value_reads_back (hchar : chars aid iid = some (uuid, format)) (value : CharValue) :
    (∀ bytes, format ≠ .float → encodeValue format value = .ok bytes →
      ∃ kept, keptValue (encodeWriteBody bytes) = some kept ∧
        ∀ before after, (∀ i ∈ before, i.toItem.1 ≠ Param.value) →
          readValue format (readBody before kept after) = .ok value) ∧
    ((∃ bytes, encodeValue format value = .ok bytes) ↔ format.Admits value) ∧
    (¬ format.Admits value →
      ∀ s, writeChar P a chars aid iid value s = .ret (.error formatMismatch, s)) ∧
    ∀ s answers v t, (readChar P a chars aid iid s).outcome answers = some (.ok v, t) →
      ∃ before last u resp, answers = before ++ last ∧
        (requestSecure P uuid .characteristicRead u.tid (UInt16.ofNat iid.toNat) [] a.fragSize
          u).outcome last = some (.ok resp, t) ∧
        readValue format resp.body = .ok v := by
  refine ⟨?_, encodeValue_ok_iff, writeChar_of_mismatch P a chars hchar,
    fun s answers v t => readChar_ok P a chars hchar⟩
  intro bytes hfloat hbytes
  refine ⟨bytes, keptValue_encodeWriteBody bytes, ?_⟩
  intro before after hbefore
  rw [readValue, valueParam_readBody bytes hbefore, ok_bind, decodeValue_encodeValue hbytes hfloat]

end

theorem written_text_reads_back :
    ∃ kept, keptValue (encodeWriteBody (asBytes (String.ofList (List.replicate 765 'x')))) =
        some kept ∧
      readValue .string (readBody [] kept []) =
        .ok (.str (String.ofList (List.replicate 765 'x'))) := by
  obtain ⟨hback, -⟩ := written_value_reads_back plainPrimitives sampleAccessory
    (fun _ _ => some ("25", .string)) 1 9 rfl (.str (String.ofList (List.replicate 765 'x')))
  obtain ⟨kept, hkept, hread⟩ := hback _ (by decide) rfl
  exact ⟨kept, hkept, hread [] [] (by simp)⟩

end HapRust.Ble
