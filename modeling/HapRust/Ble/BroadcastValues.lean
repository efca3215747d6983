import HapRust.Ble.Sleepy
import HapRust.Lib.TextRoundTrip

/-! A change reaches a watch by a broadcast, which carries the value in a field of eight bytes
with zeros behind it, or by a poll, which reads the value itself. Both decode what they have by
the format of the characteristic. -/

namespace HapRust.Ble
open Lib

def CharFormat.width : CharFormat → Option Nat
  | .bool | .uint8 => some 1
  | .uint16 => some 2
  | .uint32 | .int | .float => some 4
  | .uint64 => some 8
  | .string | .tlv8 | .data => none

/-- The value leaves no room for zeros that would be decoded with it. -/
def CharFormat.Fills (format : CharFormat) (raw : Bytes) : Prop :=
  match format.width with
  | some n => n ≤ raw.length
  | none => raw.length = 8

def valueField (raw : Bytes) : Bytes := raw ++ List.replicate (8 - raw.length) 0

def broadcastPlaintext (gsn iid : UInt16) (raw : Bytes) : Bytes :=
  leBytes 2 gsn.toNat ++ leBytes 2 iid.toNat ++ valueField raw

section
variable {format : CharFormat} {raw : Bytes} {n : Nat}

theorem length_valueField (h : raw.length ≤ 8) : (valueField raw).length = 8 := by
  rw [valueField, List.length_append, List.length_replicate]
  omega

/-! ## Values of a fixed width -/

theorem CharFormat.width_le (h : format.width = some n) : n ≤ 8 := by
  cases format <;> cases h <;> decide

theorem decodeValue_of_width (h : format.width = some n) :
    ∃ value : Nat → CharValue, ∀ raw, decodeValue raw format = (need raw n).map value := by
  cases format <;> cases h
  case bool => exact ⟨fun m => .bool (m != 0), fun raw => rfl⟩
  case uint8 => exact ⟨fun m => .uint (UInt64.ofNat m), fun raw => rfl⟩
  case uint16 => exact ⟨fun m => .uint (UInt64.ofNat m), fun raw => rfl⟩
  case uint32 => exact ⟨fun m => .uint (UInt64.ofNat m), fun raw => rfl⟩
  case uint64 => exact ⟨fun m => .uint (UInt64.ofNat m), fun raw => rfl⟩
  case int =>
    exact ⟨fun m => .int (Int64.ofInt (if m < 2 ^ 31 then m else m - 2 ^ 32)), fun raw => rfl⟩
  case float => exact ⟨fun m => .float (Float32.ofBits (UInt32.ofNat m)).toFloat, fun raw => rfl⟩

theorem decodeValue_fixed_iff (hraw : raw.length ≤ 8) (h : format.width = some n) :
    decodeValue (valueField raw) format = decodeValue raw format ↔ n ≤ raw.length := by
  obtain ⟨value, hvalue⟩ := decodeValue_of_width h
  have hle : n ≤ (valueField raw).length := by
    rw [length_valueField hraw]
    exact CharFormat.width_le h
  rw [hvalue, hvalue, need_of_le hle]
  by_cases hn : n ≤ raw.length
  · rw [need_of_le hn, valueField, List.take_append_of_le_length hn]
    exact iff_of_true rfl hn
  · rw [need_of_lt (by omega)]
    refine iff_of_false ?_ hn
    intro heq
    cases heq

/-! ## Texts and bytes -/

theorem CharFormat.eq_of_width_none (h : format.width = none) :
    format = .string ∨ format = .tlv8 ∨ format = .data := by
  cases format <;> cases h
  · exact .inl rfl
  · exact .inr (.inl rfl)
  · exact .inr (.inr rfl)

theorem valueField_eq_iff (hraw : raw.length ≤ 8) : valueField raw = raw ↔ raw.length = 8 := by
  constructor
  · intro heq
    rw [← length_valueField hraw, heq]
  · intro hlength
    rw [valueField, hlength]
    exact List.append_nil raw

theorem fromUtf8Lossy_valueField_iff (hraw : raw.length ≤ 8) :
    fromUtf8Lossy (valueField raw) = fromUtf8Lossy raw ↔ raw.length = 8 := by
  constructor
  · intro heq
    have hlength : (fromUtf8Lossy (valueField raw)).toList.length =
        (fromUtf8Lossy raw).toList.length := by
      rw [heq]
    rw [valueField, fromUtf8Lossy_append_zeros, List.length_append, List.length_replicate]
      at hlength
    omega
  · intro hlength
    rw [(valueField_eq_iff hraw).2 hlength]

theorem decodeValue_valueField_iff (hraw : raw.length ≤ 8) :
    decodeValue (valueField raw) format = decodeValue raw format ↔ format.Fills raw := by
  cases hwidth : format.width with
  | some n =>
    rw [decodeValue_fixed_iff hraw hwidth, CharFormat.Fills, hwidth]
  | none =>
    rw [CharFormat.Fills, hwidth]
    obtain rfl | rfl | rfl := CharFormat.eq_of_width_none hwidth
    · rw [decodeValue, decodeValue, Except.ok.injEq, CharValue.str.injEq]
      exact fromUtf8Lossy_valueField_iff hraw
    · rw [decodeValue, decodeValue, Except.ok.injEq, CharValue.bytes.injEq]
      exact valueField_eq_iff hraw
    · rw [decodeValue, decodeValue, Except.ok.injEq, CharValue.bytes.injEq]
      exact valueField_eq_iff hraw

theorem decodeValue_valueField_ok (format : CharFormat) (hraw : raw.length ≤ 8) :
    ∃ value, decodeValue (valueField raw) format = .ok value := by
  cases hwidth : format.width with
  | some n =>
    obtain ⟨value, hvalue⟩ := decodeValue_of_width hwidth
    have hle : n ≤ (valueField raw).length := by
      rw [length_valueField hraw]
      exact CharFormat.width_le hwidth
    rw [hvalue, need_of_le hle]
    exact ⟨_, rfl⟩
  | none =>
    obtain rfl | rfl | rfl := CharFormat.eq_of_width_none hwidth
    · exact ⟨_, rfl⟩
    · exact ⟨_, rfl⟩
    · exact ⟨_, rfl⟩

end

/-! ## The events of the two paths -/

def AdvertPhase.event : AdvertPhase → Option (UInt16 × CharacteristicEvent)
  | .emitting gsn iid value => some (gsn, ⟨1, iid, value⟩)
  | _ => none

def PollPhase.event : PollPhase → Option (UInt16 × CharacteristicEvent)
  | .emitting gsn target value _ => some (gsn, ⟨target.aid, target.iid, value⟩)
  | _ => none

theorem goOn_event (gsn : UInt16) (targets : List Target) :
    (Watch.goOn gsn targets).event = none := by
  cases targets <;> rfl

section
variable {H : SleepyHandle} {w v : Watch} {gsn iid : UInt16} {uuid : String} {format : CharFormat}
  {raw : Bytes}

theorem broadcastIid_broadcastPlaintext (gsn iid : UInt16) (raw : Bytes) :
    broadcastIid (broadcastPlaintext gsn iid raw) = iid.toUInt64 := by
  have hdrop : (broadcastPlaintext gsn iid raw).drop 2 = leBytes 2 iid.toNat ++ valueField raw := by
    rw [broadcastPlaintext, List.append_assoc]
    exact List.drop_left' (leBytes_length 2 gsn.toNat)
  rw [broadcastIid, hdrop, u16Le, List.take_left' (leBytes_length 2 iid.toNat), leNat_leBytes,
    Nat.mod_eq_of_lt (show iid.toNat < 256 ^ 2 from iid.toNat_lt), UInt16.ofNat_toNat]

theorem value_broadcastPlaintext (hraw : raw.length ≤ 8) :
    ((broadcastPlaintext gsn iid raw).drop 4).take 8 = valueField raw := by
  have hlength : (leBytes 2 gsn.toNat ++ leBytes 2 iid.toNat).length = 4 := by
    rw [List.length_append, leBytes_length, leBytes_length]
  rw [broadcastPlaintext, List.drop_left' hlength]
  exact List.take_of_length_le (Nat.le_of_eq (length_valueField hraw))

theorem event_store (s : Shared) {start : UInt16} (hraw : raw.length ≤ 8)
    (hchar : H.chars iid.toUInt64 = some (uuid, format))
    (hw : w.adverts = .storing start gsn (broadcastPlaintext gsn iid raw)) :
    (w.step H s .store).map (·.2.adverts.event) =
      some ((decodeValue (valueField raw) format).toOption.map
        fun value => (gsn, ⟨1, iid.toUInt64, value⟩)) := by
  have hformat : H.formats iid.toUInt64 = some format := by
    rw [SleepyHandle.formats, hchar]
    rfl
  obtain ⟨value, hvalue⟩ := decodeValue_valueField_ok format hraw
  simp only [Watch.step, hw, Watch.decoded, broadcastIid_broadcastPlaintext, hformat,
    value_broadcastPlaintext hraw, hvalue]
  rfl

theorem event_read (s : Shared) {rest : List Target}
    (hw : w.poll = .reading gsn (⟨1, iid.toUInt64, uuid, format⟩ :: rest)) :
    (w.step H s (.read (some raw))).map (·.2.poll.event) =
      some ((decodeValue raw format).toOption.map
        fun value => (gsn, ⟨1, iid.toUInt64, value⟩)) := by
  simp only [Watch.step, hw, Option.bind_some]
  cases decodeValue raw format with
  | error e =>
    dsimp only [Except.toOption, Option.map_some, Option.map_none]
    rw [goOn_event]
  | ok value => rfl

/-- One change is the same event by a broadcast, in one watch, and by a poll, in that or another,
just if no zeros of the broadcast are decoded with the value. -/
theorem broadcast_event_eq_polled_iff (s t : Shared) {start : UInt16} {rest : List Target}
    (hraw : raw.length ≤ 8) (hchar : H.chars iid.toUInt64 = some (uuid, format))
    (hadverts : w.adverts = .storing start gsn (broadcastPlaintext gsn iid raw))
    (hpoll : v.poll = .reading gsn (⟨1, iid.toUInt64, uuid, format⟩ :: rest)) :
    (decodeValue (valueField raw) format = decodeValue raw format ↔ format.Fills raw) ∧
      ((w.step H s .store).map (·.2.adverts.event) =
        (v.step H t (.read (some raw))).map (·.2.poll.event) ↔ format.Fills raw) := by
  refine ⟨decodeValue_valueField_iff hraw, ?_⟩
  rw [event_store s hraw hchar hadverts, event_read t hpoll, ← decodeValue_valueField_iff hraw]
  obtain ⟨value, hvalue⟩ := decodeValue_valueField_ok format hraw
  rw [hvalue]
  cases decodeValue raw format with
  | error e => simp [Except.toOption]
  | ok value' => simp [Except.toOption]

end

def plainHandle (format : CharFormat) : SleepyHandle where
  chars iid := if iid = 9 then some ("25", format) else none
  openBroadcast gsn payload _ := some (broadcastPlaintext gsn 9 payload)

theorem broadcast_event_eq_polled_uint16 :
    ((decodeValue (valueField [0x2C, 0x01]) .uint16 = decodeValue [0x2C, 0x01] .uint16 ↔
        CharFormat.uint16.Fills [0x2C, 0x01]) ∧
      (((⟨constArr 6 0, [], .storing 6 7 (broadcastPlaintext 7 9 [0x2C, 0x01]), 0, false,
              .waiting⟩ : Watch).step (plainHandle .uint16) (.new 6) .store).map
            (·.2.adverts.event) =
          ((⟨constArr 6 0, [], .receiving, 7, false, .reading 7 [⟨1, 9, "25", .uint16⟩]⟩ :
              Watch).step (plainHandle .uint16) (.new 7) (.read (some [0x2C, 0x01]))).map
            (·.2.poll.event) ↔
        CharFormat.uint16.Fills [0x2C, 0x01])) ∧
      CharFormat.uint16.Fills [0x2C, 0x01] :=
  ⟨broadcast_event_eq_polled_iff _ _ (by decide) rfl rfl rfl, Nat.le_refl 2⟩

def eventsOf (format : CharFormat) (actions : List WatchAction) :
    Option (List (UInt16 × CharacteristicEvent)) :=
  let H := plainHandle format
  (steps (fun p : Shared × Watch => p.2.step H p.1)
    (Shared.new 6, Watch.new H (constArr 6 0) [(1, 9)]) actions).map (·.1.events)

/-- The text "on", of two bytes, has six NULs behind it if it comes by a broadcast. -/
theorem broadcast_text_padded :
    eventsOf .string [.receive (0x11 :: 0x06 :: 0 :: 0 :: 0 :: 0 :: 0 :: 0 :: asBytes "on"),
        .sample, .store, .emit] =
      some [(7, ⟨1, 9, .str "on\x00\x00\x00\x00\x00\x00"⟩)] ∧
    eventsOf .string [.receive [0x06, 0, 0, 0, 0, 0, 0, 0, 0, 0, 0, 7, 0], .compare, .wake,
        .read (some (asBytes "on")), .pollEmit] =
      some [(7, ⟨1, 9, .str "on"⟩)] ∧
    "on\x00\x00\x00\x00\x00\x00" ≠ "on" :=
  ⟨rfl, rfl, by decide⟩

end HapRust.Ble
