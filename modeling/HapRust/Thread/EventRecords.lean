import HapRust.Thread.Pdu

/-! Streams of event records. A record announces its length, so that records can be written
one after the other, and a stream is accepted only if it ends where a record ends. -/

namespace HapRust.Thread
open Lib

structure EventRecord where
  reserved : UInt8
  iid : UInt16
  body : Bytes
  fits : body.length ≤ 65535

section
variable {payload rest : Bytes} {event : Event}

theorem decodeEvents_nil : decodeEvents [] = .ok [] := rfl

theorem decodeEvents_error {e : ThreadError} (hne : payload ≠ [])
    (h : decodeEvent payload = .error e) : decodeEvents payload = .error e := by
  have hnext : eventDecoder.next () payload = .fail e := by
    simp only [eventDecoder, if_neg hne, h]
  rw [decodeEvents, Decoder.drain_fail hnext]
  rfl

theorem decodeEvents_ok (hne : payload ≠ []) (h : decodeEvent payload = .ok (event, rest)) :
    decodeEvents payload = (decodeEvents rest).map (event :: ·) := by
  have hnext : eventDecoder.next () payload = .item event () rest := by
    simp only [eventDecoder, if_neg hne, h]
  rw [decodeEvents, Decoder.result_item hnext]
  rfl

end

namespace EventRecord

def bytes (r : EventRecord) : Bytes :=
  [r.reserved] ++ leBytes 2 r.iid.toNat ++ leBytes 2 r.body.length ++ r.body

def event (r : EventRecord) : Except ThreadError Event := (bodyValue r.body).map fun v => (r.iid, v)

theorem bytes_ne_nil (r : EventRecord) : r.bytes ≠ [] := List.cons_ne_nil _ _

theorem decodeEvent_bytes (r : EventRecord) (rest : Bytes) :
    decodeEvent (r.bytes ++ rest) = r.event.map fun e => (e, rest) := by
  have hlen := leNat_field r.fits
  have hiid := ofNat_leNat_field r.iid
  rw [leBytes_two] at hlen hiid
  simp only [bytes, leBytes_two, List.cons_append, List.nil_append, decodeEvent, hlen, hiid,
    List.length_append, List.take_left, List.drop_left]
  rw [if_neg (by omega), event]
  cases bodyValue r.body <;> rfl

theorem exists_of_decodeEvent {payload rest : Bytes} {e : Event}
    (h : decodeEvent payload = .ok (e, rest)) : ∃ r : EventRecord, payload = r.bytes ++ rest := by
  unfold decodeEvent at h
  split at h
  · next reserved iid0 iid1 len0 len1 tail =>
    dsimp only at h
    split_ifs at h with hlen
    obtain ⟨value, -, h⟩ := bind_eq_ok.mp h
    obtain ⟨-, rfl⟩ := Prod.mk.inj (Except.ok.inj h)
    have htake : (tail.take (leNat [len0, len1])).length = leNat [len0, len1] :=
      List.length_take_of_le (Nat.le_of_not_lt hlen)
    have hlt := leNat_lt [len0, len1]
    have hlt' := leNat_lt [iid0, iid1]
    simp only [List.length_cons, List.length_nil] at hlt hlt'
    refine ⟨⟨reserved, UInt16.ofNat (leNat [iid0, iid1]), tail.take (leNat [len0, len1]), ?_⟩, ?_⟩
    · rw [htake]
      omega
    · have hfield : leBytes 2 (leNat [len0, len1]) = [len0, len1] := leBytes_leNat [len0, len1]
      have hiid : (UInt16.ofNat (leNat [iid0, iid1])).toNat = leNat [iid0, iid1] := by
        rw [UInt16.toNat_ofNat']
        exact Nat.mod_eq_of_lt hlt'
      have hfield' : leBytes 2 (leNat [iid0, iid1]) = [iid0, iid1] := leBytes_leNat [iid0, iid1]
      simp only [bytes, htake, hfield, hiid, hfield', List.cons_append, List.nil_append,
        List.take_append_drop]
  · cases h

theorem decodeEvents_bytes (r : EventRecord) (rest : Bytes) :
    decodeEvents (r.bytes ++ rest) = do
      let e ← r.event
      let es ← decodeEvents rest
      return e :: es := by
  have hne : r.bytes ++ rest ≠ [] := List.append_ne_nil_of_left_ne_nil r.bytes_ne_nil rest
  have hone := r.decodeEvent_bytes rest
  cases hevent : r.event with
  | error e =>
    rw [hevent] at hone
    rw [decodeEvents_error hne hone]
    rfl
  | ok e =>
    rw [hevent] at hone
    rw [decodeEvents_ok hne hone, ok_bind]
    cases decodeEvents rest <;> rfl

theorem decodeEvents_flatMap_bytes (records : List EventRecord) :
    decodeEvents (records.flatMap bytes) = records.mapM event := by
  induction records with
  | nil => rfl
  | cons r records ih => rw [List.flatMap_cons, decodeEvents_bytes, ih, List.mapM_cons]

theorem exists_of_decodeEvents {payload : Bytes} {events : List Event}
    (h : decodeEvents payload = .ok events) :
    ∃ records : List EventRecord, payload = records.flatMap bytes := by
  have hnone : (eventDecoder.drain () payload).failed = none := Drained.failed_of_result h
  refine Decoder.exists_flatMap_of_drain ?_ ?_ hnone
  · intro _ payload hmore
    simp only [eventDecoder] at hmore
    split_ifs at hmore with hnil
    · exact hnil
    · split at hmore <;> cases hmore
  · intro _ payload e _ rest hitem
    simp only [eventDecoder] at hitem
    split_ifs at hitem
    split at hitem
    · cases hitem
    · next hone =>
      injection hitem with _ _ hrest
      subst hrest
      exact exists_of_decodeEvent hone

theorem decodeEvents_eq_ok {payload : Bytes} {events : List Event} :
    decodeEvents payload = .ok events ↔
      ∃ records : List EventRecord, payload = records.flatMap bytes ∧
        records.mapM event = .ok events := by
  constructor
  · intro h
    obtain ⟨records, rfl⟩ := exists_of_decodeEvents h
    rw [decodeEvents_flatMap_bytes] at h
    exact ⟨records, rfl, h⟩
  · rintro ⟨records, rfl, h⟩
    rw [decodeEvents_flatMap_bytes, h]

/-! ## A record that breaks off -/

theorem decodeEvent_truncated (r : EventRecord) {front : Bytes} (hfront : front <+: r.bytes)
    (hproper : front ≠ r.bytes) : ∃ e, decodeEvent front = .error e := by
  cases hone : decodeEvent front with
  | error e => exact ⟨e, rfl⟩
  | ok x =>
    obtain ⟨e, rest⟩ := x
    obtain ⟨more, hmore⟩ := hfront
    obtain ⟨r', rfl⟩ := exists_of_decodeEvent hone
    rw [decodeEvent_bytes] at hone
    have hshort := r'.decodeEvent_bytes (rest ++ more)
    rw [← List.append_assoc, hmore, ← List.append_nil r.bytes, decodeEvent_bytes] at hshort
    cases hevent' : r'.event with
    | error e' =>
      rw [hevent'] at hone
      cases hone
    | ok e' =>
      rw [hevent'] at hshort
      cases hevent : r.event with
      | error e'' =>
        rw [hevent] at hshort
        cases hshort
      | ok e'' =>
        rw [hevent] at hshort
        obtain ⟨-, hnil⟩ := Prod.mk.inj (Except.ok.inj hshort)
        obtain ⟨-, rfl⟩ := List.append_eq_nil_iff.mp hnil.symm
        exact absurd ((List.append_nil _).symm.trans hmore) hproper

theorem decodeEvents_truncated (records : List EventRecord) (r : EventRecord) {front : Bytes}
    (hne : front ≠ []) (hfront : front <+: r.bytes) (hproper : front ≠ r.bytes) :
    ∃ e, decodeEvents (records.flatMap bytes ++ front) = .error e := by
  induction records with
  | nil =>
    obtain ⟨e, he⟩ := r.decodeEvent_truncated hfront hproper
    exact ⟨e, decodeEvents_error hne he⟩
  | cons r' records ih =>
    obtain ⟨e, he⟩ := ih
    rw [List.flatMap_cons, List.append_assoc, decodeEvents_bytes, he]
    cases r'.event with
    | error e' => exact ⟨e', rfl⟩
    | ok event => exact ⟨e, rfl⟩

end EventRecord

/-! ## The loop over the payload -/

/-- `decode_events` as it is written, over an offset into the payload; after so many rounds
it is given up. -/
def eventLoop (payload : Bytes) : Nat → Nat → List Event → Option (Except ThreadError (List Event))
  | 0, _, _ => none
  | rounds + 1, off, out =>
    if off < payload.length then
      let rest := payload.drop off
      if rest.length < 5 then
        some (.error (.malformedPdu "event record shorter than its 5-byte header"))
      else
        let iid := UInt16.ofNat (leNat ((rest.drop 1).take 2))
        let len := leNat ((rest.drop 3).take 2)
        let stop := 5 + len
        if rest.length < stop then
          some (.error (.malformedPdu "event record body shorter than declared"))
        else
          match bodyValue ((rest.drop 5).take len) with
          | .error e => some (.error e)
          | .ok value => eventLoop payload rounds (off + stop) (out ++ [(iid, value)])
    else some (.ok out)

theorem eventLoop_succ (payload : Bytes) (rounds off : Nat) (out : List Event)
    (hoff : off < payload.length) :
    eventLoop payload (rounds + 1) off out =
      match decodeEvent (payload.drop off) with
      | .error e => some (.error e)
      | .ok (event, rest) => eventLoop payload rounds (payload.length - rest.length) (out ++ [event]) := by
  have hlength : (payload.drop off).length = payload.length - off := List.length_drop
  rw [eventLoop, if_pos hoff]
  dsimp only
  generalize payload.drop off = rest at hlength
  match rest with
  | [] | [_] | [_, _] | [_, _, _] | [_, _, _, _] => rfl
  | reserved :: iid0 :: iid1 :: len0 :: len1 :: tail =>
    simp only [List.length_cons] at hlength
    simp only [List.length_cons, List.drop_succ_cons, List.drop_zero, List.take_succ_cons,
      List.take_zero, decodeEvent]
    rw [if_neg (by omega)]
    by_cases hlen : tail.length < leNat [len0, len1]
    · rw [if_pos hlen, if_pos (by omega)]
    · rw [if_neg hlen, if_neg (by omega)]
      cases bodyValue (tail.take (leNat [len0, len1])) with
      | error e => rfl
      | ok value =>
        have hnext : payload.length - (tail.drop (leNat [len0, len1])).length =
            off + (5 + leNat [len0, len1]) := by
          rw [List.length_drop]
          omega
        rw [ok_bind, pure_eq_ok]
        dsimp only
        rw [hnext]

theorem eventLoop_eq (payload : Bytes) {rounds off : Nat} (out : List Event)
    (hrounds : payload.length - off < rounds) :
    eventLoop payload rounds off out = some ((decodeEvents (payload.drop off)).map (out ++ ·)) := by
  induction rounds generalizing off out with
  | zero => omega
  | succ rounds ih =>
    by_cases hoff : off < payload.length
    · have hne : payload.drop off ≠ [] := by simpa using hoff
      rw [eventLoop_succ payload rounds off out hoff]
      cases hone : decodeEvent (payload.drop off) with
      | error e =>
        rw [decodeEvents_error hne hone]
        rfl
      | ok x =>
        obtain ⟨event, rest⟩ := x
        have hshort := length_of_decodeEvent hone
        obtain ⟨r, hr⟩ := EventRecord.exists_of_decodeEvent hone
        have hsuffix : rest <:+ payload := by
          refine (List.suffix_append r.bytes rest).trans ?_
          rw [← hr]
          exact List.drop_suffix off payload
        have hrest := List.suffix_iff_eq_drop.mp hsuffix
        rw [List.length_drop] at hshort
        dsimp only
        rw [ih _ (by omega), ← hrest, decodeEvents_ok hne hone]
        cases decodeEvents rest with
        | error e => rfl
        | ok events =>
          simp only [Except.map, List.append_assoc, List.singleton_append]
    · rw [eventLoop, if_neg hoff, List.drop_of_length_le (by omega), decodeEvents_nil]
      simp only [Except.map, List.append_nil]

end HapRust.Thread
