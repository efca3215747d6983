import HapRust.Lib.Framing
import HapRust.Thread.Session
import HapRust.Tlv8.RoundTrip

/-! The controller's codec for PDUs over CoAP. The length field is always there,
so that PDUs can be written one after the other; those of a batch are numbered by
their transaction ids. -/

namespace HapRust.Thread
open Lib Tlv8

inductive OpCode where
  | charSigRead
  | charWrite
  | charRead
  | charTimedWrite
  | charExecWrite
  | servSigRead
  | readDatabase
  | subscribe
  | unsubscribe
  deriving DecidableEq, Repr

def OpCode.toByte : OpCode → UInt8
  | charSigRead => 0x01
  | charWrite => 0x02
  | charRead => 0x03
  | charTimedWrite => 0x04
  | charExecWrite => 0x05
  | servSigRead => 0x06
  | readDatabase => 0x09
  | subscribe => 0x0B
  | unsubscribe => 0x0C

def paramValue : UInt8 := 0x01

def encodeRequest (op : OpCode) (tid : UInt8) (iid : UInt16) (body : Bytes) : Bytes :=
  [0x00, op.toByte, tid] ++ leBytes 2 iid.toNat ++ leBytes 2 (min body.length 65535) ++ body

def tidOf (idx : Nat) : UInt8 := UInt8.ofNat (min idx 255)

def encodeAll (op : OpCode) (entries : List (UInt16 × Bytes)) : Bytes :=
  entries.zipIdx.flatMap fun p => encodeRequest op (tidOf p.2) p.1.1 p.1.2

def encodeValueBody (value : Bytes) : Bytes := Tlv8Writer.push [] paramValue value

def bodyValue (body : Bytes) : Except ThreadError Bytes :=
  if body = [] then .ok []
  else do
    let map ← mapErr ThreadError.tlv8 (Tlv8Map.parse body)
    return (map.get paramValue).getD []

structure Response where
  tid : UInt8
  status : UInt8
  body : Bytes
  deriving DecidableEq

def Response.value (r : Response) : Except ThreadError Bytes := bodyValue r.body

def decodeOne : Bytes → Except ThreadError (Response × Bytes)
  | control :: tid :: status :: len0 :: len1 :: tail =>
    if control &&& 0x0e ≠ 0x02 then
      .error (.malformedPdu "control byte does not have the response bit set")
    else
      let len := leNat [len0, len1]
      if tail.length < len then .error (.malformedPdu "response body shorter than declared")
      else .ok (⟨tid, status, tail.take len⟩, tail.drop len)
  | _ => .error (.malformedPdu "response shorter than its 5-byte header")

theorem length_of_decodeOne {pdu rest : Bytes} {r : Response} (h : decodeOne pdu = .ok (r, rest)) :
    rest.length < pdu.length := by
  unfold decodeOne at h
  split at h
  · dsimp only at h
    split_ifs at h
    obtain ⟨-, rfl⟩ := Prod.mk.inj (Except.ok.inj h)
    simp only [List.length_drop, List.length_cons]
    omega
  · cases h

def misnumbered : ThreadError :=
  .malformedPdu "batched response transaction id does not match its position"

def responseDecoder : Decoder Nat ThreadError Response UInt8 where
  next idx pdu :=
    if pdu = [] then .more
    else match decodeOne pdu with
      | .error e => .fail e
      | .ok (resp, rest) => if resp.tid = tidOf idx then .item resp (idx + 1) rest else .fail misnumbered
  shrinks {idx pdu a idx' rest} h := by
    split_ifs at h
    split at h
    · cases h
    · next resp rest' hone =>
      split_ifs at h
      injection h with _ _ hrest
      subst hrest
      exact length_of_decodeOne hone

def decodeAll (pdu : Bytes) : Except ThreadError (List Response) :=
  (responseDecoder.drain 0 pdu).result

abbrev Event := UInt16 × Bytes

def decodeEvent : Bytes → Except ThreadError (Event × Bytes)
  | _ :: iid0 :: iid1 :: len0 :: len1 :: tail =>
    let len := leNat [len0, len1]
    if tail.length < len then .error (.malformedPdu "event record body shorter than declared")
    else do
      let value ← bodyValue (tail.take len)
      return ((UInt16.ofNat (leNat [iid0, iid1]), value), tail.drop len)
  | _ => .error (.malformedPdu "event record shorter than its 5-byte header")

theorem length_of_decodeEvent {payload rest : Bytes} {e : Event}
    (h : decodeEvent payload = .ok (e, rest)) : rest.length < payload.length := by
  unfold decodeEvent at h
  split at h
  · dsimp only at h
    split_ifs at h
    obtain ⟨value, -, h⟩ := bind_eq_ok.mp h
    obtain ⟨-, rfl⟩ := Prod.mk.inj (Except.ok.inj h)
    simp only [List.length_drop, List.length_cons]
    omega
  · cases h

def eventDecoder : Decoder Unit ThreadError Event UInt8 where
  next _ payload :=
    if payload = [] then .more
    else match decodeEvent payload with
      | .error e => .fail e
      | .ok (event, rest) => .item event () rest
  shrinks {_ payload a _ rest} h := by
    split_ifs at h
    split at h
    · cases h
    · next event rest' hone =>
      injection h with _ _ hrest
      subst hrest
      exact length_of_decodeEvent hone

def decodeEvents (payload : Bytes) : Except ThreadError (List Event) :=
  (eventDecoder.drain () payload).result

/-! ## What the decoders read -/

theorem leNat_field {n : Nat} (h : n ≤ 65535) : leNat (leBytes 2 n) = n := by
  rw [leNat_leBytes]
  exact Nat.mod_eq_of_lt (by omega)

theorem leBytes_two (n : Nat) : leBytes 2 n = [UInt8.ofNat n, UInt8.ofNat (n / 256)] := rfl

theorem ofNat_leNat_field (n : UInt16) : UInt16.ofNat (leNat (leBytes 2 n.toNat)) = n := by
  rw [leNat_field (Nat.le_of_lt_succ n.toNat_lt), UInt16.ofNat_toNat]

theorem parse_encodeValueBody (value : Bytes) :
    Tlv8Map.parse (encodeValueBody value) = .ok ⟨[(paramValue, value)]⟩ := by
  rw [encodeValueBody, push_nil]
  exact Tlv8Map.parse_writeTlv rfl

@[simp] theorem bodyValue_encodeValueBody (value : Bytes) :
    bodyValue (encodeValueBody value) = .ok value := by
  have hne : encodeValueBody value ≠ [] := by
    rw [encodeValueBody, Tlv8Writer.push_eq, List.nil_append, Tlv8Writer.run]
    split_ifs <;> exact List.cons_ne_nil _ _
  rw [bodyValue, if_neg hne, parse_encodeValueBody, mapErr_ok, ok_bind]
  rfl

theorem length_encodeValueBody (value : Bytes) :
    (encodeValueBody value).length = value.length + 2 * (value.length / 255 + 1) := by
  rw [encodeValueBody, Tlv8Writer.push_eq, List.nil_append, Tlv8Writer.length_run]

structure ResponsePdu where
  control : UInt8
  response : Response
  isResponse : control &&& 0x0e = 0x02
  fits : response.body.length ≤ 65535

namespace ResponsePdu

def bytes (p : ResponsePdu) : Bytes :=
  [p.control, p.response.tid, p.response.status] ++ leBytes 2 p.response.body.length ++ p.response.body

theorem decodeOne_bytes (p : ResponsePdu) (rest : Bytes) :
    decodeOne (p.bytes ++ rest) = .ok (p.response, rest) := by
  have hlen := leNat_field p.fits
  rw [leBytes_two] at hlen
  simp only [bytes, leBytes_two, List.cons_append, List.nil_append, decodeOne, p.isResponse, ne_eq,
    not_true_eq_false, if_false, hlen, List.length_append, List.take_left, List.drop_left]
  rw [if_neg (by omega)]

theorem exists_of_decodeOne {pdu rest : Bytes} {r : Response} (h : decodeOne pdu = .ok (r, rest)) :
    ∃ p : ResponsePdu, p.response = r ∧ pdu = p.bytes ++ rest := by
  unfold decodeOne at h
  split at h
  · next control tid status len0 len1 tail =>
    dsimp only at h
    split_ifs at h with hcontrol hlen
    obtain ⟨rfl, rfl⟩ := Prod.mk.inj (Except.ok.inj h)
    have hle : leNat [len0, len1] ≤ tail.length := Nat.le_of_not_lt hlen
    have htake : (tail.take (leNat [len0, len1])).length = leNat [len0, len1] :=
      List.length_take_of_le hle
    refine ⟨⟨control, ⟨tid, status, _⟩, not_not.mp hcontrol, ?_⟩, rfl, ?_⟩
    · have hlt := leNat_lt [len0, len1]
      rw [htake]
      simp only [List.length_cons, List.length_nil] at hlt
      omega
    · have hfield : leBytes 2 (leNat [len0, len1]) = [len0, len1] := leBytes_leNat [len0, len1]
      simp only [bytes, htake, hfield, List.cons_append, List.nil_append, List.take_append_drop]
  · cases h

/-- The PDUs carry the transaction ids of a batch, from position `idx` on. -/
def Numbered (idx : Nat) (pdus : List ResponsePdu) : Prop :=
  pdus.map (·.response.tid) = (List.range' idx pdus.length).map tidOf

instance (idx : Nat) (pdus : List ResponsePdu) : Decidable (Numbered idx pdus) :=
  inferInstanceAs (Decidable (_ = _))

theorem bytes_ne_nil (p : ResponsePdu) : p.bytes ≠ [] := List.cons_ne_nil _ _

theorem numbered_cons {idx : Nat} {p : ResponsePdu} {pdus : List ResponsePdu} :
    Numbered idx (p :: pdus) ↔ p.response.tid = tidOf idx ∧ Numbered (idx + 1) pdus := by
  simp only [Numbered, List.map_cons, List.length_cons, List.range'_succ, List.cons.injEq]

theorem next_bytes (idx : Nat) (p : ResponsePdu) (rest : Bytes) :
    responseDecoder.next idx (p.bytes ++ rest) =
      if p.response.tid = tidOf idx then .item p.response (idx + 1) rest else .fail misnumbered := by
  have hne : p.bytes ++ rest ≠ [] := by simp [p.bytes_ne_nil]
  simp only [responseDecoder, if_neg hne, p.decodeOne_bytes]

theorem drain_flatMap_bytes (idx : Nat) (pdus : List ResponsePdu) :
    (responseDecoder.drain idx (pdus.flatMap bytes)).result =
      if Numbered idx pdus then .ok (pdus.map response) else .error misnumbered := by
  induction pdus generalizing idx with
  | nil => rfl
  | cons p pdus ih =>
    have hnext := next_bytes idx p (pdus.flatMap bytes)
    rw [List.flatMap_cons]
    by_cases htid : p.response.tid = tidOf idx
    · rw [if_pos htid] at hnext
      rw [Decoder.result_item hnext, ih]
      simp only [numbered_cons, htid, true_and, List.map_cons]
      split_ifs <;> rfl
    · rw [if_neg htid] at hnext
      rw [Decoder.drain_fail hnext, if_neg fun h => htid (numbered_cons.mp h).1]
      rfl

theorem decodeAll_flatMap_bytes (pdus : List ResponsePdu) :
    decodeAll (pdus.flatMap bytes) =
      if Numbered 0 pdus then .ok (pdus.map response) else .error misnumbered :=
  drain_flatMap_bytes 0 pdus

theorem exists_of_drain (idx : Nat) (payload : Bytes)
    (h : (responseDecoder.drain idx payload).failed = none) :
    ∃ pdus : List ResponsePdu, payload = pdus.flatMap bytes := by
  refine Decoder.exists_flatMap_of_drain ?_ ?_ h
  · intro idx payload hmore
    simp only [responseDecoder] at hmore
    split_ifs at hmore with hnil
    · exact hnil
    · split at hmore
      · cases hmore
      · split_ifs at hmore
  · intro idx payload r idx' rest hitem
    simp only [responseDecoder] at hitem
    split_ifs at hitem
    split at hitem
    · cases hitem
    · next hone =>
      split_ifs at hitem
      injection hitem with _ _ hrest
      obtain ⟨p, -, hp⟩ := exists_of_decodeOne hone
      exact ⟨p, by rw [hp, hrest]⟩

/-- What `decode_all` accepts is a numbered batch of response PDUs, and it returns them all. -/
theorem decodeAll_eq_ok {payload : Bytes} {rs : List Response} :
    decodeAll payload = .ok rs ↔
      ∃ pdus : List ResponsePdu, payload = pdus.flatMap bytes ∧ Numbered 0 pdus ∧
        pdus.map response = rs := by
  constructor
  · intro h
    obtain ⟨pdus, rfl⟩ := exists_of_drain 0 payload (Drained.failed_of_result h)
    rw [decodeAll_flatMap_bytes] at h
    split_ifs at h with hnum
    exact ⟨pdus, rfl, hnum, Except.ok.inj h⟩
  · rintro ⟨pdus, rfl, hnum, rfl⟩
    rw [decodeAll_flatMap_bytes, if_pos hnum]

end ResponsePdu
end HapRust.Thread
