import HapRust.Thread.Pdu
import HapRust.ThreadDut.Pdu

/-! The controller's and the accessory's codecs agree on batches of PDUs. -/

namespace HapRust.ThreadDut
open Lib Tlv8

def requestDecoder : Decoder Unit DutError Request UInt8 where
  next _ pdu :=
    if pdu = [] then .more
    else match decodeRequest pdu with
      | .error e => .fail e
      | .ok (req, rest) => .item req () rest
  shrinks {_ pdu a _ rest} h := by
    split_ifs at h
    split at h
    · cases h
    · next req rest' hone =>
      injection h with _ _ hrest
      subst hrest
      unfold decodeRequest at hone
      split at hone
      · dsimp only at hone
        split_ifs at hone
        obtain ⟨-, rfl⟩ := Prod.mk.inj (Except.ok.inj hone)
        simp only [List.length_drop, List.length_cons]
        omega
      · cases hone

theorem requestDecoder_next_of_ok {pdu rest : Bytes} {req : Request} (hne : pdu ≠ [])
    (h : decodeRequest pdu = .ok (req, rest)) : requestDecoder.next () pdu = .item req () rest := by
  simp only [requestDecoder, if_neg hne, h]

theorem decodeRequestsFuel_eq (fuel : Nat) (pdu : Bytes) (h : pdu.length ≤ fuel) :
    decodeRequestsFuel fuel pdu = (requestDecoder.drain () pdu).result := by
  induction fuel generalizing pdu with
  | zero =>
    obtain rfl := List.eq_nil_of_length_eq_zero (Nat.le_zero.mp h)
    rfl
  | succ fuel ih =>
    cases pdu with
    | nil => rfl
    | cons b pdu =>
      rw [decodeRequestsFuel]
      cases hone : decodeRequest (b :: pdu) with
      | error e =>
        have hnext : requestDecoder.next () (b :: pdu) = .fail e := by
          simp only [requestDecoder, if_neg (List.cons_ne_nil b pdu), hone]
        rw [Decoder.drain_fail hnext]
        rfl
      | ok r =>
        obtain ⟨req, rest⟩ := r
        have hnext := requestDecoder_next_of_ok (List.cons_ne_nil b pdu) hone
        have hlt := requestDecoder.shrinks hnext
        rw [Decoder.result_item hnext, ok_bind]
        dsimp only
        rw [ih rest (by omega)]
        cases (requestDecoder.drain () rest).result <;> rfl

theorem decodeRequests_eq (pdu : Bytes) :
    decodeRequests pdu = (requestDecoder.drain () pdu).result :=
  decodeRequestsFuel_eq pdu.length pdu (Nat.le_refl _)

def requestHeader (opcode tid : UInt8) (iid : UInt16) (len : Nat) : Bytes :=
  [0x00, opcode, tid] ++ leBytes 2 iid.toNat ++ leBytes 2 len

theorem decodeRequest_header (opcode tid : UInt8) (iid : UInt16) {len : Nat} (hlen : len ≤ 65535)
    (tail : Bytes) :
    decodeRequest (requestHeader opcode tid iid len ++ tail) =
      if tail.length < len then .error (.protocol "request body shorter than declared")
      else .ok (⟨opcode, tid, iid, tail.take len⟩, tail.drop len) := by
  have hfield := Thread.leNat_field hlen
  have hiid := Thread.ofNat_leNat_field iid
  rw [Thread.leBytes_two] at hfield hiid
  simp only [requestHeader, Thread.leBytes_two, List.cons_append, List.nil_append, decodeRequest,
    hfield, hiid]

theorem decodeRequest_body (opcode tid : UInt8) (iid : UInt16) {body : Bytes}
    (hbody : body.length ≤ 65535) (rest : Bytes) :
    decodeRequest (requestHeader opcode tid iid body.length ++ (body ++ rest)) =
      .ok (⟨opcode, tid, iid, body⟩, rest) := by
  rw [decodeRequest_header opcode tid iid hbody, if_neg (by simp), List.take_left, List.drop_left]

end HapRust.ThreadDut

namespace HapRust.Thread
open Lib ThreadDut

theorem encodeRequest_eq (op : OpCode) (tid : UInt8) (iid : UInt16) (body : Bytes) :
    encodeRequest op tid iid body =
      requestHeader op.toByte tid iid (min body.length 65535) ++ body := rfl

theorem tidOf_of_lt {idx : Nat} (h : idx < 256) : tidOf idx = UInt8.ofNat idx := by
  rw [tidOf, Nat.min_eq_left (by omega)]

theorem decodeRequests_encodeAll (op : OpCode) {entries : List (UInt16 × Bytes)}
    (hbodies : ∀ e ∈ entries, e.2.length ≤ 65535) :
    decodeRequests (encodeAll op entries) =
      .ok (entries.mapIdx fun i e => ⟨op.toByte, tidOf i, e.1, e.2⟩) := by
  have hnext : ∀ p ∈ entries.zipIdx, ∀ rest, requestDecoder.next ()
      (encodeRequest op (tidOf p.2) p.1.1 p.1.2 ++ rest) =
        .item ⟨op.toByte, tidOf p.2, p.1.1, p.1.2⟩ () rest := by
    intro p hp rest
    have hbody := hbodies p.1 (List.fst_mem_of_mem_zipIdx hp)
    apply requestDecoder_next_of_ok
    · exact List.cons_ne_nil _ _
    · rw [encodeRequest_eq, Nat.min_eq_left hbody, List.append_assoc]
      exact decodeRequest_body _ _ _ hbody rest
  rw [decodeRequests_eq, encodeAll, Decoder.drain_flatMap rfl entries.zipIdx hnext,
    List.mapIdx_eq_zipIdx_map]
  rfl

@[simp] theorem extractValue_encodeValueBody (value : Bytes) :
    extractValue (encodeValueBody value) = .ok value := by
  rw [extractValue, parse_encodeValueBody, mapErr_ok, ok_bind]
  rfl

def responsePdu (r : Response) (hbody : r.body.length ≤ 65535) : ResponsePdu :=
  ⟨0x02, r, by decide, hbody⟩

theorem encodeResponse_eq (r : Response) (hbody : r.body.length ≤ 65535) :
    encodeResponse r.tid r.status r.body = (responsePdu r hbody).bytes := by
  rw [encodeResponse, Nat.min_eq_left hbody]
  rfl

theorem exists_pdus {responses : List Response} (hbodies : ∀ r ∈ responses, r.body.length ≤ 65535) :
    ∃ pdus : List ResponsePdu, pdus.map (·.response) = responses ∧
      responses.flatMap (fun r => encodeResponse r.tid r.status r.body) =
        pdus.flatMap ResponsePdu.bytes := by
  induction responses with
  | nil => exact ⟨[], rfl, rfl⟩
  | cons r responses ih =>
    obtain ⟨pdus, rfl, hbytes⟩ := ih fun x hx => hbodies x (List.mem_cons_of_mem r hx)
    have hbody := hbodies r (List.mem_cons_self ..)
    refine ⟨responsePdu r hbody :: pdus, rfl, ?_⟩
    rw [List.flatMap_cons, List.flatMap_cons, encodeResponse_eq r hbody, hbytes]

theorem numbered_of_tids {pdus : List ResponsePdu} {responses : List Response}
    (h : pdus.map (·.response) = responses)
    (htids : responses.map (·.tid) = (List.range responses.length).map tidOf) :
    ResponsePdu.Numbered 0 pdus := by
  subst h
  rw [List.length_map, List.map_map] at htids
  rw [ResponsePdu.Numbered, ← List.range_eq_range']
  exact htids

theorem decodeAll_encodeResponse {responses : List Response}
    (hbodies : ∀ r ∈ responses, r.body.length ≤ 65535)
    (htids : responses.map (·.tid) = (List.range responses.length).map tidOf) :
    decodeAll (responses.flatMap fun r => encodeResponse r.tid r.status r.body) = .ok responses := by
  obtain ⟨pdus, hpdus, hbytes⟩ := exists_pdus hbodies
  rw [hbytes, ResponsePdu.decodeAll_flatMap_bytes, if_pos (numbered_of_tids hpdus htids), hpdus]

theorem tids_of_numbered {pdus : List ResponsePdu} (hlen : pdus.length ≤ 256)
    (h : ResponsePdu.Numbered 0 pdus) :
    pdus.map (·.response.tid.toNat) = List.range pdus.length := by
  have htids := congrArg (List.map UInt8.toNat) h
  rw [List.map_map, List.map_map, ← List.range_eq_range'] at htids
  refine Eq.trans htids ((List.map_congr_left ?_).trans (List.map_id _))
  intro idx hidx
  have hlt : idx < 256 := Nat.lt_of_lt_of_le (List.mem_range.mp hidx) hlen
  rw [Function.comp_apply, tidOf_of_lt hlt, UInt8.toNat_ofNat', Nat.mod_eq_of_lt hlt]
  rfl

theorem codecs_agree (op : OpCode) :
    (∀ entries : List (UInt16 × Bytes), entries.length ≤ 256 →
      (∀ e ∈ entries, e.2.length ≤ 65535) →
      decodeRequests (encodeAll op entries) =
        .ok (entries.mapIdx fun i e => ⟨op.toByte, UInt8.ofNat i, e.1, e.2⟩)) ∧
    (∀ responses : List (UInt8 × Bytes), responses.length ≤ 256 →
      (∀ r ∈ responses, r.2.length ≤ 65535) →
      decodeAll (responses.mapIdx fun i r => encodeResponse (UInt8.ofNat i) r.1 r.2).flatten =
        .ok (responses.mapIdx fun i r => ⟨UInt8.ofNat i, r.1, r.2⟩)) ∧
    ∀ pdus : List ResponsePdu, pdus.length ≤ 256 →
      pdus.map (·.response.tid.toNat) ≠ List.range pdus.length →
      ∃ e, decodeAll (pdus.flatMap ResponsePdu.bytes) = .error e := by
  refine ⟨?_, ?_, ?_⟩
  · intro entries hlen hbodies
    rw [decodeRequests_encodeAll op hbodies]
    refine congrArg Except.ok (List.ext_getElem (by simp) fun i hi _ => ?_)
    rw [List.length_mapIdx] at hi
    rw [List.getElem_mapIdx, List.getElem_mapIdx, tidOf_of_lt (Nat.lt_of_lt_of_le hi hlen)]
  · intro responses hlen hbodies
    have hflat : (responses.mapIdx fun i r => encodeResponse (UInt8.ofNat i) r.1 r.2).flatten =
        (responses.mapIdx fun i r => (⟨UInt8.ofNat i, r.1, r.2⟩ : Response)).flatMap
          fun r => encodeResponse r.tid r.status r.body := by
      rw [List.flatMap_def, List.mapIdx_eq_zipIdx_map, List.mapIdx_eq_zipIdx_map, List.map_map]
      rfl
    rw [hflat]
    apply decodeAll_encodeResponse
    · intro r hr
      obtain ⟨i, hi, rfl⟩ := List.mem_mapIdx.mp hr
      exact hbodies _ (List.getElem_mem hi)
    · refine List.ext_getElem (by simp) fun i hi _ => ?_
      rw [List.length_map, List.length_mapIdx] at hi
      rw [List.getElem_map, List.getElem_mapIdx, List.getElem_map, List.getElem_range,
        tidOf_of_lt (Nat.lt_of_lt_of_le hi hlen)]
  · intro pdus hlen hne
    refine ⟨misnumbered, ?_⟩
    rw [ResponsePdu.decodeAll_flatMap_bytes, if_neg fun h => hne (tids_of_numbered hlen h)]

theorem codecs_agree_pair :
    decodeRequests (encodeAll .charWrite [(9, [1, 1, 1]), (10, [])]) =
      .ok [⟨0x02, 0, 9, [1, 1, 1]⟩, ⟨0x02, 1, 10, []⟩] ∧
    decodeAll (encodeResponse 0 0 [7] ++ encodeResponse 1 4 []) = .ok [⟨0, 0, [7]⟩, ⟨1, 4, []⟩] ∧
    ∃ e, decodeAll (encodeResponse 1 4 [] ++ encodeResponse 0 0 [7]) = .error e := by
  obtain ⟨hrequests, hresponses, hrejected⟩ := codecs_agree .charWrite
  refine ⟨?_, ?_, ?_⟩
  · exact hrequests [(9, [1, 1, 1]), (10, [])] (by decide) (by decide)
  · exact hresponses [(0, [7]), (4, [])] (by decide) (by decide)
  · exact hrejected [⟨0x02, ⟨1, 4, []⟩, by decide, by decide⟩, ⟨0x02, ⟨0, 0, [7]⟩, by decide, by decide⟩]
      (by decide) (by decide)

end HapRust.Thread
