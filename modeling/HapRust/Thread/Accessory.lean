import HapRust.Thread.Coap
import HapRust.Thread.Pdu

/-! The connected accessory: characteristics are read and written by PDUs that are
sealed by the session and posted to the root resource. -/

namespace HapRust.Thread
open Lib Crypto

def CoapError.toThread : CoapError → ThreadError
  | .io => .io
  | .coap msg => .coap msg

def twoDigits (n : UInt8) : String := (if n < 10 then "0" else "") ++ toString n

def CoapResponse.changedPayload (r : CoapResponse) : Except ThreadError Bytes :=
  if r.code = (2, 4) then .ok r.payload
  else if r.code = (4, 4) then .error .sessionExpired
  else .error (.coapCode (toString r.code.1 ++ "." ++ twoDigits r.code.2))

abbrev Posting (α : Type) :=
  Dialogue Bytes (Except CoapError CoapResponse) (Except ThreadError α × CoapSession)

section
variable (P : Primitives) {α : Type}

def CoapSession.openReply (s : CoapSession) (reply : Except CoapError CoapResponse) :
    Except ThreadError Bytes × CoapSession :=
  commit s do
    let response ← mapErr CoapError.toThread reply
    let payload ← response.changedPayload
    s.openResponse P payload

def postSecure (pdu : Bytes) (s : CoapSession) : Posting Bytes :=
  match s.sealRequest P pdu with
  | .error e => .ret (.error e, s)
  | .ok (sealed, s') => .ask sealed fun reply => .ret (s'.openReply P reply)

def query (pdu : Bytes) (read : Bytes → Except ThreadError α) (s : CoapSession) : Posting α :=
  (postSecure P pdu s).bind fun r => .ret (r.1 >>= read, r.2)

def Response.outcome (r : Response) : Except ThreadError Bytes :=
  if r.status = 0 then r.value else .error (.pduStatus r.status)

def readRequest (iids : List UInt16) : Bytes := encodeAll .charRead (iids.map (·, []))

def readCharacteristics (iids : List UInt16) :
    CoapSession → Posting (List (Except ThreadError Bytes)) :=
  query P (readRequest iids) fun resp => do
    let responses ← decodeAll resp
    return responses.map Response.outcome

def readCharacteristic (iid : UInt16) (s : CoapSession) : Posting Bytes :=
  (readCharacteristics P [iid] s).bind fun r => .ret (do
    let values ← r.1
    let first ← okOr values.head? (.malformedPdu "empty read response")
    first, r.2)

def firstResponse (missing : String) (resp : Bytes) : Except ThreadError Response := do
  let responses ← decodeAll resp
  let first ← okOr responses.head? (.malformedPdu missing)
  if first.status = 0 then return first else .error (.pduStatus first.status)

def writeRequest (iid : UInt16) (value : Bytes) : Bytes :=
  encodeAll .charWrite [(iid, encodeValueBody value)]

def writeCharacteristic (iid : UInt16) (value : Bytes) : CoapSession → Posting Unit :=
  query P (writeRequest iid value) fun resp => do
    let _ ← firstResponse "empty write response" resp
    return ()

def subscribe (iid : UInt16) : CoapSession → Posting Unit :=
  query P (encodeAll .subscribe [(iid, [])]) fun resp => do
    let _ ← firstResponse "empty subscribe response" resp
    return ()

def unsubscribe (iid : UInt16) : CoapSession → Posting Unit :=
  query P (encodeAll .unsubscribe [(iid, [])]) fun resp => do
    let _ ← firstResponse "empty unsubscribe response" resp
    return ()

end

section
variable {P : Primitives} {α : Type}

theorem query_bind {β : Type} (pdu : Bytes) (read : Bytes → Except ThreadError α)
    (g : α → Except ThreadError β) (s : CoapSession) :
    ((query P pdu read s).bind fun r => .ret (r.1 >>= g, r.2)) =
      query P pdu (fun resp => read resp >>= g) s := by
  rw [query, Dialogue.bind_assoc]
  simp only [Dialogue.ret_bind, query, bind_assoc]

theorem outcome_query {pdu : Bytes} {read : Bytes → Except ThreadError α} {s s' : CoapSession}
    {answers : List (Except CoapError CoapResponse)} {r : Except ThreadError α}
    (h : (query P pdu read s).outcome answers = some (r, s')) :
    ∃ posted, (postSecure P pdu s).outcome answers = some (posted, s') ∧ r = posted >>= read := by
  obtain ⟨xs, ys, ⟨posted, s₁⟩, rfl, hpost, hret⟩ := Dialogue.outcome_bind.mp h
  obtain ⟨rfl, heq⟩ := Dialogue.outcome_ret_nil hret
  obtain ⟨rfl, rfl⟩ := Prod.mk.inj heq
  exact ⟨posted, by rwa [List.append_nil], rfl⟩

end

/-! ## Batched reads -/

namespace ResponsePdu

/-- One result for every id asked for, and the `i`-th is what the PDU numbered `i` says. -/
def Aligned (iids : List UInt16) (payload : Bytes) (results : List (Except ThreadError Bytes)) :
    Prop :=
  ∃ pdus : List ResponsePdu, payload = pdus.flatMap bytes ∧ results.length = iids.length ∧
    ∀ (i : Nat) (hi : i < results.length), ∃ p ∈ pdus, p.response.tid.toNat = i ∧
      results[i] = p.response.outcome

/-- As many PDUs as ids were asked for, and no more ids than transaction ids. -/
def Complete (iids : List UInt16) (payload : Bytes) : Prop :=
  iids.length ≤ 256 ∧ ∃ pdus : List ResponsePdu, payload = pdus.flatMap bytes ∧
    pdus.length = iids.length

theorem response_eq_of_decodeAll {pdus : List ResponsePdu} {responses : List Response}
    (h : decodeAll (pdus.flatMap bytes) = .ok responses) :
    Numbered 0 pdus ∧ responses = pdus.map response := by
  rw [decodeAll_flatMap_bytes] at h
  split_ifs at h with hnum
  exact ⟨hnum, (Except.ok.inj h).symm⟩

theorem tid_of_numbered {pdus : List ResponsePdu} (h : Numbered 0 pdus) {i : Nat}
    (hi : i < pdus.length) : pdus[i].response.tid = tidOf i := by
  have hget := congrArg (·[i]?) h
  simpa [hi] using hget

theorem aligned_iff_of_decodeAll {iids : List UInt16} {payload : Bytes} {responses : List Response}
    (h : decodeAll payload = .ok responses) :
    Aligned iids payload (responses.map Response.outcome) ↔ Complete iids payload := by
  constructor
  · rintro ⟨pdus, rfl, hlen, hentries⟩
    obtain ⟨-, rfl⟩ := response_eq_of_decodeAll h
    simp only [List.length_map] at hlen hentries
    refine ⟨?_, pdus, rfl, hlen⟩
    by_contra hmany
    obtain ⟨p, -, htid, -⟩ := hentries 256 (by omega)
    have hlt := p.response.tid.toNat_lt
    omega
  · rintro ⟨hfew, pdus, rfl, hlen⟩
    obtain ⟨hnum, rfl⟩ := response_eq_of_decodeAll h
    refine ⟨pdus, rfl, by simp only [List.length_map, hlen], ?_⟩
    intro i hi
    simp only [List.length_map] at hi
    have htid := tid_of_numbered hnum hi
    refine ⟨pdus[i], List.getElem_mem hi, ?_, by simp⟩
    rw [htid, tidOf, UInt8.toNat_ofNat']
    omega

end ResponsePdu

/-- The results of a batched read are those of the ids asked for exactly if the
accessory has sent as many PDUs as it was asked for. -/
theorem aligned_iff_complete {P : Primitives} {iids : List UInt16} {s s' : CoapSession}
    {answers : List (Except CoapError CoapResponse)} {payload : Bytes}
    {results : List (Except ThreadError Bytes)}
    (hpost : (postSecure P (readRequest iids) s).outcome answers = some (.ok payload, s'))
    (hread : (readCharacteristics P iids s).outcome answers = some (.ok results, s')) :
    ResponsePdu.Aligned iids payload results ↔ ResponsePdu.Complete iids payload := by
  obtain ⟨posted, hposted, hresults⟩ := outcome_query hread
  rw [hpost] at hposted
  obtain ⟨rfl, -⟩ := Prod.mk.inj (Option.some.inj hposted)
  rw [ok_bind] at hresults
  obtain ⟨responses, hdecode, hmap⟩ := bind_eq_ok.mp hresults.symm
  obtain rfl := Except.ok.inj hmap
  exact ResponsePdu.aligned_iff_of_decodeAll hdecode

def sampleSession : CoapSession := .new ⟨constArr 32 1, constArr 32 2⟩ (constArr 32 3)

def sealedReply (payload : Bytes) : Except CoapError CoapResponse :=
  .ok ⟨(2, 4), (constArr 32 1).val ++ (counterNonce 0).val ++ payload⟩

def readPayload : Bytes := [0x02, 0, 0, 3, 0, 1, 1, 1, 0x02, 1, 4, 0, 0]

theorem aligned_iff_complete_two :
    ∃ s', (postSecure plainPrimitives (readRequest [9, 10]) sampleSession).outcome
        [sealedReply readPayload] = some (.ok readPayload, s') ∧
      (readCharacteristics plainPrimitives [9, 10] sampleSession).outcome [sealedReply readPayload] =
        some (.ok [.ok [1], .error (.pduStatus 4)], s') ∧
      (ResponsePdu.Aligned [9, 10] readPayload [.ok [1], .error (.pduStatus 4)] ↔
        ResponsePdu.Complete [9, 10] readPayload) := by
  refine ⟨{ sampleSession with sendCtr := 1, recvCtr := 1 }, ?post, ?read,
    aligned_iff_complete ?post ?read⟩
  case post => decide +kernel
  case read => decide +kernel

/-- Two ids are asked for; the accessory sends one PDU, and the read succeeds with one result. -/
theorem read_short :
    ∃ s', (postSecure plainPrimitives (readRequest [9, 10]) sampleSession).outcome
        [sealedReply [0x02, 0, 4, 0, 0]] = some (.ok [0x02, 0, 4, 0, 0], s') ∧
      (readCharacteristics plainPrimitives [9, 10] sampleSession).outcome
        [sealedReply [0x02, 0, 4, 0, 0]] = some (.ok [.error (.pduStatus 4)], s') ∧
      ¬ ResponsePdu.Aligned [9, 10] [0x02, 0, 4, 0, 0] [.error (.pduStatus 4)] := by
  refine ⟨{ sampleSession with sendCtr := 1, recvCtr := 1 }, by decide +kernel, by decide +kernel, ?_⟩
  rintro ⟨pdus, -, hlen, -⟩
  cases hlen

end HapRust.Thread
