import HapRust.ThreadDut.Counters
import HapRust.ThreadDut.PduAgreement
import HapRust.ThreadDut.VerifyAgreement

/-! The `On` characteristic as a register: what is read is what was written last,
through the session, the CoAP exchanges and the accessory's response modes. -/

namespace HapRust.ThreadDut
open Lib Crypto Thread ReferenceAccessory

inductive OnCall where
  | read
  | write (value : Bytes)
  | subscribe
  | unsubscribe
  deriving DecidableEq

namespace OnCall

def perform (P : Primitives) (c : OnCall) (s : CoapSession) : Posting (Option Bytes) :=
  match c with
  | read => (readCharacteristic P onIid s).bind fun r => .ret (r.1 >>= fun value => .ok (some value), r.2)
  | write value =>
    (writeCharacteristic P onIid value s).bind fun r => .ret (r.1 >>= fun _ => .ok none, r.2)
  | subscribe => (Thread.subscribe P onIid s).bind fun r => .ret (r.1 >>= fun _ => .ok none, r.2)
  | unsubscribe => (Thread.unsubscribe P onIid s).bind fun r => .ret (r.1 >>= fun _ => .ok none, r.2)

/-! ## The register -/

def truth (value : Bytes) : Bool := decide (value.headD 0 ≠ 0)

def written : OnCall → Option Bytes
  | write value => some value
  | _ => none

def register (calls : List OnCall) : Bool := ((calls.filterMap written).getLast?.map truth).getD false

def result (on : Bool) : OnCall → Option Bytes
  | read => some [if on then 1 else 0]
  | _ => none

def results (calls : List OnCall) : List (Option Bytes) :=
  calls.mapIdx fun i c => c.result (register (calls.take i))

theorem register_append (calls : List OnCall) (c : OnCall) :
    register (calls ++ [c]) = (c.written.map truth).getD (register calls) := by
  cases c <;> simp [register, written]

theorem results_append (calls : List OnCall) (c : OnCall) :
    results (calls ++ [c]) = results calls ++ [c.result (register calls)] := by
  rw [results, List.mapIdx_append, List.mapIdx_singleton, Nat.zero_add, List.take_left]
  congr 1
  refine List.mapIdx_eq_mapIdx_iff.mpr fun i hi => ?_
  rw [List.take_append_of_le_length hi.le]

/-! ## Calls as requests -/

def op : OnCall → OpCode
  | read => .charRead
  | write _ => .charWrite
  | subscribe => .subscribe
  | unsubscribe => .unsubscribe

def body : OnCall → Bytes
  | write value => encodeValueBody value
  | _ => []

def answerBody (on : Bool) : OnCall → Bytes
  | read => valueBody [if on then 1 else 0]
  | _ => []

theorem decodeAll_single {body : Bytes} (hbody : body.length ≤ 65535) :
    decodeAll (encodeResponse 0 0 body) = .ok [⟨0, 0, body⟩] := by
  have hbodies : ∀ r ∈ [(⟨0, 0, body⟩ : Thread.Response)], r.body.length ≤ 65535 := by
    simpa using hbody
  have h := decodeAll_encodeResponse hbodies rfl
  rwa [List.flatMap_singleton] at h

theorem firstResponse_single {body : Bytes} (hbody : body.length ≤ 65535) (missing : String) :
    firstResponse missing (encodeResponse 0 0 body) = .ok ⟨0, 0, body⟩ := by
  rw [firstResponse, decodeAll_single hbody, ok_bind]
  rfl

theorem length_answerBody (c : OnCall) (on : Bool) : (c.answerBody on).length ≤ 3 := by
  cases c with
  | read => cases on <;> decide
  | _ => exact Nat.zero_le 3

theorem perform_eq (P : Primitives) (c : OnCall) (s : CoapSession) :
    ∃ read, c.perform P s = query P (encodeAll c.op [(onIid, c.body)]) read s ∧
      ∀ on, read (encodeResponse 0 0 (c.answerBody on)) = .ok (c.result on) := by
  have hbody : ∀ on, (c.answerBody on).length ≤ 65535 := by
    intro on
    have hlen := length_answerBody c on
    omega
  cases c with
  | read =>
    refine ⟨_, (congrArg (Dialogue.bind · _) (query_bind _ _ _ s)).trans (query_bind _ _ _ s),
      fun on => ?_⟩
    · rw [decodeAll_single (hbody on), ok_bind]
      have hvalue : bodyValue (answerBody on read) = .ok [if on then 1 else 0] :=
        bodyValue_encodeValueBody _
      simp only [pure_bind, List.map_cons, List.head?_cons, okOr_some, ok_bind, Response.outcome,
        if_true, Response.value, hvalue]
      rfl
  | write value =>
    refine ⟨_, query_bind _ _ _ s, fun on => ?_⟩
    rw [firstResponse_single (hbody on)]
    rfl
  | subscribe =>
    refine ⟨_, query_bind _ _ _ s, fun on => ?_⟩
    rw [firstResponse_single (hbody on)]
    rfl
  | unsubscribe =>
    refine ⟨_, query_bind _ _ _ s, fun on => ?_⟩
    rw [firstResponse_single (hbody on)]
    rfl

theorem handleChars_on (c : OnCall) (a : ReferenceAccessory) :
    (a.handleChars [⟨c.op.toByte, 0, onIid, c.body⟩]).1 = encodeResponse 0 0 (c.answerBody a.isOn) ∧
      (a.handleChars [⟨c.op.toByte, 0, onIid, c.body⟩]).2.isOn =
        (c.written.map truth).getD a.isOn := by
  cases c with
  | write value =>
    have hextract := extractValue_encodeValueBody value
    simp only [handleChars, List.foldl_cons, List.foldl_nil, List.nil_append, handleChar, op, body,
      hextract]
    exact ⟨rfl, rfl⟩
  | _ => exact ⟨rfl, rfl⟩

/-- A value of this length makes a request that fits the accessory's receive buffer. -/
def Short : OnCall → Prop
  | write value => value.length ≤ 1458
  | _ => True

instance : (c : OnCall) → Decidable c.Short
  | write value => inferInstanceAs (Decidable (value.length ≤ 1458))
  | read | subscribe | unsubscribe => isTrue trivial

theorem length_body {c : OnCall} (h : c.Short) : c.body.length ≤ 1470 := by
  cases c with
  | write value =>
    have hvalue : value.length ≤ 1458 := h
    rw [body, length_encodeValueBody]
    omega
  | _ => exact Nat.zero_le 1470

theorem length_request (c : OnCall) :
    (encodeAll c.op [(onIid, c.body)]).length = 7 + c.body.length := by
  rw [encodeAll, List.zipIdx_singleton, List.flatMap_singleton, encodeRequest]
  simp only [leBytes_length, List.length_append, List.length_cons, List.length_nil]

end OnCall

/-! ## Every call -/

structure Settled (session : CoapSession) (server : Server) (called : List OnCall)
    (returned : List (Except ThreadError (Option Bytes))) : Prop where
  paired : ∃ a, server.accessory.session = some a ∧ Paired session a
  size : ∀ bs ∈ server.blockwise, 16 ≤ bs ∧ bs ≤ 1024
  isOn : server.accessory.isOn = OnCall.register called
  returned : returned = (OnCall.results called).map .ok

theorem perform_serves [CoapLite] {P : Primitives} (hA : P.chacha20Poly1305.Inverts)
    (htag : P.chacha20Poly1305.Tagged) :
    System.Serves P (OnCall.perform P) true OnCall.Short Settled := by
  rintro session server called returned c ⟨⟨a, hsession, h⟩, hsize, hisOn, rfl⟩ hshort
  obtain ⟨read, hperform, hread⟩ := OnCall.perform_eq P c session
  obtain ⟨sealed, hsealed, hseal⟩ := sealRequest_ok hA session (encodeAll c.op [(onIid, c.body)])
  have hlen := OnCall.length_body hshort
  have hdecode : decodeRequests (encodeAll c.op [(onIid, c.body)]) =
      .ok [⟨c.op.toByte, 0, onIid, c.body⟩] := by
    refine decodeRequests_encodeAll c.op fun e he => ?_
    rw [List.mem_singleton.mp he]
    exact hlen.trans (by decide)
  obtain ⟨hresponses, hnext⟩ := OnCall.handleChars_on c server.accessory
  refine ⟨sealed, _, by rw [hperform, query, postSecure, hseal]; rfl, ?_⟩
  refine secure_leads hA h hsession (fun bs hbs => ?_) hsealed (fun _ => ⟨?_, ?_⟩) ?_ ?_
  · have := hsize bs hbs
    omega
  · rw [htag hsealed, OnCall.length_request]
    simp only [recvBuf]
    omega
  · intro reqs response hreqs hresponse
    cases hdecode.symm.trans hreqs
    have hbody := OnCall.length_answerBody c server.accessory.isOn
    rw [htag hresponse, hresponses]
    simp only [encodeResponse, List.length_append, leBytes_length, List.length_cons, List.length_nil]
    omega
  · intro e server' hreqs
    cases hdecode.symm.trans hreqs
  · intro reqs response server' hreqs hresponse haccessory hblockwise
    cases hdecode.symm.trans hreqs
    have hopen := openReply_changed hA { session with sendCtr := session.sendCtr + 1 } hresponse
    refine ⟨.ok (c.result server.accessory.isOn),
      { session with sendCtr := session.sendCtr + 1, recvCtr := session.recvCtr + 1 }, ?_,
      ⟨_, by rw [haccessory], ?_⟩, ?_, ?_, ?_⟩
    · simp only [Dialogue.bind, hopen, ok_bind, hresponses, hread]
    · exact ⟨h.readKey, h.writeKey, congrArg (· + 1) h.request, congrArg (· + 1) h.response⟩
    · rwa [hblockwise]
    · rw [haccessory, OnCall.register_append, ← hisOn]
      exact hnext
    · rw [OnCall.results_append, List.map_append, hisOn]
      rfl

/-- Once a call has returned, so have all before it with what the register held, and the next one
can be made; and whatever the order of the steps, the call in progress returns. -/
def ActsAsRegister [CoapLite] (P : Primitives) (s : System OnCall (Option Bytes)) : Prop :=
  (s.call = none → s.returned = (OnCall.results s.called).map .ok ∧
    ∀ c, ∃ s', s.step P (OnCall.perform P) (.call c) = some s') ∧
  System.Returning P (OnCall.perform P) OnCall.Short s

/-- After Pair Verify, on a network that loses and duplicates nothing, the characteristic is a
register for every sequence of calls with values that fit, in every response mode. -/
theorem onCharacteristic_register [CoapLite] {P : Primitives} (hP : P.Honest) (hX : P.X25519Commutes)
    (htag : P.chacha20Poly1305.Tagged) {controller : ControllerKeypair} {acc acc' : ReferenceAccessory}
    (hoff : acc.isOn = false) {ctlSecret accSecret accSecret' eventKey : Arr 32} {keys : SessionKeys}
    (hverify : Verifies P
      (.newWithEphemeral P controller ⟨acc.pairingId, acc.keypair.ltpk P⟩ ctlSecret)
      (acc.provisionController (controller.id, controller.ltpk P)) accSecret accSecret' keys eventKey
      acc')
    {s₀ : System OnCall (Option Bytes)} (hconnected : s₀.Connected)
    (hsession : s₀.session = .new keys eventKey) (haccessory : s₀.server.accessory = acc')
    (hsize : ∀ bs ∈ s₀.server.blockwise, 16 ≤ bs ∧ bs ≤ 1024) {actions : List (NetAction OnCall)}
    {s : System OnCall (Option Bytes)}
    (hrun : steps (restrict (System.step P (OnCall.perform P)) (System.Allowed true OnCall.Short))
      s₀ actions = some s) : ActsAsRegister P s := by
  obtain ⟨rfl, rfl, rfl⟩ := hverify.unique
    (pairVerify_exchange hP hX controller acc ctlSecret accSecret accSecret' rfl rfl)
  have hstart : Settled s₀.session s₀.server [] [] := by
    rw [hsession]
    exact ⟨⟨_, by rw [haccessory], rfl, rfl, rfl, rfl⟩, hsize, by rw [haccessory]; exact hoff, rfl⟩
  have hinv := System.inv_steps (perform_serves hP.aead htag)
    (System.inv_of_connected hconnected hstart) hrun
  refine ⟨fun hcall => ?_, hinv.returning⟩
  have hquiet := hinv.quiet_of_none hcall
  exact ⟨hquiet.idle.returned, hquiet.exists_call⟩

def sampleController : ControllerKeypair := ⟨"controller", constArr 32 7⟩

def sampleSecret : Arr 32 := constArr 32 3

def verifiedKeys : SessionKeys := PairVerifyClient.sessionKeysOf taggedPrimitives sampleSecret

def verifiedEventKey : Arr 32 :=
  taggedPrimitives.hkdf sampleSecret.val PairVerify.eventSalt PairVerify.eventReadInfo 32

def verifiedAccessory : ReferenceAccessory :=
  { sampleAccessory.provisionController (sampleController.id, sampleController.ltpk taggedPrimitives) with
    session := some (.new verifiedKeys.readKey verifiedKeys.writeKey verifiedEventKey) }

theorem verifies_sample : Verifies taggedPrimitives
    (.newWithEphemeral taggedPrimitives sampleController
      ⟨sampleAccessory.pairingId, sampleAccessory.keypair.ltpk taggedPrimitives⟩ (constArr 32 1))
    (sampleAccessory.provisionController
      (sampleController.id, sampleController.ltpk taggedPrimitives)) (constArr 32 2) (constArr 32 0)
    verifiedKeys verifiedEventKey verifiedAccessory :=
  pairVerify_exchange taggedPrimitives_honest plainPrimitives_commutes sampleController
    sampleAccessory (constArr 32 1) (constArr 32 2) (constArr 32 0) rfl rfl

def verifiedStart : System OnCall (Option Bytes) :=
  .start (.new verifiedKeys verifiedEventKey) ⟨verifiedAccessory, 1, false, some 16, none⟩

def callRun (c : OnCall) : List (NetAction OnCall) :=
  let exchange := [.allocate, .allocate, .transmit .sent, .serve 0 sampleDraws, .hear 0, .receive .sent]
  .call c :: exchange ++ exchange ++ [.finish]

attribute [local instance] coapLite

theorem onCharacteristic_register_blocks :
    ∃ s, steps (restrict (System.step taggedPrimitives (OnCall.perform taggedPrimitives))
        (System.Allowed true OnCall.Short)) verifiedStart
        (callRun .read ++ callRun (.write [1]) ++ callRun .read) = some s ∧
      s.returned = [.ok (some [0]), .ok none, .ok (some [1])] ∧ ActsAsRegister taggedPrimitives s := by
  refine exists_of_view System.returned [.ok (some [0]), .ok none, .ok (some [1])]
    (by decide +kernel) ?_
  intro s hs hreturned
  refine ⟨hreturned, onCharacteristic_register taggedPrimitives_honest plainPrimitives_commutes
    taggedPrimitives_tagged rfl verifies_sample System.connected_start rfl rfl ?_ hs⟩
  intro bs hbs
  cases hbs
  decide

/-- The accessory's receive buffer cuts the request off, and it is refused. -/
theorem write_truncated :
    ∃ s, steps (restrict (System.step taggedPrimitives (OnCall.perform taggedPrimitives))
        (System.Allowed true fun _ => True)) verifiedStart
        [.call (.write (List.replicate 1459 1)), .allocate, .allocate, .transmit .sent,
          .serve 0 sampleDraws, .hear 0, .receive .sent, .finish] = some s ∧
      s.returned = [.error (.coapCode "4.01")] := by
  exact exists_of_view System.returned [.error (.coapCode "4.01")] (by decide +kernel)
    fun _ _ hreturned => hreturned

end HapRust.ThreadDut
