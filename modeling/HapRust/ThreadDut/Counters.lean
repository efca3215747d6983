import HapRust.ThreadDut.Network
import Mathlib.Control.Monad.Basic

/-! The counters of the two ends of the session, after every call of `post_secure`. -/

namespace HapRust.ThreadDut
open Lib Crypto Thread

variable {P : Primitives}

def Agree (session : CoapSession) (server : Server) : Prop :=
  ∃ a, server.accessory.session = some a ∧ session.sendCtr = a.recvCtr ∧ session.recvCtr = a.sendCtr

/-- The two ends also have the same keys. -/
structure Paired (session : CoapSession) (a : AccessorySession) : Prop where
  readKey : session.readKey = a.readKey
  writeKey : session.writeKey = a.writeKey
  request : session.sendCtr = a.recvCtr
  response : session.recvCtr = a.sendCtr

theorem sealRequest_ok (hA : P.chacha20Poly1305.Inverts) (session : CoapSession) (pdu : Bytes) :
    ∃ sealed, P.chacha20Poly1305.encrypt session.writeKey (counterNonce session.sendCtr) [] pdu =
        some sealed ∧
      session.sealRequest P pdu = .ok (sealed, { session with sendCtr := session.sendCtr + 1 }) := by
  obtain ⟨sealed, hsealed, -⟩ := hA session.writeKey (counterNonce session.sendCtr) [] pdu
  refine ⟨sealed, hsealed, ?_⟩
  rw [CoapSession.sealRequest, sealNext, hsealed]
  rfl

theorem securePdu_cases (hA : P.chacha20Poly1305.Inverts) {session : CoapSession}
    {a : AccessorySession} (h : Paired session a) {accessory : ReferenceAccessory}
    (hsession : accessory.session = some a) {pdu sealed : Bytes}
    (hsealed : P.chacha20Poly1305.encrypt session.writeKey (counterNonce session.sendCtr) [] pdu =
      some sealed) :
    (∃ e, decodeRequests pdu = .error e ∧ accessory.securePdu P sealed =
      (ReferenceAccessory.badRequest,
        { accessory with session := some { a with recvCtr := a.recvCtr + 1 } })) ∨
    ∃ reqs response, decodeRequests pdu = .ok reqs ∧
      P.chacha20Poly1305.encrypt session.readKey (counterNonce session.recvCtr) []
        (accessory.handleChars reqs).1 = some response ∧
      accessory.securePdu P sealed = ((.changed, response),
        { (accessory.handleChars reqs).2 with
          session := some { a with recvCtr := a.recvCtr + 1, sendCtr := a.sendCtr + 1 } }) := by
  have hopen : a.openRequest P sealed = .ok (pdu, { a with recvCtr := a.recvCtr + 1 }) := by
    rw [AccessorySession.openRequest, openNext, ← h.writeKey, ← h.request,
      hA.decrypt_of_encrypt hsealed, h.request]
    rfl
  cases hreqs : decodeRequests pdu with
  | error e =>
    refine .inl ⟨e, rfl, ?_⟩
    simp only [ReferenceAccessory.securePdu, hsession, hopen, hreqs]
  | ok reqs =>
    obtain ⟨response, hresponse, -⟩ := hA session.readKey (counterNonce session.recvCtr) []
      (accessory.handleChars reqs).1
    refine .inr ⟨reqs, response, rfl, hresponse, ?_⟩
    have hseal : AccessorySession.sealResponse P { a with recvCtr := a.recvCtr + 1 }
        (accessory.handleChars reqs).1 =
        .ok (response, { a with recvCtr := a.recvCtr + 1, sendCtr := a.sendCtr + 1 }) := by
      rw [AccessorySession.sealResponse, sealNext, ← h.readKey, ← h.response, hresponse]
      rfl
    simp only [ReferenceAccessory.securePdu, hsession, hopen, hreqs, hseal]

theorem openReply_changed (hA : P.chacha20Poly1305.Inverts) (session : CoapSession)
    {response plaintext : Bytes}
    (h : P.chacha20Poly1305.encrypt session.readKey (counterNonce session.recvCtr) [] plaintext =
      some response) :
    session.openReply P (.ok ⟨(2, 4), response⟩) =
      (.ok plaintext, { session with recvCtr := session.recvCtr + 1 }) := by
  have hopen : session.openResponse P response =
      .ok (plaintext, { session with recvCtr := session.recvCtr + 1 }) := by
    rw [CoapSession.openResponse, openNext, hA.decrypt_of_encrypt h]
    rfl
  simp only [CoapSession.openReply, mapErr_ok, ok_bind, CoapResponse.changedPayload, if_true, hopen]
  rfl

theorem secure_leads [CoapLite] (hA : P.chacha20Poly1305.Inverts) {session : CoapSession} {a : AccessorySession}
    (h : Paired session a) {server : Server} (hsession : server.accessory.session = some a)
    (hsize : ∀ bs ∈ server.blockwise, 16 ≤ bs ∧ bs < 4096) {pdu sealed : Bytes}
    (hsealed : P.chacha20Poly1305.encrypt session.writeKey (counterNonce session.sendCtr) [] pdu =
      some sealed) {reliable : Bool} {Q : Server → Except CoapError CoapResponse → Prop}
    (hshort : reliable = true → sealed.length + 7 ≤ recvBuf ∧ ∀ reqs response,
      decodeRequests pdu = .ok reqs →
      P.chacha20Poly1305.encrypt session.readKey (counterNonce session.recvCtr) []
        (server.accessory.handleChars reqs).1 = some response → response.length ≤ 4096)
    (hrefused : ∀ e (server' : Server), decodeRequests pdu = .error e →
      server'.accessory =
        { server.accessory with session := some { a with recvCtr := a.recvCtr + 1 } } →
      server'.blockwise = server.blockwise → Q server' (.ok ⟨(4, 0), []⟩))
    (hanswered : ∀ reqs response (server' : Server), decodeRequests pdu = .ok reqs →
      P.chacha20Poly1305.encrypt session.readKey (counterNonce session.recvCtr) []
        (server.accessory.handleChars reqs).1 = some response →
      server'.accessory = { (server.accessory.handleChars reqs).2 with
        session := some { a with recvCtr := a.recvCtr + 1, sendCtr := a.sendCtr + 1 } } →
      server'.blockwise = server.blockwise → Q server' (.ok ⟨(2, 4), response⟩)) :
    Leads P reliable Q (post "" sealed) server := by
  rcases securePdu_cases hA h hsession hsealed with ⟨e, hreqs, hpdu⟩ |
    ⟨reqs, response, hreqs, hresponse, hpdu⟩
  · refine post_leads hsize hpdu (fun hreliable => ⟨(hshort hreliable).1, Nat.zero_le _⟩) ?_
    intro server' haccessory _ hblockwise
    exact hrefused e server' hreqs haccessory hblockwise
  · refine post_leads hsize hpdu ?_ ?_
    · intro hreliable
      obtain ⟨hfits, hlen⟩ := hshort hreliable
      exact ⟨hfits, hlen reqs response hreqs hresponse⟩
    · intro server' haccessory _ hblockwise
      exact hanswered reqs response server' hreqs hresponse haccessory hblockwise

/-! ## Calls of `post_secure` -/

def Level {κ α : Type} (session : CoapSession) (server : Server) (_ : List κ)
    (_ : List (Except ThreadError α)) : Prop :=
  (∃ a, server.accessory.session = some a ∧ Paired session a) ∧
    ∀ bs ∈ server.blockwise, 16 ≤ bs ∧ bs < 4096

theorem postSecure_serves [CoapLite] (hA : P.chacha20Poly1305.Inverts) :
    System.Serves P (postSecure P) false (fun _ => True) Level := by
  rintro session server called returned pdu ⟨⟨a, hsession, h⟩, hsize⟩ -
  obtain ⟨sealed, hsealed, hseal⟩ := sealRequest_ok hA session pdu
  refine ⟨sealed, _, by rw [postSecure, hseal], ?_⟩
  refine secure_leads hA h hsession hsize hsealed nofun ?_ ?_
  · intro e server' _ haccessory hblockwise
    refine ⟨_, _, rfl, ⟨_, by rw [haccessory], ?_⟩, by rwa [hblockwise]⟩
    exact ⟨h.readKey, h.writeKey, congrArg (· + 1) h.request, h.response⟩
  · intro reqs response server' _ hresponse haccessory hblockwise
    have hopen := openReply_changed hA { session with sendCtr := session.sendCtr + 1 } hresponse
    refine ⟨_, _, congrArg Dialogue.ret hopen, ⟨_, by rw [haccessory], ?_⟩, by rwa [hblockwise]⟩
    exact ⟨h.readKey, h.writeKey, congrArg (· + 1) h.request, congrArg (· + 1) h.response⟩

/-- After a call has returned, the counters agree, or it returned `SessionExpired`. -/
def AgreesAfterCalls (s : System Bytes Bytes) : Prop :=
  s.call = none → Agree s.session s.server ∨ s.returned.getLast? = some (.error .sessionExpired)

/-- In every run in which no datagram is duplicated, the socket takes every datagram, what
arrives fits, and the acknowledgement timer runs out only after a request was lost, the counters
agree after every call. -/
theorem agrees_of_allowed [CoapLite] (hA : P.chacha20Poly1305.Inverts) {s₀ : System Bytes Bytes}
    (hconnected : s₀.Connected) {a : AccessorySession}
    (hsession : s₀.server.accessory.session = some a) (hpaired : Paired s₀.session a)
    (hsize : ∀ bs ∈ s₀.server.blockwise, 16 ≤ bs ∧ bs < 4096) {actions : List (NetAction Bytes)}
    {s : System Bytes Bytes}
    (hrun : steps (restrict (System.step P (postSecure P)) (System.Allowed false fun _ => True))
      s₀ actions = some s) : AgreesAfterCalls s := by
  intro hcall
  have hstart : Level s₀.session s₀.server ([] : List Bytes) ([] : List (Except ThreadError Bytes)) :=
    ⟨⟨a, hsession, hpaired⟩, hsize⟩
  have hinv := System.inv_steps (postSecure_serves hA) (System.inv_of_connected hconnected hstart) hrun
  obtain ⟨⟨a, ha, hpaired⟩, -⟩ := (hinv.quiet_of_none hcall).idle
  exact .inl ⟨a, ha, hpaired.request, hpaired.response⟩

def sampleServer : Server :=
  ⟨{ ReferenceAccessory.new "accessory" (constArr 32 9) none with
      session := some (.new (constArr 32 1) (constArr 32 2) (constArr 32 3)) }, 1, false, none, none⟩

def sampleDraws : Draws := ⟨[], 0, constArr 32 0⟩

structure Counters where
  idle : Bool
  controller : UInt64 × UInt64
  accessory : Option (UInt64 × UInt64)
  returned : List (Except ThreadError Bytes)
  deriving DecidableEq

def System.counters (s : System Bytes Bytes) : Counters where
  idle := s.call.isNone
  controller := (s.session.sendCtr, s.session.recvCtr)
  accessory := s.server.accessory.session.map fun a => (a.sendCtr, a.recvCtr)
  returned := s.returned

def lostRequestRun : List (NetAction Bytes) :=
  [.call (readRequest [9]), .allocate, .allocate, .transmit .sent, .loseRequest 0, .elapsed true,
    .serve 0 sampleDraws, .hear 0, .receive .sent, .finish]

attribute [local instance] coapLite

theorem agrees_of_allowed_lost :
    ∃ s, steps (restrict (System.step plainPrimitives (postSecure plainPrimitives))
        (System.Allowed false fun _ => True)) (.start sampleSession sampleServer) lostRequestRun =
          some s ∧
      s.call = none ∧ AgreesAfterCalls s ∧ s.returned = [.ok [0x02, 0, 0, 3, 0, 1, 1, 0]] := by
  refine exists_of_view System.counters
    ⟨true, (1, 1), some (1, 1), [.ok [0x02, 0, 0, 3, 0, 1, 1, 0]]⟩ (by decide +kernel) ?_
  intro s hs hcounters
  refine ⟨Option.isNone_iff_eq_none.mp (congrArg Counters.idle hcounters),
    agrees_of_allowed plainPrimitives_honest.aead System.connected_start rfl ⟨rfl, rfl, rfl, rfl⟩
      ?_ hs, congrArg Counters.returned hcounters⟩
  nofun

def lostReplyRun : List (NetAction Bytes) :=
  [.call (readRequest [9]), .allocate, .allocate, .transmit .sent, .serve 0 sampleDraws, .loseReply 0,
    .elapsed true, .serve 0 sampleDraws, .hear 0, .receive .sent, .finish]

theorem counters_differ :
    ∃ s, steps (System.step plainPrimitives (postSecure plainPrimitives))
        (.start sampleSession sampleServer) lostReplyRun = some s ∧
      s.returned = [.error (.coapCode "4.01")] ∧ ¬ AgreesAfterCalls s := by
  refine exists_of_view System.counters ⟨true, (1, 0), some (1, 1), [.error (.coapCode "4.01")]⟩
    (by decide +kernel) ?_
  intro s hs hcounters
  have hreturned := congrArg Counters.returned hcounters
  refine ⟨hreturned, fun hagrees => ?_⟩
  rcases hagrees (Option.isNone_iff_eq_none.mp (congrArg Counters.idle hcounters)) with
    ⟨a, ha, -, hrecv⟩ | hlast
  · have hcontroller : s.session.recvCtr = 0 := congrArg (·.controller.2) hcounters
    have haccessory := congrArg Counters.accessory hcounters
    simp only [System.counters, ha, Option.map_some, Option.some.injEq, Prod.mk.injEq]
      at haccessory
    rw [hcontroller, haccessory.1] at hrecv
    cases hrecv
  · rw [show s.returned = _ from hreturned] at hlast
    cases hlast

end HapRust.ThreadDut
