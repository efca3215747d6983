import HapRust.Thread.Waiting
import HapRust.ThreadDut.Conversation

/-! A whole block-wise transfer on a network that loses nothing. The post asks for
block after block by number; the accessory runs its handler for the first request
only, and cuts the blocks out of the response that it keeps until the last of them
is sent. -/

namespace HapRust.ThreadDut
open Lib Crypto Thread

namespace Server

def handles (s : Server) (datagram : Packet) : Bool :=
  datagram.kind ≠ .acknowledgement &&
    !(s.blockwise.isSome && datagram.block2.any (fun b => decide (0 < b.num)))

theorem not_handles_continuation (path : String) (e : Fin 8) {block : BlockValue} (x y : UInt16)
    {s : Server} {bs : Nat} (hbs : s.blockwise = some bs) (hnum : block.num.toNat + 1 < 2 ^ 16) :
    s.handles (continuation path e block x y) = false := by
  have hpos : (0 : UInt16) < block.num + 1 := by
    rw [UInt16.lt_iff_toNat_lt, UInt16.toNat_add]
    exact (Nat.mod_eq_of_lt hnum).symm ▸ Nat.succ_pos _
  simp [handles, continuation, hbs, hpos]

theorem blockCache_sendWhole (s : Server) (request : Packet) (code : UInt8) (payload : Bytes) :
    (s.sendWhole request code payload).2.blockCache = s.blockCache ∧
      (s.sendWhole request code payload).2.accessory = s.accessory := by
  unfold sendWhole
  split_ifs <;> exact ⟨rfl, rfl⟩

theorem serve_of_handles [CoapLite] (P : Primitives) {s : Server} {p : Packet} (h : s.handles p = true)
    (draws : Draws) : s.serve P draws p = s.answer P draws (p.received recvBuf) := by
  simp only [handles, Bool.and_eq_true, decide_eq_true_eq, Bool.not_eq_true'] at h
  obtain ⟨hkind, hblock⟩ := h
  have hreceived : (p.received recvBuf).block2 = p.block2 := rfl
  unfold serve
  dsimp only
  rw [if_neg (show ¬ (p.received recvBuf).kind = .acknowledgement from hkind), hreceived]
  split
  · next bs b hbs hb =>
    rw [hbs, hb] at hblock
    rw [if_neg (of_decide_eq_false hblock)]
  · rfl

end Server

def isAnswered (request : Packet) (out : List Packet) : Bool :=
  (delivered request out).head?.any (!·.isEmpty)

theorem exists_delivered {request : Packet} {out : List Packet} (h : isAnswered request out = true) :
    ∃ p rest, delivered request out = p :: rest ∧ p.isEmpty = false := by
  unfold isAnswered at h
  cases hdelivered : delivered request out with
  | nil =>
    rw [hdelivered] at h
    cases h
  | cons p rest =>
    rw [hdelivered] at h
    exact ⟨p, rest, rfl, Bool.not_eq_true' _ ▸ h⟩

def routed [CoapLite] (request : Packet) (out : List Packet) : Except CoapError Packet :=
  match out.find? fun p => p.token = request.token && !p.isEmpty && !p.isEventPut with
  | some p => .ok (p.received Thread.recvBuf)
  | none => .error (.coap "no CoAP response after maximum retransmissions")

/-- How a conversation ends: what it returns, the accessory, the requests for which the
accessory has run its handler, and whether each request got its answer at once. -/
structure Talk (α : Type) where
  result : α
  server : Server
  handled : List Packet
  answered : Bool

section
variable [CoapLite] (P : Primitives) (draws : UInt16 → Draws) {α : Type}

/-- The program runs while every datagram arrives at once; its ids are drawn from this one on. -/
def converse : Dialogue CoapCall CoapAnswer α → UInt16 → Server → Talk α
  | .ret a, _, s => ⟨a, s, [], true⟩
  | .ask .nextMessageId next, id, s => converse (next ⟨id, .error .io⟩) (id + 1) s
  | .ask (.exchange request) next, id, s =>
    let out := s.serve P (draws request.messageId) request
    let talk := converse (next ⟨0, routed request out.1⟩) id out.2
    { talk with
      handled := if s.handles request then request :: talk.handled else talk.handled
      answered := isAnswered request out.1 && talk.answered }

/-- The steps of the socket meanwhile. -/
def socketActions : Dialogue CoapCall CoapAnswer α → UInt16 → Server → List CoapAction
  | .ret _, _, _ => []
  | .ask .nextMessageId next, id, s =>
    .allocate 0 :: socketActions (next ⟨id, .error .io⟩) (id + 1) s
  | .ask (.exchange request) next, id, s =>
    let out := s.serve P (draws request.messageId) request
    .transmit 0 .sent :: (out.1.map fun p => .datagram (p.received Thread.recvBuf)) ++
      .receive 0 .sent :: socketActions (next ⟨0, routed request out.1⟩) id out.2

def serveAll (s : Server) (datagrams : List Packet) : Server :=
  runs (fun s p => (s.serve P (draws p.messageId) p).2) s datagrams

/-- A socket without other posts takes these steps: the post returns there what it returns in the
conversation, and all that the socket has sent leaves the accessory as the conversation does. -/
def RunsOnSocket (path : String) (payload : Bytes) (id : UInt16) (s : Server) : Prop :=
  ∀ u : UdpCoapTransport, u.posts 0 = none → (∀ token, u.pending token = none) → u.messageId = id →
    ∃ u' sent, steps UdpCoapTransport.step u
        (.post 0 path payload :: socketActions P draws (post path payload) id s) = some u' ∧
      u'.posts 0 = some ⟨.ret (converse P draws (post path payload) id s).result, none⟩ ∧
      u'.sent = u.sent ++ sent ∧
      serveAll P draws s sent = (converse P draws (post path payload) id s).server

end

section
variable [CoapLite] {P : Primitives} {draws : UInt16 → Draws} {s : Server}

theorem routed_of_delivered {request p : Packet} {out rest : List Packet}
    (h : delivered request out = p :: rest) (hp : p.isEmpty = false) :
    routed request out = .ok (p.received Thread.recvBuf) := by
  have hfind : (out.find? fun p => p.token = request.token && !p.isEmpty && !p.isEventPut) =
      some p := by
    have hfilter : (out.filter fun p => p.token = request.token && !p.isEmpty && !p.isEventPut) =
        (delivered request out).filter fun p => !p.isEmpty := by
      rw [delivered, List.filter_filter]
      refine List.filter_congr fun q _ => ?_
      cases q.isEmpty <;> simp
    rw [← List.head?_filter, hfilter, h, List.filter_cons_of_pos (by rw [hp]; rfl)]
    rfl
  rw [routed, hfind]

theorem reply_reaches {request reply : Packet} (stale : List Packet)
    (hstale : ∀ p ∈ stale, p.token ≠ request.token) (hreply : Answers reply request)
    (hfits : reply.Fits Thread.recvBuf) :
    routed request (stale ++ [reply]) = .ok reply ∧
      isAnswered request (stale ++ [reply]) = true := by
  have hdelivered : delivered request (stale ++ [reply]) = [reply] := by
    rw [delivered, List.filter_append, List.filter_eq_nil_iff.mpr, List.nil_append]
    · exact List.filter_cons_of_pos (by simp [hreply.token, hreply.notEvent])
    · intro p hp
      simp [hstale p hp]
  refine ⟨?_, ?_⟩
  · rw [routed_of_delivered hdelivered hreply.notEmpty, Packet.received_of_fits hfits]
  · rw [isAnswered, hdelivered, List.head?_cons, Option.any_some, hreply.notEmpty]
    rfl

theorem reply_reaches_alone {request reply : Packet} (hreply : Answers reply request)
    (hfits : reply.Fits Thread.recvBuf) :
    routed request [reply] = .ok reply ∧ isAnswered request [reply] = true :=
  reply_reaches [] (List.forall_mem_nil _) hreply hfits

theorem converse_continuation {path : String} {code : UInt8} {full : Bytes} {bs n left : Nat}
    (c : UInt8 × UInt8) (id : UInt16) (hbs : s.blockwise = some bs) (hsize : 16 ≤ bs ∧ bs ≤ 1024)
    (hcache : s.blockCache = some (code, full)) (hcode : code ≠ 0) (hn : n + 1 < maxBlocks)
    (hmore : (n + 1) * bs < full.length) :
    converse P draws (fetchBlocks path (exponent bs) (left + 1) c
        ⟨UInt16.ofNat n, true, exponent bs⟩ (full.take ((n + 1) * bs))) id s =
      converse P draws (fetchNext path (exponent bs) left (full.take ((n + 1) * bs))
        (.ok (Server.blockReply (id + 1) (tokenBytes id) code full (n + 1) bs))) (id + 1 + 1)
        (if (n + 1 + 1) * bs < full.length then s else { s with blockCache := none }) := by
  have hmax : maxBlocks = 1024 := rfl
  have hnum : (UInt16.ofNat n).toNat = n := UInt16.toNat_ofNat_of_lt' (show n < 65536 by omega)
  have hlast : (UInt16.ofNat n).toNat + 1 < 2 ^ 16 := by omega
  have hserve := Server.serve_continuation (P := P) (draws (id + 1)) path id (id + 1)
    (exponent bs) ⟨UInt16.ofNat n, true, exponent bs⟩ hbs hlast hcache
  dsimp only at hserve
  rw [hnum, Server.sendBlock_eq ⟨hsize.1, by omega⟩ (by omega) hmore] at hserve
  have hreply : Answers (Server.blockReply (id + 1) (tokenBytes id) code full (n + 1) bs)
      (continuation path (exponent bs) ⟨UInt16.ofNat n, true, exponent bs⟩ id (id + 1)) :=
    Server.blockReply_answers (by rfl) hcode (id + 1) full (n + 1) bs
  obtain ⟨hrouted, hanswered⟩ :=
    reply_reaches_alone hreply (Server.fits_blockReply rfl (by omega))
  have hhandles : s.handles (continuation path (exponent bs)
      ⟨UInt16.ofNat n, true, exponent bs⟩ id (id + 1)) = false :=
    Server.not_handles_continuation path _ id (id + 1) hbs hlast
  rw [fetchBlocks_more _ _ _ _ _ rfl hlast]
  simp only [converse, hhandles]
  rw [show (continuation path (exponent bs) ⟨UInt16.ofNat n, true, exponent bs⟩ id
    (id + 1)).messageId = id + 1 from rfl, hserve]
  simp only [hrouted, hanswered, Bool.true_and, Bool.false_eq_true, if_false]

theorem converse_fetchBlocks (draws : UInt16 → Draws) (path : String) {code : UInt8} {full : Bytes} {bs : Nat}
    (hbs : s.blockwise = some bs) (hsize : 16 ≤ bs ∧ bs ≤ 1024)
    (hcache : s.blockCache = some (code, full)) (hcode : code ≠ 0)
    (hfull : full.length ≤ maxBlocks * bs) (left : Nat) {n : Nat} (hleft : n + 1 + left = maxBlocks)
    (hmore : (n + 1) * bs < full.length) (id : UInt16) :
    converse P draws (fetchBlocks path (exponent bs) left (code >>> 5, code &&& 0x1f)
        ⟨UInt16.ofNat n, true, exponent bs⟩ (full.take ((n + 1) * bs))) id s =
      ⟨.ok ⟨(code >>> 5, code &&& 0x1f), full⟩, { s with blockCache := none }, [], true⟩ := by
  induction left generalizing n id with
  | zero =>
    rw [show n + 1 = maxBlocks from hleft] at hmore
    omega
  | succ left ih =>
    have hn : n + 1 < maxBlocks := by omega
    have htake : full.take ((n + 1) * bs) ++ (full.drop ((n + 1) * bs)).take bs =
        full.take ((n + 1 + 1) * bs) := by
      rw [Nat.succ_mul (n + 1), List.take_add]
    rw [converse_continuation _ id hbs hsize hcache hcode hn hmore]
    simp only [fetchNext, Server.blockReply, htake]
    by_cases hlast : (n + 1 + 1) * bs < full.length
    · simp only [hlast, if_true, decide_true]
      exact ih (by omega) hlast (id + 1 + 1)
    · rw [if_neg hlast, fetchBlocks_done _ _ _ _ _ (decide_eq_false hlast),
        List.take_of_length_le (Nat.le_of_not_lt hlast)]
      rfl

theorem routed_sendWhole {request : Packet} (code : ResponseCode) {payload : Bytes}
    (htoken : request.token.length = 2) (hshort : payload.length ≤ 1024) :
    ∃ p, routed request (s.sendWhole request code.byte payload).1 = .ok p ∧
      isAnswered request (s.sendWhole request code.byte payload).1 = true ∧
      p.splitCode = (code.byte >>> 5, code.byte &&& 0x1f) ∧ p.block2 = none ∧
      p.payload = payload := by
  have hfits (kind : MessageType) (mid : UInt16) :
      (⟨kind, code.byte, mid, request.token, "", none, payload⟩ : Packet).Fits Thread.recvBuf :=
    Packet.fits_whole htoken (by rw [Thread.recvBuf]; omega)
  have hanswers (kind : MessageType) (mid : UInt16) :
      Answers ⟨kind, code.byte, mid, request.token, "", none, payload⟩ request := by
    refine ⟨rfl, decide_eq_false code.byte_ne_zero, ?_⟩
    simp only [Packet.isEventPut, decide_eq_false code.byte_class, Bool.and_false]
  unfold Server.sendWhole
  split_ifs
  · have hstale : ∀ p ∈ [Packet.emptyAck request.messageId], p.token ≠ request.token := by
      intro p hp htoken'
      rw [List.mem_singleton.mp hp] at htoken'
      rw [← htoken'] at htoken
      cases htoken
    obtain ⟨hrouted, hanswered⟩ := reply_reaches _ hstale (hanswers .confirmable s.nextMid)
      (hfits _ _)
    exact ⟨_, hrouted, hanswered, rfl, rfl, rfl⟩
  · obtain ⟨hrouted, hanswered⟩ :=
      reply_reaches_alone (hanswers .acknowledgement request.messageId) (hfits _ _)
    exact ⟨_, hrouted, hanswered, rfl, rfl, rfl⟩

theorem Server.sendResponse_long {request : Packet} {code : UInt8} {payload : Bytes} {bs : Nat}
    (hbs : s.blockwise = some bs) (hlong : bs < payload.length) :
    s.sendResponse request code payload =
      { s with blockCache := some (code, payload) }.sendBlock request.messageId request.token code
        payload 0 bs := by
  unfold Server.sendResponse
  split
  · next bs' hbs' =>
    obtain rfl := Option.some.inj (hbs.symm.trans hbs')
    exact if_pos hlong
  · next hbs' =>
    rw [hbs] at hbs'
    cases hbs'

theorem Server.sendResponse_short {request : Packet} {code : UInt8} {payload : Bytes} {bs : Nat}
    (hbs : s.blockwise = some bs) (hshort : ¬ bs < payload.length) :
    s.sendResponse request code payload = s.sendWhole request code payload := by
  unfold Server.sendResponse
  split
  · next bs' hbs' =>
    obtain rfl := Option.some.inj (hbs.symm.trans hbs')
    exact if_neg hshort
  · rfl

theorem converse_postNext (draws : UInt16 → Draws) (path : String) {request : Packet}
    (code : ResponseCode) {response : Bytes} {bs : Nat} (htoken : request.token.length = 2)
    (hbs : s.blockwise = some bs) (hsize : 16 ≤ bs ∧ bs ≤ 1024)
    (hspan : response.length ≤ 1024 * bs) (id : UInt16) :
    ∃ t, converse P draws
        (postNext path (routed request (s.sendResponse request code.byte response).1)) id
        (s.sendResponse request code.byte response).2 =
          ⟨.ok ⟨(code.byte >>> 5, code.byte &&& 0x1f), response⟩, t, [], true⟩ ∧
      isAnswered request (s.sendResponse request code.byte response).1 = true ∧
      t.accessory = s.accessory ∧ (s.blockCache = none ∨ bs < response.length → t.blockCache = none) := by
  by_cases hlong : bs < response.length
  · have hmore : (0 + 1) * bs < response.length := by rwa [Nat.zero_add, Nat.one_mul]
    have hfetch := converse_fetchBlocks (P := P) draws path
      (s := { s with blockCache := some (code.byte, response) }) hbs hsize rfl code.byte_ne_zero
      hspan (maxBlocks - 1) (n := 0) rfl hmore id
    obtain ⟨hrouted, hanswered⟩ := reply_reaches_alone
      (Server.blockReply_answers rfl code.byte_ne_zero request.messageId response 0 bs)
      (Server.fits_blockReply htoken (by omega))
    rw [Server.sendResponse_long hbs hlong, Server.sendBlock_eq ⟨hsize.1, by omega⟩ (by decide)
      (by omega), if_pos hmore]
    refine ⟨{ s with blockCache := none }, ?_, hanswered, rfl, fun _ => rfl⟩
    dsimp only
    rw [hrouted, ← hfetch]
    simp only [postNext, Server.blockReply, hlong, decide_true, Packet.splitCode, Nat.zero_mul,
      List.drop_zero, Nat.zero_add, Nat.one_mul]
  · obtain ⟨p, hrouted, hanswered, hcode, hblock, hpayload⟩ :=
      routed_sendWhole (s := s) code htoken (show response.length ≤ 1024 by omega)
    obtain ⟨hcache, haccessory⟩ := Server.blockCache_sendWhole s request code.byte response
    rw [Server.sendResponse_short hbs hlong, hrouted]
    refine ⟨(s.sendWhole request code.byte response).2, ?_, hanswered, haccessory, ?_⟩
    · simp only [postNext, hblock, hcode, hpayload]
      rfl
    · rintro (hnone | hlong')
      · rw [hcache, hnone]
      · exact absurd hlong' hlong

end

/-! ## The same on the socket -/

section
variable [CoapLite] {P : Primitives} {draws : UInt16 → Draws} {u : UdpCoapTransport}
  {request : Packet}
  {next : CoapAnswer → Dialogue CoapCall CoapAnswer (Except CoapError CoapResponse)}

theorem serveAll_append (s : Server) (before after : List Packet) :
    serveAll P draws s (before ++ after) = serveAll P draws (serveAll P draws s before) after :=
  List.foldl_append

theorem serveAll_acks {acks : List Packet} (h : ∀ q ∈ acks, q.kind = .acknowledgement) (s : Server) :
    serveAll P draws s acks = s := by
  induction acks with
  | nil => rfl
  | cons q acks ih =>
    have hserve : (s.serve P (draws q.messageId) q).2 = s := by
      rw [Server.serve_ack _ (h q (List.mem_cons_self ..))]
    change serveAll P draws (s.serve P (draws q.messageId) q).2 acks = s
    rw [hserve]
    exact ih fun q' hq' => h q' (List.mem_cons_of_mem _ hq')

theorem delivered_received (request : Packet) (out : List Packet) :
    delivered request (out.map (·.received Thread.recvBuf)) =
      (delivered request out).map (·.received Thread.recvBuf) := List.filter_map

theorem exchange_steps {out : List Packet}
    (hpost : u.posts 0 = some ⟨.ask (.exchange request) next, none⟩)
    (hpending : ∀ token, u.pending token = none) (hanswered : isAnswered request out = true) :
    ∃ u', steps UdpCoapTransport.step u (.transmit 0 .sent ::
        (out.map fun p => .datagram (p.received Thread.recvBuf)) ++ [.receive 0 .sent]) = some u' ∧
      u'.posts 0 = some ⟨next ⟨0, routed request out⟩, none⟩ ∧
      (∀ token, u'.pending token = none) ∧ u'.messageId = u.messageId ∧
      ∃ acks : List Packet, u'.sent = u.sent ++ request :: acks ∧
        ∀ q ∈ acks, q.kind = .acknowledgement := by
  obtain ⟨p, rest, hdelivered, hp⟩ := exists_delivered hanswered
  have hwaiting := UdpCoapTransport.waiting_beginExchange hpost
  have honly : ∀ token, token ≠ request.token →
      ((u.beginExchange 0 request).send request).pending token = none := by
    intro token htoken
    exact (Function.update_of_ne htoken ..).trans (hpending token)
  obtain ⟨v, hrun, hwaiting', hpending', hid, acks, hsent, hacks⟩ :=
    hwaiting.datagrams honly (out.map (·.received Thread.recvBuf))
  rw [delivered_received, hdelivered, List.nil_append, List.map_cons] at hwaiting'
  have hp' : (p.received Thread.recvBuf).isEmpty = false := hp
  obtain ⟨u', hreceive⟩ := hwaiting'.exists_receive hp'
  obtain ⟨hpost', hpending'', acks', hsent', hacks'⟩ := hwaiting'.step_receive hp' hreceive
  refine ⟨u', ?_, ?_, ?_, ?_, acks ++ acks', ?_, List.forall_mem_append.mpr ⟨hacks, hacks'⟩⟩
  · have htransmit : u.step (.transmit 0 .sent) =
        some ((u.beginExchange 0 request).send request) := by
      simp only [UdpCoapTransport.step, hpost]
    rw [List.map_map] at hrun
    rw [List.cons_append, steps_cons htransmit, steps_append]
    refine Option.bind_eq_some_iff.mpr ⟨v, hrun, ?_⟩
    exact steps_cons hreceive []
  · rw [hpost', routed_of_delivered hdelivered hp]
  · intro token
    rw [hpending'', hpending']
    by_cases htoken : token = request.token
    · rw [htoken, Function.update_self]
    · rw [Function.update_of_ne htoken, honly token htoken]
  · rw [UdpCoapTransport.messageId_of_step (fun t h => by cases h) hreceive, hid]
    rfl
  · rw [hsent', hsent]
    simp [UdpCoapTransport.send, UdpCoapTransport.beginExchange, UdpCoapTransport.setExchange]

/-- If each of its requests is answered at once, the conversation is a run of the socket: the post
returns the same there, and the accessory is the same after all that the socket has sent. -/
theorem converse_steps {program : Dialogue CoapCall CoapAnswer (Except CoapError CoapResponse)}
    {s : Server} (hpost : u.posts 0 = some ⟨program, none⟩)
    (hpending : ∀ token, u.pending token = none)
    (hanswered : (converse P draws program u.messageId s).answered = true) :
    ∃ u' sent, steps UdpCoapTransport.step u (socketActions P draws program u.messageId s) = some u' ∧
      u'.posts 0 = some ⟨.ret (converse P draws program u.messageId s).result, none⟩ ∧
      u'.sent = u.sent ++ sent ∧
      serveAll P draws s sent = (converse P draws program u.messageId s).server := by
  induction program generalizing u s with
  | ret r => exact ⟨u, [], rfl, hpost, (List.append_nil _).symm, rfl⟩
  | ask q next ih =>
    cases q with
    | nextMessageId =>
      let drawn : UdpCoapTransport :=
        { u.setPost 0 (some ⟨next ⟨u.messageId, .error .io⟩, none⟩) with
          messageId := u.messageId + 1 }
      have hstep : u.step (.allocate 0) = some drawn := by
        simp only [UdpCoapTransport.step, hpost]
        rfl
      have hpost' : drawn.posts 0 = some ⟨next ⟨u.messageId, .error .io⟩, none⟩ := by
        change Function.update u.posts 0 _ 0 = _
        exact Function.update_self ..
      obtain ⟨u', sent, hrun, hresult⟩ := ih _ hpost' hpending hanswered
      refine ⟨u', sent, ?_, hresult⟩
      rw [socketActions, steps_cons hstep]
      exact hrun
    | exchange request =>
      obtain ⟨hanswer, hrest⟩ := Bool.and_eq_true_iff.mp hanswered
      obtain ⟨v, hrun, hpost', hpending', hid, acks, hsent, hacks⟩ :=
        exchange_steps hpost hpending hanswer
      rw [← hid] at hrest
      obtain ⟨u', sent, hrun', hresult, hsent', hserve⟩ := ih _ hpost' hpending' hrest
      rw [hid] at hrun' hresult hserve
      refine ⟨u', request :: acks ++ sent, ?_, hresult, ?_, ?_⟩
      · rw [socketActions, List.append_cons, steps_append]
        exact Option.bind_eq_some_iff.mpr ⟨v, hrun, hrun'⟩
      · rw [hsent', hsent, List.append_assoc]
      · have hserved : serveAll P draws s (request :: acks) =
            (s.serve P (draws request.messageId) request).2 := serveAll_acks hacks _
        rw [serveAll_append, hserved]
        exact hserve

theorem runsOnSocket_of_answered {path : String} {payload : Bytes} {id : UInt16} {s : Server}
    (h : (converse P draws (post path payload) id s).answered = true) :
    RunsOnSocket P draws path payload id s := by
  rintro u hfree hpending rfl
  have hstart : u.step (.post 0 path payload) =
      some (u.setPost 0 (some ⟨post path payload, none⟩)) := by
    rw [UdpCoapTransport.step, hfree]
    rfl
  have hpost : (u.setPost 0 (some ⟨post path payload, none⟩)).posts 0 =
      some ⟨post path payload, none⟩ := UdpCoapTransport.setPost_posts_self _
  obtain ⟨u', sent, hrun, hresult⟩ := converse_steps hpost hpending h
  refine ⟨u', sent, ?_, hresult⟩
  rw [steps_cons hstart]
  exact hrun

end

/-! ## A post -/

/-- On a network that loses nothing, a post to an accessory that answers block by block returns
what the accessory's handler has answered to it, and so it does on the socket; the handler runs for
the post's own request and no other; and no response is kept afterwards, unless the answer was in
one piece and one had been kept before. -/
theorem post_transfers [CoapLite] (P : Primitives) (draws : UInt16 → Draws) {s : Server} {bs : Nat}
    (hbs : s.blockwise = some bs) (hsize : 16 ≤ bs ∧ bs ≤ 1024) (path : String) (payload : Bytes)
    (id : UInt16) {code : ResponseCode} {response : Bytes} {accessory : ReferenceAccessory}
    (hanswer : s.accessory.handle P (Server.inputOf (draws (id + 1)) path
      ((firstRequest path payload id (id + 1)).received recvBuf).payload) = ((code, response), accessory))
    (hspan : response.length ≤ 1024 * bs) :
    (converse P draws (post path payload) id s).result =
        .ok ⟨(code.byte >>> 5, code.byte &&& 0x1f), response⟩ ∧
      (converse P draws (post path payload) id s).handled = [firstRequest path payload id (id + 1)] ∧
      RunsOnSocket P draws path payload id s ∧
      (converse P draws (post path payload) id s).server.accessory = accessory ∧
      (s.blockCache = none ∨ bs < response.length →
        (converse P draws (post path payload) id s).server.blockCache = none) := by
  have hhandles : s.handles (firstRequest path payload id (id + 1)) = true := by
    simp [Server.handles, firstRequest]
  have hserve := Server.serve_of_handles P hhandles (draws (id + 1))
  unfold Server.answer at hserve
  rw [show ((firstRequest path payload id (id + 1)).received recvBuf).uriPath = path from rfl,
    hanswer] at hserve
  obtain ⟨t, htalk, hanswered, haccessory, hcache⟩ := converse_postNext (P := P) draws path
    (s := { s with accessory := accessory }) code (show
      ((firstRequest path payload id (id + 1)).received recvBuf).token.length = 2 from rfl) hbs hsize
    hspan (id + 1 + 1)
  have hconverse : converse P draws (post path payload) id s =
      ⟨.ok ⟨(code.byte >>> 5, code.byte &&& 0x1f), response⟩, t,
        [firstRequest path payload id (id + 1)], true⟩ := by
    rw [post_eq]
    simp only [converse, hhandles, if_true]
    rw [show (firstRequest path payload id (id + 1)).messageId = id + 1 from rfl, hserve]
    rw [show routed (firstRequest path payload id (id + 1)) = routed
      ((firstRequest path payload id (id + 1)).received recvBuf) from rfl, htalk]
    rw [show isAnswered (firstRequest path payload id (id + 1)) = isAnswered
      ((firstRequest path payload id (id + 1)).received recvBuf) from rfl, hanswered]
    rfl
  have hsocket : RunsOnSocket P draws path payload id s :=
    runsOnSocket_of_answered (by rw [hconverse])
  rw [hconverse]
  exact ⟨rfl, rfl, hsocket, haccessory, hcache⟩

attribute [local instance] coapLite

def blockServer : Server :=
  ⟨{ ReferenceAccessory.new "accessory" (constArr 32 9) none with
      session := some (.new (constArr 32 1) (constArr 32 2) (constArr 32 3)) }, 1, false, some 26, none⟩

def sealedRead : Bytes :=
  (constArr 32 2).val ++ (counterNonce 0).val ++ [0x00, 0x03, 0, 9, 0, 0, 0]
def sealedValue : Bytes :=
  (constArr 32 1).val ++ (counterNonce 0).val ++ [0x02, 0, 0, 3, 0, 0x01, 1, 0]

theorem post_transfers_two_blocks :
    sealedValue.length = 2 * 26 ∧
      (converse plainPrimitives (fun _ => ⟨[], 0, constArr 32 0⟩) (post "" sealedRead) 7
        blockServer).result = .ok ⟨(2, 4), sealedValue⟩ ∧
      (converse plainPrimitives (fun _ => ⟨[], 0, constArr 32 0⟩) (post "" sealedRead) 7
        blockServer).handled = [firstRequest "" sealedRead 7 8] ∧
      (converse plainPrimitives (fun _ => ⟨[], 0, constArr 32 0⟩) (post "" sealedRead) 7
        blockServer).server.blockCache = none := by
  have hanswer : (blockServer.accessory.handle plainPrimitives (Server.inputOf
      ⟨[], 0, constArr 32 0⟩ "" ((firstRequest "" sealedRead 7 8).received recvBuf).payload)).1 =
        (.changed, sealedValue) := by decide +kernel
  obtain ⟨hresult, hhandled, -, -, hcache⟩ := post_transfers plainPrimitives
    (fun _ => ⟨[], 0, constArr 32 0⟩) (s := blockServer) rfl (by decide) "" sealedRead 7
    (Prod.ext hanswer rfl) (by decide +kernel)
  exact ⟨by decide +kernel, hresult, hhandled, hcache (.inl rfl)⟩

/-- The accessory with blocks of 52 bytes, after a read of two values of which only the first block
is fetched: the post that asked for them has been dropped. -/
def abandonedServer : Server :=
  ({ blockServer with blockwise := some 52 }.serve plainPrimitives ⟨[], 0, constArr 32 0⟩
    (firstRequest "" ((constArr 32 2).val ++ (counterNonce 0).val ++
      [0x00, 0x03, 0, 9, 0, 0, 0] ++ [0x00, 0x03, 1, 9, 0, 0, 0]) 1 2)).2

def laterRead : Bytes :=
  (constArr 32 2).val ++ (counterNonce 1).val ++ [0x00, 0x03, 0, 9, 0, 0, 0]
def laterValue : Bytes :=
  (constArr 32 1).val ++ (counterNonce 1).val ++ [0x02, 0, 0, 3, 0, 0x01, 1, 0]

/-- The next read is answered in one piece, and the response to the dropped one is still kept. -/
theorem stale_response_kept :
    laterValue.length ≤ 52 ∧
      (converse plainPrimitives (fun _ => ⟨[], 0, constArr 32 0⟩) (post "" laterRead) 3
        abandonedServer).result = .ok ⟨(2, 4), laterValue⟩ ∧
      (converse plainPrimitives (fun _ => ⟨[], 0, constArr 32 0⟩) (post "" laterRead) 3
        abandonedServer).handled = [firstRequest "" laterRead 3 4] ∧
      (converse plainPrimitives (fun _ => ⟨[], 0, constArr 32 0⟩) (post "" laterRead) 3
        abandonedServer).server.blockCache.map (fun c => c.2.length) = some 60 := by
  decide +kernel

end HapRust.ThreadDut
