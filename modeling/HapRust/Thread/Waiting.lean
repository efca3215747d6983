import HapRust.Thread.Routing

/-! A transport with a single post: what the post does while it waits for the answer to
a request, and what the packets that arrive do to it. -/

namespace HapRust.Thread
open Lib

def Exchange.mayRepeat (e : Exchange) : Bool :=
  match e.phase with
  | .transmitted (_ + 1) => true
  | _ => false

def delivered (request : Packet) (out : List Packet) : List Packet :=
  out.filter fun p => p.token = request.token && !p.isEventPut

namespace UdpCoapTransport
variable {s s' : UdpCoapTransport} {p request : Packet} {content : List Packet}
  {next : CoapAnswer → Dialogue CoapCall CoapAnswer (Except CoapError CoapResponse)}

def Waiting (s : UdpCoapTransport) (request : Packet)
    (next : CoapAnswer → Dialogue CoapCall CoapAnswer (Except CoapError CoapResponse))
    (content : List Packet) : Prop :=
  ∃ e : Exchange, e.request = request ∧
    s.posts 0 = some ⟨.ask (.exchange request) next, some e⟩ ∧
    s.pending request.token = some e.channel ∧ s.channels e.channel = content

theorem running_of_post {t : Nat} {q : CoapCall} {e : Exchange}
    (h : s.posts t = some ⟨.ask q next, some e⟩) :
    s.running t = some (e, fun answer => ⟨next answer, none⟩) := by
  rw [running, h]

theorem setExchange_posts_self {t : Nat} {e : Exchange} {x : Post} (h : s.posts t = some x) :
    (s.setExchange t e).posts t = some { x with exchange := some e } := by
  simp only [setExchange, Function.update_self, h, Option.map_some]

theorem finishExchange_posts_self {t : Nat} {e : Exchange} {next : CoapAnswer → Post}
    {result : Except CoapError Packet} :
    (s.finishExchange t e next result).posts t = some (next ⟨0, result⟩) := setPost_posts_self _

theorem readerLoop_tokenless (h : s.pending [] = none) (htoken : p.token = [])
    (hp : p.isEventPut = false) :
    s.readerLoop p = { s with posts := fun t => (s.posts t).map (Post.note p) } := by
  rw [readerLoop_other hp, route, htoken, h]

theorem sent_readerLoop (hp : p.isEventPut = false) : (s.readerLoop p).sent = s.sent := by
  rw [readerLoop_other hp, route]
  cases s.pending p.token <;> rfl

theorem pending_readerLoop : (s.readerLoop p).pending = s.pending := by
  cases hp : p.isEventPut with
  | true => rw [readerLoop_event hp]
  | false =>
    rw [readerLoop_other hp, route]
    cases s.pending p.token <;> rfl

theorem Waiting.note (h : s.Waiting request next content) :
    Waiting { s with posts := fun t => (s.posts t).map (Post.note p) } request next content := by
  obtain ⟨e, hrequest, hpost, hpending, hchannel⟩ := h
  refine ⟨e.note p, hrequest, ?_, hpending, hchannel⟩
  dsimp only
  rw [hpost]
  rfl

theorem Waiting.reply (h : s.Waiting request next content) (hp : p.isEventPut = false)
    (htoken : p.token = request.token) :
    Waiting (s.readerLoop p) request next (content ++ [p]) := by
  rw [readerLoop_other hp]
  obtain ⟨e, hrequest, hpost, hpending, hchannel⟩ := h
  rw [route, htoken, hpending]
  refine ⟨e.note p, hrequest, ?_, hpending, ?_⟩
  · dsimp only
    rw [hpost]
    rfl
  · subst hchannel
    exact Function.update_self ..

theorem waiting_beginExchange (h : s.posts 0 = some ⟨.ask (.exchange request) next, none⟩) :
    Waiting ((s.beginExchange 0 request).send request) request next [] := by
  refine ⟨⟨request, s.opened, .transmitted (maxTransmissions - 1), false, 0⟩, rfl, ?_, ?_, ?_⟩
  · exact setExchange_posts_self h
  · exact Function.update_self ..
  · exact Function.update_self ..

theorem Waiting.readerLoop (h : s.Waiting request next content)
    (honly : ∀ token, token ≠ request.token → s.pending token = none) (p : Packet) :
    (s.readerLoop p).Waiting request next (content ++ delivered request [p]) ∧
      ∃ acks : List Packet, (s.readerLoop p).sent = s.sent ++ acks ∧
        ∀ q ∈ acks, q.kind = .acknowledgement := by
  cases hp : p.isEventPut with
  | true =>
    rw [delivered, List.filter_cons_of_neg (by simp [hp]), List.filter_nil, List.append_nil,
      readerLoop_event hp]
    refine ⟨h.note, [_], rfl, ?_⟩
    intro q hq
    rw [List.mem_singleton.mp hq]
    rfl
  | false =>
    refine ⟨?_, [], ?_, List.forall_mem_nil _⟩
    · by_cases htoken : p.token = request.token
      · rw [delivered, List.filter_cons_of_pos (by simp [htoken, hp]), List.filter_nil]
        exact h.reply hp htoken
      · rw [delivered, List.filter_cons_of_neg (by simp [htoken]), List.filter_nil, List.append_nil,
          readerLoop_other hp, route, honly _ htoken]
        exact h.note
    · rw [sent_readerLoop hp, List.append_nil]

variable [CoapLite]

theorem messageId_of_step {a : CoapAction} (ha : ∀ t, a ≠ .allocate t) (h : s.step a = some s') :
    s'.messageId = s.messageId := by
  cases effect_of_step h with
  | allocate hx => exact absurd rfl (ha _)
  | datagram p =>
    cases hp : p.isEventPut with
    | true => rw [readerLoop_event hp]
    | false =>
      rw [readerLoop_other hp, route]
      cases s.pending p.token <;> rfl
  | _ => rfl

theorem Waiting.datagrams (h : s.Waiting request next content)
    (honly : ∀ token, token ≠ request.token → s.pending token = none) (out : List Packet) :
    ∃ s', steps step s (out.map .datagram) = some s' ∧
      s'.Waiting request next (content ++ delivered request out) ∧
      s'.pending = s.pending ∧ s'.messageId = s.messageId ∧
      ∃ acks : List Packet, s'.sent = s.sent ++ acks ∧ ∀ q ∈ acks, q.kind = .acknowledgement := by
  induction out generalizing s content with
  | nil =>
    refine ⟨s, rfl, ?_, rfl, rfl, [], (List.append_nil _).symm, List.forall_mem_nil _⟩
    exact (List.append_nil content).symm ▸ h
  | cons p out ih =>
    obtain ⟨hwaiting, acks, hsent, hacks⟩ := h.readerLoop honly p
    have hpending : (s.readerLoop p).pending = s.pending := pending_readerLoop
    have hid : (s.readerLoop p).messageId = s.messageId :=
      messageId_of_step (a := .datagram p) (fun t ht => by cases ht) rfl
    obtain ⟨s', hrun, hwaiting', hpending', hid', acks', hsent', hacks'⟩ :=
      ih hwaiting fun token htoken => (congrFun hpending token).trans (honly token htoken)
    refine ⟨s', hrun, ?_, hpending'.trans hpending, hid'.trans hid, acks ++ acks', ?_, ?_⟩
    · rw [List.append_assoc, delivered, delivered, ← List.filter_append] at hwaiting'
      exact hwaiting'
    · rw [hsent', hsent, List.append_assoc]
    · exact List.forall_mem_append.mpr ⟨hacks, hacks'⟩

theorem Waiting.step_receive (h : s.Waiting request next (p :: content)) (hp : p.isEmpty = false)
    (hstep : s.step (.receive 0 .sent) = some s') :
    s'.posts 0 = some ⟨next ⟨0, .ok p⟩, none⟩ ∧
      s'.pending = Function.update s.pending request.token none ∧
      ∃ acks : List Packet, s'.sent = s.sent ++ acks ∧ ∀ q ∈ acks, q.kind = .acknowledgement := by
  obtain ⟨e, rfl, hpost, hpending, hchannel⟩ := h
  have hrun := running_of_post hpost
  simp only [step, receive, hrun, hchannel, hp, Bool.false_eq_true, if_false, accept] at hstep
  obtain rfl := Option.some.inj hstep
  split_ifs
  · refine ⟨finishExchange_posts_self, rfl, [_], rfl, ?_⟩
    intro q hq
    rw [List.mem_singleton.mp hq]
    rfl
  · exact ⟨finishExchange_posts_self, rfl, [], (List.append_nil _).symm, List.forall_mem_nil _⟩

theorem Waiting.exists_receive (h : s.Waiting request next (p :: content)) (hp : p.isEmpty = false) :
    ∃ s', s.step (.receive 0 .sent) = some s' := by
  obtain ⟨e, rfl, hpost, hpending, hchannel⟩ := h
  have hrun := running_of_post hpost
  exact ⟨_, by simp only [step, receive, hrun, hchannel, hp, Bool.false_eq_true, if_false]; rfl⟩

theorem Waiting.step_receive_nil (h : s.Waiting request next []) (sending : Sending) :
    s.step (.receive 0 sending) = none := by
  obtain ⟨e, rfl, hpost, hpending, hchannel⟩ := h
  have hrun := running_of_post hpost
  simp only [step, receive, hrun, hchannel]

theorem Waiting.step_elapsed (h : s.Waiting request next []) (hrepeat : (s.inFlight 0).any (·.mayRepeat))
    (hstep : s.step (.elapsed 0 true) = some s') :
    s'.Waiting request next [] ∧ s'.pending = s.pending ∧ s'.sent = s.sent ++ [request] := by
  obtain ⟨e, rfl, hpost, hpending, hchannel⟩ := h
  have hrun := running_of_post hpost
  have hmay : e.mayRepeat = true := by
    rw [inFlight, hpost] at hrepeat
    exact hrepeat
  simp only [step, elapsed, hrun, hchannel, if_true] at hstep
  unfold Exchange.mayRepeat at hmay
  split at hmay
  · next left hphase =>
    simp only [hphase] at hstep
    obtain rfl := Option.some.inj hstep
    exact ⟨⟨{ e with phase := .transmitted left, late := if e.acked then e.late + 1 else e.late }, rfl,
      setExchange_posts_self hpost, hpending, hchannel⟩, rfl, rfl⟩
  · cases hmay

theorem Waiting.step_elapsed_cons (h : s.Waiting request next (p :: content)) (taken : Bool) :
    s.step (.elapsed 0 taken) = none := by
  obtain ⟨e, rfl, hpost, hpending, hchannel⟩ := h
  have hrun := running_of_post hpost
  simp only [step, elapsed, hrun, hchannel, reduceCtorEq, if_false]

theorem Waiting.step_none (h : s.Waiting request next content) {a : CoapAction}
    (ha : a = .allocate 0 ∨ (∃ sending, a = .transmit 0 sending) ∨ a = .closed 0) : s.step a = none := by
  obtain ⟨e, rfl, hpost, hpending, hchannel⟩ := h
  have hrun := running_of_post hpost
  rcases ha with rfl | ⟨sending, rfl⟩ | rfl
  · simp only [step, hpost]
  · simp only [step, hpost]
  · simp only [step, hrun, hpending, ne_eq, not_true_eq_false, and_false, if_false]

theorem step_eq_none_of_idle (h : s.inFlight 0 = none) {a : CoapAction}
    (ha : (∃ sending, a = .receive 0 sending) ∨ (∃ taken, a = .elapsed 0 taken) ∨ a = .closed 0) :
    s.step a = none := by
  have hrun : s.running 0 = none := by
    cases hrun : s.running 0 with
    | none => rfl
    | some r => exact absurd ((inFlight_of_running hrun).symm.trans h) (by simp)
  rcases ha with ⟨sending, rfl⟩ | ⟨taken, rfl⟩ | rfl
  · simp only [step, receive, hrun]
  · simp only [step, elapsed, hrun]
  · simp only [step, hrun]

end UdpCoapTransport
end HapRust.Thread
