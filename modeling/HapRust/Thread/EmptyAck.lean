import HapRust.Thread.Coap

/-! Empty acknowledgements. They carry no token, so that the reader hands them to
no exchange, and only the acknowledgement timeout decides whether the request is
transmitted again. -/

namespace HapRust.Thread
open Lib

namespace UdpCoapTransport
variable {s s' : UdpCoapTransport} {t : Nat}

/-- A request is not transmitted again once its empty acknowledgement has been
received, and its exchange is not given up for want of one. -/
structure Heeds (s : UdpCoapTransport) : Prop where
  silent : ∀ t x e, s.posts t = some x → x.exchange = some e → e.late = 0
  patient : ∀ r, (true, r) ∈ s.ended →
    r ≠ .error (.coap "no CoAP response after maximum retransmissions")

/-- The acknowledgement timeout of an exchange runs out only while no empty
acknowledgement of its request has been received. -/
def Prompt (s : UdpCoapTransport) : CoapAction → Prop
  | .elapsed t _ => (s.running t).all (fun r => !r.1.acked || r.1.phase = .acknowledged) = true
  | _ => True

instance (s : UdpCoapTransport) : (i : CoapAction) → Decidable (s.Prompt i)
  | .elapsed t _ => inferInstanceAs (Decidable
      ((s.running t).all (fun r => !r.1.acked || r.1.phase = .acknowledged) = true))
  | .post _ _ _ | .allocate _ | .transmit _ _ | .datagram _ | .receive _ _ | .closed _
  | .finish _ | .drop _ => isTrue trivial

theorem connect_heeds : connect.Heeds := ⟨by rintro t x e ⟨⟩, by rintro r ⟨⟩⟩

theorem Heeds.same (h : s.Heeds) (hposts : s'.posts = s.posts) (hended : s'.ended = s.ended) :
    s'.Heeds :=
  ⟨by rw [hposts]; exact h.silent, by rw [hended]; exact h.patient⟩

theorem running_eq_some {e : Exchange} {next : CoapAnswer → Post}
    (h : s.running t = some (e, next)) :
    (∃ x, s.posts t = some x ∧ x.exchange = some e) ∧ ∀ answer, (next answer).exchange = none := by
  unfold running at h
  split at h
  · next q k e' hx =>
    obtain ⟨rfl, rfl⟩ := Prod.mk.inj (Option.some.inj h)
    exact ⟨⟨_, hx, rfl⟩, fun _ => rfl⟩
  · cases h

theorem Heeds.setPost (h : s.Heeds) {y : Option Post}
    (hy : ∀ x e, y = some x → x.exchange = some e → e.late = 0) : (s.setPost t y).Heeds where
  silent t' x e hx he := by
    by_cases ht : t' = t
    · subst ht
      simp only [UdpCoapTransport.setPost, Function.update_self] at hx
      exact hy x e hx he
    · simp only [UdpCoapTransport.setPost, Function.update_of_ne ht] at hx
      exact h.silent t' x e hx he
  patient := h.patient

theorem Heeds.setExchange (h : s.Heeds) {e : Exchange} (he : e.late = 0) :
    (s.setExchange t e).Heeds := by
  refine h.setPost (t := t) ?_
  intro x e' hx he'
  obtain ⟨y, -, rfl⟩ := Option.map_eq_some_iff.mp hx
  obtain rfl := Option.some.inj he'
  exact he

theorem Heeds.finishExchange (h : s.Heeds) {e : Exchange} {next : CoapAnswer → Post}
    (hnext : ∀ answer, (next answer).exchange = none) {result : Except CoapError Packet}
    (hresult : e.acked = true →
      result ≠ .error (.coap "no CoAP response after maximum retransmissions")) :
    (s.finishExchange t e next result).Heeds where
  silent := by
    refine (h.setPost (t := t) (y := some (next ⟨0, result⟩)) ?_).silent
    intro x e' hx he'
    obtain rfl := Option.some.inj hx
    rw [hnext] at he'
    cases he'
  patient r hr := by
    rcases List.mem_append.mp hr with hr | hr
    · exact h.patient r hr
    · obtain ⟨hacked, rfl⟩ := Prod.mk.inj (List.mem_singleton.mp hr)
      exact hresult hacked.symm

theorem Heeds.readerLoop (h : s.Heeds) (p : Packet) : (s.readerLoop p).Heeds := by
  have hnoted : { s with posts := fun t => (s.posts t).map (Post.note p) }.Heeds := by
    refine ⟨?_, h.patient⟩
    intro t x e hx he
    obtain ⟨y, hy, rfl⟩ := Option.map_eq_some_iff.mp hx
    obtain ⟨e', he', rfl⟩ := Option.map_eq_some_iff.mp he
    exact h.silent t y e' hy he'
  unfold UdpCoapTransport.readerLoop UdpCoapTransport.route
  dsimp only
  split_ifs
  · exact hnoted.same rfl rfl
  · split
    · exact hnoted.same rfl rfl
    · exact hnoted

theorem encodingError_ne (msg : String) :
    "could not encode CoAP ACK: " ++ msg ≠ "no CoAP response after maximum retransmissions" := by
  intro h
  have hhead := congrArg (fun s => s.toList.head?) h
  simp at hhead

theorem Heeds.accept (h : s.Heeds) {e : Exchange} {next : CoapAnswer → Post}
    (hnext : ∀ answer, (next answer).exchange = none) (p : Packet) (sending : Sending) :
    (s.accept t e next p sending).Heeds := by
  unfold UdpCoapTransport.accept
  split_ifs
  · cases sending with
    | sent =>
      refine Heeds.finishExchange ?_ hnext (by simp)
      exact h.same rfl rfl
    | refused => exact h.finishExchange hnext (by simp)
    | unencodable msg => exact h.finishExchange hnext (by simp [encodingError_ne])
  · exact h.finishExchange hnext (by simp)

theorem Heeds.receive (h : s.Heeds) {sending : Sending} (hstep : s.receive t sending = some s') :
    s'.Heeds := by
  unfold UdpCoapTransport.receive at hstep
  cases hrun : s.running t with
  | none =>
    rw [hrun] at hstep
    cases hstep
  | some r =>
    obtain ⟨e, next⟩ := r
    obtain ⟨⟨x, hx, he⟩, hnext⟩ := running_eq_some hrun
    have hlate := h.silent t x e hx he
    cases hchannel : s.channels e.channel with
    | nil => simp [hrun, hchannel] at hstep
    | cons p rest =>
      simp only [hrun, hchannel] at hstep
      have hread : { s with channels := Function.update s.channels e.channel rest }.Heeds :=
        h.same rfl rfl
      by_cases hp : p.isEmpty = true
      · rw [if_pos hp] at hstep
        obtain rfl := Option.some.inj hstep
        exact hread.setExchange hlate
      · rw [if_neg hp] at hstep
        obtain rfl := Option.some.inj hstep
        exact hread.accept hnext p sending

theorem Heeds.elapsed (h : s.Heeds) {taken : Bool} (hprompt : s.Prompt (.elapsed t taken))
    (hstep : s.elapsed t taken = some s') : s'.Heeds := by
  unfold UdpCoapTransport.elapsed at hstep
  cases hrun : s.running t with
  | none =>
    rw [hrun] at hstep
    cases hstep
  | some r =>
    obtain ⟨e, next⟩ := r
    obtain ⟨⟨x, hx, he⟩, hnext⟩ := running_eq_some hrun
    have hlate := h.silent t x e hx he
    have hacked : e.acked = false ∨ e.phase = .acknowledged := by
      simpa [Prompt, hrun] using hprompt
    simp only [hrun] at hstep
    obtain ⟨-, hstep⟩ := Option.ite_none_right_eq_some.mp hstep
    split at hstep
    · next left hphase =>
      have hfalse : e.acked = false := hacked.resolve_right (by rw [hphase]; nofun)
      by_cases htaken : taken = true
      · rw [if_pos htaken] at hstep
        obtain rfl := Option.some.inj hstep
        refine Heeds.setExchange ?_ ?_
        · exact h.same rfl rfl
        · simp only [hfalse, Bool.false_eq_true, if_false, hlate]
      · rw [if_neg htaken] at hstep
        obtain rfl := Option.some.inj hstep
        exact h.finishExchange hnext (by simp)
    · next hphase =>
      have hfalse : e.acked = false := hacked.resolve_right (by rw [hphase]; nofun)
      obtain rfl := Option.some.inj hstep
      exact h.finishExchange hnext (fun htrue => by rw [hfalse] at htrue; cases htrue)
    · obtain rfl := Option.some.inj hstep
      exact h.finishExchange hnext (by simp)

theorem Heeds.transmit [CoapLite] (h : s.Heeds) {sending : Sending}
    (hstep : s.step (.transmit t sending) = some s') : s'.Heeds := by
  simp only [step] at hstep
  split at hstep
  · cases sending with
    | sent =>
      obtain rfl := Option.some.inj hstep
      refine Heeds.same (s := s.beginExchange t _) ?_ rfl rfl
      refine Heeds.setExchange ?_ rfl
      exact h.same rfl rfl
    | refused =>
      obtain rfl := Option.some.inj hstep
      refine Heeds.same (s := s.setPost t _) ?_ rfl rfl
      exact h.setPost (by rintro x e ⟨⟩ ⟨⟩)
    | unencodable e =>
      obtain rfl := Option.some.inj hstep
      exact h.setPost (by rintro x e ⟨⟩ ⟨⟩)
  · cases hstep

theorem heeds_step [CoapLite] {i : CoapAction} (h : s.Heeds)
    (hstep : restrict step Prompt s i = some s') : s'.Heeds := by
  rw [restrict_eq_some] at hstep
  obtain ⟨hprompt, hstep⟩ := hstep
  cases i with
  | post t path payload =>
    obtain ⟨-, rfl⟩ := guarded_eq_some.mp hstep
    exact h.setPost (by rintro x e ⟨⟩ ⟨⟩)
  | allocate t =>
    simp only [step] at hstep
    split at hstep
    · obtain rfl := Option.some.inj hstep
      refine Heeds.same (s := s.setPost t _) ?_ rfl rfl
      exact h.setPost (by rintro x e ⟨⟩ ⟨⟩)
    · cases hstep
  | transmit t sending => exact h.transmit hstep
  | datagram p =>
    obtain rfl := Option.some.inj hstep
    exact h.readerLoop p
  | receive t sending => exact h.receive hstep
  | elapsed t taken => exact h.elapsed hprompt hstep
  | closed t =>
    simp only [step] at hstep
    split at hstep
    · next e next hrun =>
      obtain ⟨-, rfl⟩ := guarded_eq_some.mp hstep
      exact h.finishExchange (running_eq_some hrun).2 (by simp)
    · cases hstep
  | finish t =>
    simp only [step] at hstep
    split at hstep
    · obtain rfl := Option.some.inj hstep
      exact h.setPost (by rintro x e ⟨⟩)
    · cases hstep
  | drop t =>
    obtain ⟨-, rfl⟩ := guarded_eq_some.mp hstep
    exact h.setPost (by rintro x e ⟨⟩)

/-- If no acknowledgement timeout runs out once the empty acknowledgement has been
received, the request is not transmitted again, whatever else arrives. -/
theorem heeds_of_prompt [CoapLite] {actions : List CoapAction}
    (hrun : steps (restrict step Prompt) connect actions = some s) : s.Heeds :=
  steps_invariant heeds_step actions connect_heeds hrun

def sampleRequest : Packet := ⟨.confirmable, 0x02, 2, [0, 1], "0", none, [1]⟩

def separateResponse : Packet := ⟨.confirmable, 0x44, 9, [0, 1], "", none, [7]⟩

def acknowledgedRun : List CoapAction :=
  [.post 0 "0" [1], .allocate 0, .allocate 0, .transmit 0 .sent, .datagram (.emptyAck 2)]

attribute [local instance] coapLite

theorem heeds_of_prompt_separate :
    ∃ s, steps (restrict step Prompt) connect
        (acknowledgedRun ++ [.datagram separateResponse, .receive 0 .sent]) = some s ∧
      s.Heeds ∧ s.sent = [sampleRequest, .emptyAck 9] ∧ s.ended = [(true, .ok separateResponse)] := by
  refine exists_of_view (fun s => (s.sent, s.ended))
    ([sampleRequest, .emptyAck 9], [(true, .ok separateResponse)]) (by decide +kernel) ?_
  intro s hs hstate
  obtain ⟨hsent, hended⟩ := Prod.mk.inj hstate
  exact ⟨heeds_of_prompt hs, hsent, hended⟩

/-- The separate response takes longer than the acknowledgement timeout: the request is
transmitted a second time although its acknowledgement has been received. -/
theorem retransmitted_after_empty_ack :
    ∃ s, steps step connect (acknowledgedRun ++ [.elapsed 0 true]) = some s ∧
      s.sent = [sampleRequest, sampleRequest] ∧ ¬ s.Heeds := by
  refine exists_of_view (fun s => (s.sent, (s.posts 0).bind (·.exchange)))
    ([sampleRequest, sampleRequest], some ⟨sampleRequest, 0, .transmitted 2, true, 1⟩) (by decide +kernel) ?_
  intro s hs hstate
  obtain ⟨hsent, hpost⟩ := Prod.mk.inj hstate
  obtain ⟨x, hx, he⟩ := Option.bind_eq_some_iff.mp hpost
  refine ⟨hsent, fun hheeds => ?_⟩
  cases hheeds.silent 0 x _ hx he

end UdpCoapTransport
end HapRust.Thread
