import HapRust.Thread.Blockwise

/-! Routing by token. As long as fewer ids are drawn during an exchange than there
are, the exchanges in flight have different tokens, and the reader hands every
packet to the exchange whose token it carries and every event to the event queue. -/

namespace HapRust.Thread
open Lib Asking

/-! ## The ids a post draws -/

inductive Stage where
  | idle
  | drawn (token : Bytes)
  | framed (token : Bytes)

def Follows : Dialogue CoapCall CoapAnswer (Except CoapError CoapResponse) → Stage → Prop
  | .ret _, .idle => True
  | .ask .nextMessageId next, .idle => ∀ x, Follows (next x) (.drawn (tokenBytes x.id))
  | .ask .nextMessageId next, .drawn token => ∀ x, Follows (next x) (.framed token)
  | .ask (.exchange request) next, .framed token =>
    request.token = token ∧ ∀ x, Follows (next x) .idle
  | _, _ => False

theorem fetchBlocks_follows [CoapLite] (path : String) (sizeExponent : Fin 8) (left : Nat)
    (code : UInt8 × UInt8) (block : BlockValue) (full : Bytes) :
    Follows (fetchBlocks path sizeExponent left code block full) .idle := by
  induction left generalizing code block full with
  | zero =>
    cases hmore : block.more with
    | false =>
      rw [fetchBlocks_done path sizeExponent code full 0 hmore]
      trivial
    | true =>
      rw [fetchBlocks_zero path sizeExponent code full hmore]
      trivial
  | succ left ih =>
    cases hmore : block.more with
    | false =>
      rw [fetchBlocks_done path sizeExponent code full _ hmore]
      trivial
    | true =>
      by_cases hnum : block.num.toNat + 1 < 2 ^ 16
      · rw [fetchBlocks_more path sizeExponent code full left hmore hnum]
        refine fun x y => ⟨rfl, fun z => ?_⟩
        obtain ⟨id, _ | r⟩ := z
        · trivial
        · cases hblock : r.block2 with
          | none =>
            simp only [fetchNext, hblock]
            trivial
          | some b =>
            simp only [fetchNext, hblock]
            exact ih _ _ _
      · obtain ⟨e, he⟩ := fetchBlocks_last path sizeExponent code full left hmore hnum
        rw [he]
        trivial

theorem post_follows [CoapLite] (path : String) (payload : Bytes) : Follows (post path payload) .idle := by
  rw [post_eq]
  refine fun x y => ⟨rfl, fun z => ?_⟩
  obtain ⟨id, _ | r⟩ := z
  · trivial
  · cases hblock : r.block2 with
    | none =>
      simp only [postNext, hblock]
      trivial
    | some b =>
      simp only [postNext, hblock]
      exact fetchBlocks_follows _ _ _ _ _ _

namespace UdpCoapTransport
variable {s s' : UdpCoapTransport} {t t' : Nat}

/-! ## What a step can do -/

def waiting : CoapAction → Option Nat
  | .receive t _ | .elapsed t _ | .closed t => some t
  | _ => none

def leaving : CoapAction → Option Nat
  | .finish t | .drop t => some t
  | _ => none

inductive Effect [CoapLite] (s : UdpCoapTransport) : CoapAction → UdpCoapTransport → Prop
  | start {t : Nat} {path : String} {payload : Bytes} (h : s.posts t = none) :
      Effect s (.post t path payload) (s.setPost t (some ⟨Thread.post path payload, none⟩))
  | allocate {t : Nat} {next : CoapAnswer → Dialogue CoapCall CoapAnswer (Except CoapError CoapResponse)}
      {e : Option Exchange} (h : s.posts t = some ⟨.ask .nextMessageId next, e⟩) :
      Effect s (.allocate t) { s.setPost t (some ⟨next ⟨s.messageId, .error .io⟩, none⟩) with
        messageId := s.messageId + 1 }
  | register {t : Nat} {request : Packet}
      {next : CoapAnswer → Dialogue CoapCall CoapAnswer (Except CoapError CoapResponse)}
      (h : s.posts t = some ⟨.ask (.exchange request) next, none⟩) :
      Effect s (.transmit t .sent) ((s.beginExchange t request).send request)
  | refuse {t : Nat} {request : Packet}
      {next : CoapAnswer → Dialogue CoapCall CoapAnswer (Except CoapError CoapResponse)}
      (h : s.posts t = some ⟨.ask (.exchange request) next, none⟩) :
      Effect s (.transmit t .refused) { s.setPost t (some ⟨next ⟨0, .error .io⟩, none⟩) with
        pending := Function.update s.pending request.token none }
  | unencoded {t : Nat} {request : Packet} {msg : String}
      {next : CoapAnswer → Dialogue CoapCall CoapAnswer (Except CoapError CoapResponse)}
      (h : s.posts t = some ⟨.ask (.exchange request) next, none⟩) :
      Effect s (.transmit t (.unencodable msg)) (s.setPost t (some ⟨next
        ⟨0, .error (.coap ("could not encode CoAP request: " ++ msg))⟩, none⟩))
  | datagram (p : Packet) : Effect s (.datagram p) (s.readerLoop p)
  | proceed {a : CoapAction} {t : Nat} {e e' : Exchange} {next : CoapAnswer → Post}
      {channels : Nat → List Packet} (sent : List Packet) (ha : waiting a = some t)
      (hrun : s.running t = some (e, next)) (hrequest : e'.request = e.request)
      (hchannel : e'.channel = e.channel) (hsub : ∀ c, ∀ q ∈ channels c, q ∈ s.channels c) :
      Effect s a ({ s with channels := channels, sent := sent }.setExchange t e')
  | conclude {a : CoapAction} {t : Nat} {e : Exchange} {next : CoapAnswer → Post}
      {channels : Nat → List Packet} {result : Except CoapError Packet} (sent : List Packet)
      (ha : waiting a = some t) (hrun : s.running t = some (e, next))
      (hsub : ∀ c, ∀ q ∈ channels c, q ∈ s.channels c) :
      Effect s a ({ s with channels := channels, sent := sent }.finishExchange t e next result)
  | leave {a : CoapAction} {t : Nat} (ha : leaving a = some t) : Effect s a (s.setPost t none)

theorem mem_of_mem_update {rest : List Packet} {channels : Nat → List Packet} {c : Nat}
    (h : ∀ q ∈ rest, q ∈ channels c) (c' : Nat) :
    ∀ q ∈ Function.update channels c rest c', q ∈ channels c' := by
  intro q hq
  by_cases hc : c' = c
  · subst hc
    rw [Function.update_self] at hq
    exact h q hq
  · rwa [Function.update_of_ne hc] at hq

theorem effect_of_receive [CoapLite] {sending : Sending} (h : s.receive t sending = some s') :
    Effect s (.receive t sending) s' := by
  unfold receive at h
  cases hrun : s.running t with
  | none =>
    rw [hrun] at h
    cases h
  | some r =>
    obtain ⟨e, next⟩ := r
    cases hchannel : s.channels e.channel with
    | nil => simp [hrun, hchannel] at h
    | cons p rest =>
      have hsub : ∀ q ∈ rest, q ∈ s.channels e.channel := by
        intro q hq
        rw [hchannel]
        exact List.mem_cons_of_mem p hq
      simp only [hrun, hchannel] at h
      by_cases hp : p.isEmpty = true
      · rw [if_pos hp] at h
        obtain rfl := Option.some.inj h
        exact .proceed s.sent rfl hrun rfl rfl (mem_of_mem_update hsub)
      · rw [if_neg hp] at h
        obtain rfl := Option.some.inj h
        have hconclude := mem_of_mem_update hsub
        unfold accept
        split_ifs
        · cases sending with
          | sent => exact .conclude (s.sent ++ [_]) rfl hrun hconclude
          | refused => exact .conclude s.sent rfl hrun hconclude
          | unencodable msg => exact .conclude s.sent rfl hrun hconclude
        · exact .conclude s.sent rfl hrun hconclude

theorem effect_of_elapsed [CoapLite] {taken : Bool} (h : s.elapsed t taken = some s') :
    Effect s (.elapsed t taken) s' := by
  unfold elapsed at h
  cases hrun : s.running t with
  | none =>
    rw [hrun] at h
    cases h
  | some r =>
    obtain ⟨e, next⟩ := r
    have hsub : ∀ c, ∀ q ∈ s.channels c, q ∈ s.channels c := fun _ _ hq => hq
    simp only [hrun] at h
    obtain ⟨-, h⟩ := Option.ite_none_right_eq_some.mp h
    split at h
    · by_cases htaken : taken = true
      · rw [if_pos htaken] at h
        obtain rfl := Option.some.inj h
        exact .proceed (s.sent ++ [_]) rfl hrun rfl rfl hsub
      · rw [if_neg htaken] at h
        obtain rfl := Option.some.inj h
        exact .conclude s.sent rfl hrun hsub
    · obtain rfl := Option.some.inj h
      exact .conclude s.sent rfl hrun hsub
    · obtain rfl := Option.some.inj h
      exact .conclude s.sent rfl hrun hsub

theorem effect_of_step [CoapLite] {a : CoapAction} (h : s.step a = some s') : Effect s a s' := by
  cases a with
  | post t path payload =>
    obtain ⟨hnone, rfl⟩ := guarded_eq_some.mp h
    exact .start (Option.isNone_iff_eq_none.mp hnone)
  | allocate t =>
    simp only [step] at h
    split at h
    · next hx =>
      obtain rfl := Option.some.inj h
      exact .allocate hx
    · cases h
  | transmit t sending =>
    simp only [step] at h
    split at h
    · next hx =>
      cases sending with
      | sent =>
        obtain rfl := Option.some.inj h
        exact .register hx
      | refused =>
        obtain rfl := Option.some.inj h
        exact .refuse hx
      | unencodable msg =>
        obtain rfl := Option.some.inj h
        exact .unencoded hx
    · cases h
  | datagram p =>
    obtain rfl := Option.some.inj h
    exact .datagram p
  | receive t sending => exact effect_of_receive h
  | elapsed t taken => exact effect_of_elapsed h
  | closed t =>
    simp only [step] at h
    split at h
    · next e next hrun =>
      obtain ⟨-, rfl⟩ := guarded_eq_some.mp h
      exact .conclude s.sent rfl hrun fun _ _ hq => hq
    · cases h
  | finish t =>
    simp only [step] at h
    split at h
    · obtain rfl := Option.some.inj h
      exact .leave rfl
    · cases h
  | drop t =>
    obtain ⟨-, rfl⟩ := guarded_eq_some.mp h
    exact .leave rfl

def inFlight (s : UdpCoapTransport) (t : Nat) : Option Exchange := (s.posts t).bind (·.exchange)

theorem inFlight_eq_some {e : Exchange} :
    s.inFlight t = some e ↔ ∃ x, s.posts t = some x ∧ x.exchange = some e :=
  Option.bind_eq_some_iff

theorem running_inv {e : Exchange} {next : CoapAnswer → Post} (h : s.running t = some (e, next)) :
    ∃ q k, s.posts t = some ⟨.ask q k, some e⟩ ∧ next = fun answer => ⟨k answer, none⟩ := by
  unfold running at h
  split at h
  · next q k e' hx =>
    obtain ⟨rfl, rfl⟩ := Prod.mk.inj (Option.some.inj h)
    exact ⟨q, k, hx, rfl⟩
  · cases h

theorem inFlight_of_running {e : Exchange} {next : CoapAnswer → Post}
    (h : s.running t = some (e, next)) : s.inFlight t = some e := by
  obtain ⟨q, k, hx, -⟩ := running_inv h
  exact inFlight_eq_some.mpr ⟨_, hx, rfl⟩

@[simp] theorem setPost_posts_self (x : Option Post) : (s.setPost t x).posts t = x :=
  Function.update_self ..

theorem inFlight_update {x : Option Post}
    (h : s'.posts = Function.update s.posts t x) (t' : Nat) :
    s'.inFlight t' = if t' = t then x.bind (·.exchange) else s.inFlight t' := by
  rw [inFlight, h]
  split_ifs with ht
  · rw [ht, Function.update_self]
  · rw [Function.update_of_ne ht]
    rfl

theorem inFlight_setExchange {e : Exchange} {x : Post} (hx : s.posts t = some x) :
    (s.setExchange t e).inFlight t = some e := by
  rw [inFlight_update (t := t) rfl, if_pos rfl, hx]
  rfl

theorem readerLoop_event {p : Packet} (hp : p.isEventPut = true) :
    s.readerLoop p = { s with
      posts := fun t => (s.posts t).map (Post.note p)
      sent := s.sent ++ [.ack 0x43 p.messageId p.token]
      events := s.events ++ [p.payload] } := by
  unfold readerLoop
  rw [if_pos hp]
  rfl

theorem readerLoop_other {p : Packet} (hp : p.isEventPut = false) :
    s.readerLoop p = { s.route p with posts := fun t => (s.posts t).map (Post.note p) } := by
  unfold readerLoop route
  rw [if_neg (Bool.eq_false_iff.mp hp)]
  dsimp only
  cases s.pending p.token <;> rfl

end UdpCoapTransport

/-! ## Counting the ids -/

open UdpCoapTransport

/-- The transport, the number of ids drawn so far, and the posts that have drawn the id of
a token for an exchange that has not returned, each with the number of that id. -/
structure Counted where
  udp : UdpCoapTransport
  drawn : Nat
  tokens : List (Nat × Nat)

namespace Counted
variable {c c' : Counted} {t t' n : Nat}

def connect : Counted := ⟨.connect, 0, []⟩

def release (c : Counted) (udp : UdpCoapTransport) (t : Nat) : List (Nat × Nat) :=
  if (udp.inFlight t).isSome then c.tokens else c.tokens.filter (·.1 ≠ t)

def note (c : Counted) (udp : UdpCoapTransport) : CoapAction → Counted
  | .allocate t =>
    ⟨udp, c.drawn + 1, if c.tokens.any (·.1 = t) then c.tokens else c.tokens ++ [(t, c.drawn)]⟩
  | .datagram _ => ⟨udp, c.drawn, c.tokens⟩
  | .post t _ _ | .transmit t _ | .receive t _ | .elapsed t _ | .closed t | .finish t | .drop t =>
    ⟨udp, c.drawn, c.release udp t⟩

def step [CoapLite] (c : Counted) (a : CoapAction) : Option Counted := (c.udp.step a).map (c.note · a)

/-- Fewer than 65536 ids are drawn during an exchange, from its token on. -/
def Sparse (c : Counted) : CoapAction → Prop
  | .allocate _ => ∀ x ∈ c.tokens, c.drawn - x.2 < 65536
  | _ => True

instance (c : Counted) : (a : CoapAction) → Decidable (c.Sparse a)
  | .allocate _ => inferInstanceAs (Decidable (∀ x ∈ c.tokens, c.drawn - x.2 < 65536))
  | .post _ _ _ | .transmit _ _ | .datagram _ | .receive _ _ | .elapsed _ _ | .closed _
  | .finish _ | .drop _ => isTrue trivial

def tokenOf (n : Nat) : Bytes := tokenBytes (UInt16.ofNat (1 + n))

theorem tokenBytes_injective {i j : UInt16} (h : tokenBytes i = tokenBytes j) : i = j := by
  obtain ⟨hhigh, hlow⟩ := List.cons.inj h
  have hi := i.toNat_lt
  have hj := j.toNat_lt
  have hhigh' := congrArg UInt8.toNat hhigh
  have hlow' := congrArg UInt8.toNat (List.cons.inj hlow).1
  rw [UInt8.toNat_ofNat', UInt8.toNat_ofNat'] at hhigh' hlow'
  apply UInt16.toNat_inj.mp
  omega

theorem tokenOf_injective {m : Nat} (hn : n < m + 65536) (hm : m < n + 65536)
    (h : tokenOf n = tokenOf m) : n = m := by
  have hid := congrArg UInt16.toNat (tokenBytes_injective h)
  rw [UInt16.toNat_ofNat', UInt16.toNat_ofNat'] at hid
  omega

inductive Placed (tokens : List (Nat × Nat)) (t : Nat) : Option Post → Prop
  | absent (h : ∀ n, (t, n) ∉ tokens) : Placed tokens t none
  | idle {program : Dialogue CoapCall CoapAnswer (Except CoapError CoapResponse)}
      (h : ∀ n, (t, n) ∉ tokens) (hfollows : Follows program .idle) :
      Placed tokens t (some ⟨program, none⟩)
  | drawn {program : Dialogue CoapCall CoapAnswer (Except CoapError CoapResponse)} {n : Nat}
      (h : (t, n) ∈ tokens) (hfollows : Follows program (.drawn (tokenOf n))) :
      Placed tokens t (some ⟨program, none⟩)
  | framed {program : Dialogue CoapCall CoapAnswer (Except CoapError CoapResponse)} {n : Nat}
      (h : (t, n) ∈ tokens) (hfollows : Follows program (.framed (tokenOf n))) :
      Placed tokens t (some ⟨program, none⟩)
  | flying {next : CoapAnswer → Dialogue CoapCall CoapAnswer (Except CoapError CoapResponse)}
      {e : Exchange} {n : Nat} (h : (t, n) ∈ tokens) (htoken : e.request.token = tokenOf n)
      (hfollows : ∀ x, Follows (next x) .idle) :
      Placed tokens t (some ⟨.ask (.exchange e.request) next, some e⟩)

structure Inv (c : Counted) : Prop where
  messageId : c.udp.messageId = UInt16.ofNat (1 + c.drawn)
  numbers : ∀ x ∈ c.tokens, x.2 < c.drawn ∧ c.drawn ≤ x.2 + 65536
  distinct : ∀ x ∈ c.tokens, ∀ y ∈ c.tokens, x.2 = y.2 → x.1 = y.1
  placed : ∀ t, Placed c.tokens t (c.udp.posts t)
  -- no token is registered for the channel of an exchange in flight with another one
  pending : ∀ {token ch}, c.udp.pending token = some ch → ch < c.udp.opened ∧
    ∀ {t e}, c.udp.inFlight t = some e → e.channel = ch → e.request.token = token
  registered : ∀ {t e}, c.udp.inFlight t = some e →
    c.udp.pending e.request.token = some e.channel
  content : ∀ {t e}, c.udp.inFlight t = some e → ∀ q ∈ c.udp.channels e.channel,
    q.token = e.request.token ∧ q.isEventPut = false

theorem Inv.connect : Inv connect where
  messageId := rfl
  numbers x hx := by cases hx
  distinct x hx := by cases hx
  placed t := .absent fun n hn => by cases hn
  pending h := by cases h
  registered h := by cases h
  content h := by cases h

theorem Inv.exists_number (h : c.Inv) {e : Exchange} (he : c.udp.inFlight t = some e) :
    ∃ n, (t, n) ∈ c.tokens ∧ e.request.token = tokenOf n := by
  obtain ⟨x, hx, hex⟩ := inFlight_eq_some.mp he
  have hplaced := h.placed t
  rw [hx] at hplaced
  cases hplaced with
  | idle => cases hex
  | drawn => cases hex
  | framed => cases hex
  | flying hmem htoken _ =>
    obtain rfl := Option.some.inj hex
    exact ⟨_, hmem, htoken⟩

theorem Inv.eq_of_tokenOf (h : c.Inv) {m : Nat} (hn : (t, n) ∈ c.tokens) (hm : (t', m) ∈ c.tokens)
    (htoken : tokenOf n = tokenOf m) : t = t' := by
  have hn' := h.numbers _ hn
  have hm' := h.numbers _ hm
  dsimp only at hn' hm'
  exact h.distinct _ hn _ hm (tokenOf_injective (by omega) (by omega) htoken)

theorem Inv.eq_of_token (h : c.Inv) {e e' : Exchange} (he : c.udp.inFlight t = some e)
    (he' : c.udp.inFlight t' = some e') (htoken : e.request.token = e'.request.token) : t = t' := by
  obtain ⟨n, hn, hen⟩ := h.exists_number he
  obtain ⟨m, hm, hem⟩ := h.exists_number he'
  exact h.eq_of_tokenOf hn hm (by rw [← hen, ← hem, htoken])

theorem Placed.of_tokens {tokens tokens' : List (Nat × Nat)} {x : Option Post}
    (h : Placed tokens t x) (hsame : ∀ n, (t, n) ∈ tokens' ↔ (t, n) ∈ tokens) :
    Placed tokens' t x := by
  cases h with
  | absent h => exact .absent fun n hn => h n ((hsame n).mp hn)
  | idle h hfollows => exact .idle (fun n hn => h n ((hsame n).mp hn)) hfollows
  | drawn h hfollows => exact .drawn ((hsame _).mpr h) hfollows
  | framed h hfollows => exact .framed ((hsame _).mpr h) hfollows
  | flying h htoken hfollows => exact .flying ((hsame _).mpr h) htoken hfollows

theorem mem_filter_tokens {tokens : List (Nat × Nat)} :
    (t', n) ∈ tokens.filter (·.1 ≠ t) ↔ (t', n) ∈ tokens ∧ t' ≠ t := by
  rw [List.mem_filter, decide_eq_true_iff]

theorem Inv.move (h : c.Inv) {x : Option Post}
    (hposts : c'.udp.posts = Function.update c.udp.posts t x) (hnone : x.bind (·.exchange) = none)
    (hid : c'.udp.messageId = UInt16.ofNat (1 + c'.drawn))
    (hnumbers : ∀ y ∈ c'.tokens, y.2 < c'.drawn ∧ c'.drawn ≤ y.2 + 65536)
    (hdistinct : ∀ y ∈ c'.tokens, ∀ z ∈ c'.tokens, y.2 = z.2 → y.1 = z.1)
    (hplaced : Placed c'.tokens t x)
    (hothers : ∀ t' ≠ t, ∀ n, (t', n) ∈ c'.tokens ↔ (t', n) ∈ c.tokens)
    (hopened : c'.udp.opened = c.udp.opened)
    (hchannels : ∀ ch, ∀ q ∈ c'.udp.channels ch, q ∈ c.udp.channels ch)
    (hpending : ∀ {token ch}, c'.udp.pending token = some ch → c.udp.pending token = some ch)
    (hkeep : ∀ {t' e}, t' ≠ t → c.udp.inFlight t' = some e →
      c'.udp.pending e.request.token = c.udp.pending e.request.token) : c'.Inv := by
  have hflight : ∀ {t' e}, c'.udp.inFlight t' = some e → t' ≠ t ∧ c.udp.inFlight t' = some e := by
    intro t' e he
    rw [inFlight_update hposts] at he
    split_ifs at he with ht
    · rw [hnone] at he
      cases he
    · exact ⟨ht, he⟩
  refine ⟨hid, hnumbers, hdistinct, ?_, ?_, ?_, ?_⟩
  · intro t'
    by_cases ht : t' = t
    · rw [ht, hposts, Function.update_self]
      exact hplaced
    · rw [hposts, Function.update_of_ne ht]
      exact (h.placed t').of_tokens (hothers t' ht)
  · intro token ch hch
    obtain ⟨hlt, hown⟩ := h.pending (hpending hch)
    refine ⟨hopened ▸ hlt, ?_⟩
    intro t' e he hech
    exact hown (hflight he).2 hech
  · intro t' e he
    obtain ⟨hne, he⟩ := hflight he
    exact (hkeep hne he).trans (h.registered he)
  · intro t' e he q hq
    exact h.content (hflight he).2 q (hchannels _ q hq)

theorem Inv.rest (h : c.Inv) {udp : UdpCoapTransport} {x : Option Post}
    (hposts : udp.posts = Function.update c.udp.posts t x) (hnone : x.bind (·.exchange) = none)
    (hplaced : ∀ tokens : List (Nat × Nat), (∀ n, (t, n) ∉ tokens) → Placed tokens t x)
    (hid : udp.messageId = c.udp.messageId) (hopened : udp.opened = c.udp.opened)
    (hchannels : ∀ ch, ∀ q ∈ udp.channels ch, q ∈ c.udp.channels ch)
    (hpending : ∀ {token ch}, udp.pending token = some ch → c.udp.pending token = some ch)
    (hkeep : ∀ {t' e}, t' ≠ t → c.udp.inFlight t' = some e →
      udp.pending e.request.token = c.udp.pending e.request.token) :
    Inv ⟨udp, c.drawn, c.release udp t⟩ := by
  have hrelease : c.release udp t = c.tokens.filter (·.1 ≠ t) := by
    rw [release, inFlight_update hposts, if_pos rfl, hnone]
    rfl
  rw [hrelease]
  refine h.move hposts hnone (hid.trans h.messageId) ?_ ?_ ?_ ?_ hopened hchannels hpending hkeep
  · intro y hy
    exact h.numbers y (List.mem_of_mem_filter hy)
  · intro y hy z hz
    exact h.distinct y (List.mem_of_mem_filter hy) z (List.mem_of_mem_filter hz)
  · exact hplaced _ fun n hn => (mem_filter_tokens.mp hn).2 rfl
  · intro t' ht n
    rw [mem_filter_tokens, and_iff_left ht]

theorem Inv.lt_opened (h : c.Inv) {e : Exchange} (he : c.udp.inFlight t = some e) :
    e.channel < c.udp.opened := (h.pending (h.registered he)).1

theorem Inv.exchange_framed (h : c.Inv) {request : Packet}
    {next : CoapAnswer → Dialogue CoapCall CoapAnswer (Except CoapError CoapResponse)}
    (hx : c.udp.posts t = some ⟨.ask (.exchange request) next, none⟩) :
    ∃ n, (t, n) ∈ c.tokens ∧ request.token = tokenOf n ∧ ∀ x, Follows (next x) .idle := by
  have hplaced := h.placed t
  rw [hx] at hplaced
  cases hplaced with
  | idle _ hfollows => exact hfollows.elim
  | drawn _ hfollows => exact hfollows.elim
  | framed hmem hfollows => exact ⟨_, hmem, hfollows.1, hfollows.2⟩

theorem Inv.token_ne (h : c.Inv) (hn : (t, n) ∈ c.tokens) {e : Exchange} (hne : t' ≠ t)
    (he : c.udp.inFlight t' = some e) : e.request.token ≠ tokenOf n := by
  intro heq
  obtain ⟨m, hm, hem⟩ := h.exists_number he
  exact hne (h.eq_of_tokenOf hm hn (hem.symm.trans heq))

theorem Inv.allocate (h : c.Inv) {e : Option Exchange}
    {next : CoapAnswer → Dialogue CoapCall CoapAnswer (Except CoapError CoapResponse)}
    (hx : c.udp.posts t = some ⟨.ask .nextMessageId next, e⟩) (hsparse : c.Sparse (.allocate t)) :
    (c.note { c.udp.setPost t (some ⟨next ⟨c.udp.messageId, .error .io⟩, none⟩) with
      messageId := c.udp.messageId + 1 } (.allocate t)).Inv := by
  have hplaced := h.placed t
  rw [hx] at hplaced
  have hid : c.udp.messageId + 1 = UInt16.ofNat (1 + (c.drawn + 1)) := by
    rw [h.messageId, ← Nat.add_assoc]
    exact (UInt16.ofNat_add _ 1).symm
  have hnumbers : ∀ y ∈ c.tokens, y.2 < c.drawn + 1 ∧ c.drawn + 1 ≤ y.2 + 65536 := by
    intro y hy
    have hnumber := h.numbers y hy
    have hfew := hsparse y hy
    omega
  cases hplaced with
  | idle hfree hfollows =>
    have hany : c.tokens.any (·.1 = t) = false := by
      rw [List.any_eq_false]
      intro y hy heq
      exact hfree y.2 (by rwa [← decide_eq_true_iff.mp heq])
    refine h.move rfl rfl hid ?_ ?_ ?_ ?_ rfl (fun _ _ hq => hq) id (fun _ _ => rfl)
    all_goals simp only [note, hany, Bool.false_eq_true, if_false]
    · intro y hy
      rcases List.mem_append.mp hy with hy | hy
      · exact hnumbers y hy
      · obtain rfl := List.mem_singleton.mp hy
        dsimp only
        omega
    · intro y hy z hz heq
      rcases List.mem_append.mp hy with hy | hy <;> rcases List.mem_append.mp hz with hz | hz
      · exact h.distinct y hy z hz heq
      · rw [List.mem_singleton.mp hz] at heq
        exact absurd heq (h.numbers y hy).1.ne
      · rw [List.mem_singleton.mp hy] at heq
        exact absurd heq.symm (h.numbers z hz).1.ne
      · rw [List.mem_singleton.mp hy, List.mem_singleton.mp hz]
    · refine .drawn (n := c.drawn) (List.mem_append_right _ (List.mem_singleton_self _)) ?_
      rw [tokenOf, ← h.messageId]
      exact hfollows _
    · intro t' ht n
      rw [List.mem_append, List.mem_singleton, Prod.mk.injEq]
      exact or_iff_left fun heq => ht heq.1
  | @drawn _ n hmem hfollows =>
    have hany : c.tokens.any (·.1 = t) = true :=
      List.any_eq_true.mpr ⟨(t, n), hmem, decide_eq_true rfl⟩
    refine h.move rfl rfl hid ?_ ?_ ?_ ?_ rfl (fun _ _ hq => hq) id (fun _ _ => rfl)
    all_goals simp only [note, hany, if_true]
    · exact hnumbers
    · exact h.distinct
    · exact .framed hmem (hfollows _)
    · exact fun _ _ _ => trivial
  | framed _ hfollows => exact hfollows.elim

theorem release_of_inFlight {udp : UdpCoapTransport} {e : Exchange} (h : udp.inFlight t = some e) :
    c.release udp t = c.tokens := by
  rw [release, h]
  rfl

theorem Inv.register (h : c.Inv) {request : Packet}
    {next : CoapAnswer → Dialogue CoapCall CoapAnswer (Except CoapError CoapResponse)}
    (hx : c.udp.posts t = some ⟨.ask (.exchange request) next, none⟩) :
    (c.note ((c.udp.beginExchange t request).send request) (.transmit t .sent)).Inv := by
  obtain ⟨n, hn, htoken, hfollows⟩ := h.exchange_framed hx
  let e : Exchange := ⟨request, c.udp.opened, .transmitted (maxTransmissions - 1), false, 0⟩
  have hposts : ((c.udp.beginExchange t request).send request).posts =
      Function.update c.udp.posts t (some ⟨.ask (.exchange request) next, some e⟩) := by
    rw [show ((c.udp.beginExchange t request).send request).posts = Function.update c.udp.posts t
      ((c.udp.posts t).map fun x => { x with exchange := some e }) from rfl, hx]
    rfl
  rw [note, release_of_inFlight (e := e) (by rw [inFlight_update hposts, if_pos rfl]; rfl)]
  -- an exchange in flight afterwards is the new one, or has another channel and token
  have hflight : ∀ {t' e'}, ((c.udp.beginExchange t request).send request).inFlight t' = some e' →
      e' = e ∨ c.udp.inFlight t' = some e' ∧ e'.channel ≠ c.udp.opened ∧
        e'.request.token ≠ request.token := by
    intro t' e' he'
    rw [inFlight_update hposts] at he'
    split_ifs at he' with ht
    · exact .inl (Option.some.inj he').symm
    · exact .inr ⟨he', (h.lt_opened he').ne, htoken ▸ h.token_ne hn ht he'⟩
  refine ⟨h.messageId, h.numbers, h.distinct, ?_, ?_, ?_, ?_⟩
  · intro t'
    by_cases ht : t' = t
    · rw [ht, hposts, Function.update_self]
      exact .flying (e := e) hn htoken hfollows
    · rw [hposts, Function.update_of_ne ht]
      exact h.placed t'
  · intro token ch hch
    change Function.update c.udp.pending request.token (some c.udp.opened) token = some ch at hch
    by_cases heq : token = request.token
    · rw [heq, Function.update_self] at hch
      obtain rfl := Option.some.inj hch
      refine ⟨Nat.lt_succ_self _, ?_⟩
      intro t' e' he' hch'
      rcases hflight he' with rfl | ⟨-, hne, -⟩
      · exact heq.symm
      · exact absurd hch' hne
    · rw [Function.update_of_ne heq] at hch
      obtain ⟨hlt, hown⟩ := h.pending hch
      refine ⟨Nat.lt_succ_of_lt hlt, ?_⟩
      intro t' e' he' hch'
      rcases hflight he' with rfl | ⟨hold, -, -⟩
      · exact absurd hch' hlt.ne'
      · exact hown hold hch'
  · intro t' e' he'
    change Function.update c.udp.pending request.token (some c.udp.opened) e'.request.token = _
    rcases hflight he' with rfl | ⟨hold, -, hne⟩
    · exact Function.update_self ..
    · rw [Function.update_of_ne hne]
      exact h.registered hold
  · intro t' e' he' q hq
    change q ∈ Function.update c.udp.channels c.udp.opened [] e'.channel at hq
    rcases hflight he' with rfl | ⟨hold, hne, -⟩
    · rw [Function.update_self] at hq
      cases hq
    · rw [Function.update_of_ne hne] at hq
      exact h.content hold q hq

theorem Inv.stay (h : c.Inv) {udp : UdpCoapTransport} (hid : udp.messageId = c.udp.messageId)
    (hopened : udp.opened = c.udp.opened) (hpending : udp.pending = c.udp.pending)
    (hposts : ∀ t, ∃ f : Exchange → Exchange,
      (∀ e, c.udp.inFlight t = some e → (f e).request = e.request ∧ (f e).channel = e.channel) ∧
      udp.posts t = (c.udp.posts t).map fun x => { x with exchange := x.exchange.map f })
    (hcontent : ∀ {t e}, c.udp.inFlight t = some e → ∀ q ∈ udp.channels e.channel,
      q.token = e.request.token ∧ q.isEventPut = false) : Inv ⟨udp, c.drawn, c.tokens⟩ := by
  have hflight : ∀ {t e'}, udp.inFlight t = some e' →
      ∃ e, c.udp.inFlight t = some e ∧ e'.request = e.request ∧ e'.channel = e.channel := by
    intro t e' he'
    obtain ⟨f, hf, hpost⟩ := hposts t
    obtain ⟨x', hx', hxe'⟩ := inFlight_eq_some.mp he'
    rw [hpost] at hx'
    obtain ⟨x, hx, rfl⟩ := Option.map_eq_some_iff.mp hx'
    obtain ⟨e, he, rfl⟩ := Option.map_eq_some_iff.mp hxe'
    have hin := inFlight_eq_some.mpr ⟨x, hx, he⟩
    exact ⟨e, hin, hf e hin⟩
  refine ⟨hid.trans h.messageId, h.numbers, h.distinct, ?_, ?_, ?_, ?_⟩
  · intro t
    obtain ⟨f, hf, hpost⟩ := hposts t
    have hplaced := h.placed t
    rw [inFlight] at hf
    rw [hpost]
    generalize c.udp.posts t = x at hplaced hf
    cases hplaced with
    | absent hfree => exact .absent hfree
    | idle hfree hfollows => exact .idle hfree hfollows
    | drawn hmem hfollows => exact .drawn hmem hfollows
    | framed hmem hfollows => exact .framed hmem hfollows
    | @flying next e n hmem htoken hfollows =>
      obtain ⟨hrequest, -⟩ := hf e rfl
      simp only [Option.map_some, ← hrequest]
      exact .flying hmem (hrequest ▸ htoken) hfollows
  · intro token ch hch
    obtain ⟨hlt, hown⟩ := h.pending (hpending ▸ hch)
    refine ⟨hopened ▸ hlt, ?_⟩
    intro t e' he' hch'
    obtain ⟨e, he, hrequest, hchannel⟩ := hflight he'
    rw [hrequest]
    exact hown he (hchannel ▸ hch')
  · intro t e' he'
    obtain ⟨e, he, hrequest, hchannel⟩ := hflight he'
    rw [hrequest, hchannel, hpending]
    exact h.registered he
  · intro t e' he' q hq
    obtain ⟨e, he, hrequest, hchannel⟩ := hflight he'
    rw [hrequest]
    exact hcontent he q (hchannel ▸ hq)

theorem Inv.channels_route (h : c.Inv) {e : Exchange} (he : c.udp.inFlight t = some e) (p : Packet) :
    (c.udp.route p).channels e.channel =
      c.udp.channels e.channel ++ if p.token = e.request.token then [p] else [] := by
  unfold route
  split
  · next ch hch =>
    by_cases heq : e.channel = ch
    · subst heq
      rw [if_pos ((h.pending hch).2 he rfl).symm]
      exact Function.update_self ..
    · have hne : p.token ≠ e.request.token := by
        intro htoken
        rw [htoken, h.registered he] at hch
        exact heq (Option.some.inj hch)
      rw [if_neg hne, List.append_nil]
      exact Function.update_of_ne heq ..
  · next hnone =>
    have hne : p.token ≠ e.request.token := by
      intro htoken
      rw [htoken, h.registered he] at hnone
      cases hnone
    rw [if_neg hne, List.append_nil]

theorem Inv.datagram (h : c.Inv) (p : Packet) :
    Inv ⟨c.udp.readerLoop p, c.drawn, c.tokens⟩ := by
  have hnote : ∀ t, ∃ f : Exchange → Exchange,
      (∀ e, c.udp.inFlight t = some e → (f e).request = e.request ∧ (f e).channel = e.channel) ∧
      (c.udp.posts t).map (Post.note p) =
        (c.udp.posts t).map fun x => { x with exchange := x.exchange.map f } :=
    fun _ => ⟨Exchange.note p, fun _ _ => ⟨rfl, rfl⟩, rfl⟩
  cases hp : p.isEventPut with
  | true =>
    rw [readerLoop_event hp]
    exact h.stay rfl rfl rfl hnote h.content
  | false =>
    rw [readerLoop_other hp]
    have hroute : (c.udp.route p).messageId = c.udp.messageId ∧
        (c.udp.route p).opened = c.udp.opened ∧ (c.udp.route p).pending = c.udp.pending := by
      unfold route
      cases c.udp.pending p.token <;> exact ⟨rfl, rfl, rfl⟩
    refine h.stay hroute.1 hroute.2.1 hroute.2.2 hnote ?_
    intro t e he q hq
    change q ∈ (c.udp.route p).channels e.channel at hq
    rw [h.channels_route he] at hq
    rcases List.mem_append.mp hq with hq | hq
    · exact h.content he q hq
    · split_ifs at hq with htoken
      · obtain rfl := List.mem_singleton.mp hq
        exact ⟨htoken, hp⟩
      · cases hq

theorem note_udp (a : CoapAction) (udp : UdpCoapTransport) : (c.note udp a).udp = udp := by
  cases a <;> rfl

theorem note_of_waiting {a : CoapAction} (ha : waiting a = some t) (udp : UdpCoapTransport) :
    c.note udp a = ⟨udp, c.drawn, c.release udp t⟩ := by
  cases a with
  | receive | elapsed | closed =>
    obtain rfl := Option.some.inj ha
    rfl
  | _ => cases ha

theorem note_of_leaving {a : CoapAction} (ha : leaving a = some t) (udp : UdpCoapTransport) :
    c.note udp a = ⟨udp, c.drawn, c.release udp t⟩ := by
  cases a with
  | finish | drop =>
    obtain rfl := Option.some.inj ha
    rfl
  | _ => cases ha

theorem Inv.proceed (h : c.Inv) {e e' : Exchange} {next : CoapAnswer → Post}
    {channels : Nat → List Packet} (sent : List Packet) (hrun : c.udp.running t = some (e, next))
    (hrequest : e'.request = e.request) (hchannel : e'.channel = e.channel)
    (hsub : ∀ ch, ∀ q ∈ channels ch, q ∈ c.udp.channels ch) :
    Inv ⟨{ c.udp with channels := channels, sent := sent }.setExchange t e', c.drawn, c.tokens⟩ := by
  refine h.stay rfl rfl rfl ?_ fun he q hq => h.content he q (hsub _ q hq)
  intro t'
  by_cases ht : t' = t
  · subst ht
    obtain ⟨q, k, hx, -⟩ := running_inv hrun
    refine ⟨fun _ => e', ?_, ?_⟩
    · intro e'' he''
      rw [inFlight_of_running hrun] at he''
      obtain rfl := Option.some.inj he''
      exact ⟨hrequest, hchannel⟩
    · change Function.update c.udp.posts t' _ t' = _
      rw [Function.update_self, hx]
      rfl
  · refine ⟨id, fun _ _ => ⟨rfl, rfl⟩, ?_⟩
    change Function.update c.udp.posts t _ t' = _
    rw [Function.update_of_ne ht]
    simp

theorem Inv.deregister (h : c.Inv) {udp : UdpCoapTransport} {token : Bytes}
    {program : Dialogue CoapCall CoapAnswer (Except CoapError CoapResponse)}
    (hn : (t, n) ∈ c.tokens) (htoken : token = tokenOf n) (hfollows : Follows program .idle)
    (hposts : udp.posts = Function.update c.udp.posts t (some ⟨program, none⟩))
    (hid : udp.messageId = c.udp.messageId) (hopened : udp.opened = c.udp.opened)
    (hchannels : ∀ ch, ∀ q ∈ udp.channels ch, q ∈ c.udp.channels ch)
    (hpending : udp.pending = Function.update c.udp.pending token none) :
    Inv ⟨udp, c.drawn, c.release udp t⟩ := by
  refine h.rest hposts rfl (fun _ hfree => .idle hfree hfollows) hid hopened hchannels ?_ ?_
  · intro token' ch hch
    rw [hpending] at hch
    by_cases heq : token' = token
    · rw [heq, Function.update_self] at hch
      cases hch
    · rwa [Function.update_of_ne heq] at hch
  · intro t' e hne he
    rw [hpending, Function.update_of_ne (htoken ▸ h.token_ne hn hne he)]

theorem inv_step [CoapLite] {a : CoapAction} (h : c.Inv) (hs : restrict step Sparse c a = some c') : c'.Inv := by
  obtain ⟨hsparse, hs⟩ := restrict_eq_some.mp hs
  obtain ⟨udp, hstep, rfl⟩ := Option.map_eq_some_iff.mp hs
  cases effect_of_step hstep with
  | @start t path payload hx =>
    exact h.rest rfl rfl (fun _ hfree => .idle hfree (post_follows path payload)) rfl rfl
      (fun _ _ hq => hq) id (fun _ _ => rfl)
  | allocate hx => exact h.allocate hx hsparse
  | register hx => exact h.register hx
  | refuse hx =>
    obtain ⟨n, hn, htoken, hfollows⟩ := h.exchange_framed hx
    exact h.deregister hn htoken (hfollows _) rfl rfl rfl (fun _ _ hq => hq) rfl
  | unencoded hx =>
    obtain ⟨n, hn, htoken, hfollows⟩ := h.exchange_framed hx
    exact h.rest rfl rfl (fun _ hfree => .idle hfree (hfollows _)) rfl rfl
      (fun _ _ hq => hq) id (fun _ _ => rfl)
  | datagram p => exact h.datagram p
  | proceed sent ha hrun hrequest hchannel hsub =>
    obtain ⟨q, k, hx, -⟩ := running_inv hrun
    rw [note_of_waiting ha, release_of_inFlight]
    · exact h.proceed sent hrun hrequest hchannel hsub
    · exact inFlight_setExchange hx
  | @conclude a t e next channels result sent ha hrun hsub =>
    rw [note_of_waiting ha]
    obtain ⟨n, hn, htoken⟩ := h.exists_number (inFlight_of_running hrun)
    obtain ⟨q, k, hx, rfl⟩ := running_inv hrun
    have hplaced := h.placed t
    rw [hx] at hplaced
    cases hplaced with
    | flying _ _ hfollows => exact h.deregister hn htoken (hfollows _) rfl rfl rfl hsub rfl
  | leave ha =>
    rw [note_of_leaving ha]
    exact h.rest rfl rfl (fun _ hfree => .absent hfree) rfl rfl (fun _ _ hq => hq) id
      (fun _ _ => rfl)

end Counted

/-! ## Routing -/

open Counted

/-- The reader hands a packet that is no event to the one exchange in flight with its token,
if there is one, and puts an event into the queue and acknowledges it. -/
structure Routed (s : UdpCoapTransport) (p : Packet) : Prop where
  owner : ∀ {t e t' e'}, s.inFlight t = some e → s.inFlight t' = some e' →
    e.request.token = p.token → e'.request.token = p.token → t = t'
  other : p.isEventPut = false →
    (s.readerLoop p).events = s.events ∧ (s.readerLoop p).sent = s.sent ∧
    ∀ {t e}, s.inFlight t = some e → (s.readerLoop p).channels e.channel =
      s.channels e.channel ++ if p.token = e.request.token then [p] else []
  event : p.isEventPut = true →
    (s.readerLoop p).events = s.events ++ [p.payload] ∧
    (s.readerLoop p).sent = s.sent ++ [.ack 0x43 p.messageId p.token] ∧
    (s.readerLoop p).channels = s.channels

theorem Counted.Inv.routed {c : Counted} (h : c.Inv) (p : Packet) : Routed c.udp p where
  owner he he' htoken htoken' := h.eq_of_token he he' (htoken.trans htoken'.symm)
  other hp := by
    rw [readerLoop_other hp]
    have hroute : (c.udp.route p).events = c.udp.events ∧ (c.udp.route p).sent = c.udp.sent := by
      unfold route
      cases c.udp.pending p.token <;> exact ⟨rfl, rfl⟩
    exact ⟨hroute.1, hroute.2, fun he => h.channels_route he p⟩
  event hp := by
    rw [readerLoop_event hp]
    exact ⟨rfl, rfl, rfl⟩

def eventPayload : CoapAction → Option Bytes
  | .datagram p => if p.isEventPut then some p.payload else none
  | _ => none

theorem eventPayload_of_waiting {a : CoapAction} {t : Nat} (ha : waiting a = some t) :
    eventPayload a = none := by
  cases a with
  | datagram => cases ha
  | _ => rfl

theorem eventPayload_of_leaving {a : CoapAction} {t : Nat} (ha : leaving a = some t) :
    eventPayload a = none := by
  cases a with
  | datagram => cases ha
  | _ => rfl

theorem events_of_effect [CoapLite] {s s' : UdpCoapTransport} {a : CoapAction} (h : Effect s a s') :
    s'.events = s.events ++ (eventPayload a).toList := by
  cases h with
  | datagram p =>
    cases hp : p.isEventPut with
    | true =>
      rw [readerLoop_event hp, eventPayload, if_pos hp]
      rfl
    | false =>
      rw [readerLoop_other hp, eventPayload, if_neg (Bool.eq_false_iff.mp hp)]
      unfold route
      cases s.pending p.token <;> exact (List.append_nil _).symm
  | proceed _ ha | conclude _ ha =>
    rw [eventPayload_of_waiting ha]
    exact (List.append_nil _).symm
  | leave ha =>
    rw [eventPayload_of_leaving ha]
    exact (List.append_nil _).symm
  | _ => exact (List.append_nil _).symm

/-- In every run in which fewer than 65536 ids are drawn during any exchange, the event queue
holds the events received, in order; the packets an exchange can take carry its token and
are no events; and whatever is received next is routed. -/
theorem routed_of_sparse [CoapLite] {actions : List CoapAction} {c : Counted}
    (hrun : steps (restrict Counted.step Sparse) Counted.connect actions = some c) :
    c.udp.events = trace eventPayload actions ∧
      (∀ {t e}, c.udp.inFlight t = some e → ∀ q ∈ c.udp.channels e.channel,
        q.token = e.request.token ∧ q.isEventPut = false) ∧
      ∀ p, Routed c.udp p := by
  have hinv : c.Inv := steps_invariant inv_step actions .connect hrun
  refine ⟨?_, hinv.content, hinv.routed⟩
  refine (steps_trace (f := fun c => c.udp.events) ?_ actions hrun).trans (List.nil_append _)
  intro c a c' hs
  obtain ⟨udp, hstep, rfl⟩ := Option.map_eq_some_iff.mp (restrict_eq_some.mp hs).2
  rw [note_udp]
  exact events_of_effect (effect_of_step hstep)

def twoPosts : List CoapAction :=
  [.post 0 "0" [1], .post 1 "0" [2], .allocate 0, .allocate 0, .allocate 1, .allocate 1,
    .transmit 0 .sent, .transmit 1 .sent]

def sampleEvent : Packet := ⟨.confirmable, 0x03, 7, [0, 1], "", none, [5]⟩

def secondResponse : Packet := ⟨.acknowledgement, 0x44, 4, [0, 3], "", none, [6]⟩

attribute [local instance] coapLite

theorem routed_of_sparse_two :
    ∃ c e e', steps (restrict Counted.step Sparse) Counted.connect
        (twoPosts ++ [.datagram sampleEvent, .datagram secondResponse]) = some c ∧
      c.udp.events = [[5]] ∧ c.udp.inFlight 0 = some e ∧ c.udp.inFlight 1 = some e' ∧
      c.udp.channels e.channel = [] ∧ c.udp.channels e'.channel = [secondResponse] ∧
      Routed c.udp sampleEvent := by
  have hrun : (steps (restrict Counted.step Sparse) Counted.connect
      (twoPosts ++ [.datagram sampleEvent, .datagram secondResponse])).map
        (fun c => (c.udp.inFlight 0, c.udp.inFlight 1, c.udp.channels 0, c.udp.channels 1)) =
      some (some ⟨⟨.confirmable, 0x02, 2, [0, 1], "0", none, [1]⟩, 0, .transmitted 3, false, 0⟩,
        some ⟨⟨.confirmable, 0x02, 4, [0, 3], "0", none, [2]⟩, 1, .transmitted 3, false, 0⟩,
        [], [secondResponse]) := by decide +kernel
  obtain ⟨c, hc, hstate⟩ := Option.map_eq_some_iff.mp hrun
  obtain ⟨he, hstate⟩ := Prod.mk.inj hstate
  obtain ⟨he', hstate⟩ := Prod.mk.inj hstate
  obtain ⟨hfirst, hsecond⟩ := Prod.mk.inj hstate
  obtain ⟨hevents, -, hrouted⟩ := routed_of_sparse hc
  exact ⟨c, _, _, hc, hevents, he, he', hfirst, hsecond, hrouted sampleEvent⟩

end HapRust.Thread
