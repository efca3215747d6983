import HapRust.Lib.InFlight
import HapRust.Thread.Accessory
import HapRust.Thread.Waiting
import HapRust.ThreadDut.Conversation

/-! The controller and the accessory with a network between them that may lose,
duplicate and reorder datagrams. The calls on the connected accessory hold the
session, so that there is one at a time. -/

namespace HapRust.ThreadDut
open Lib Crypto Thread

/-- Calls of `κ` with results in `α`; the post of the call in progress is number 0. -/
structure System (κ α : Type) where
  udp : UdpCoapTransport
  session : CoapSession
  call : Option (Except CoapError CoapResponse → Posting α)
  server : Server
  toAccessory : List Packet
  toController : List Packet
  arrived : List Packet
  called : List κ
  returned : List (Except ThreadError α)

inductive NetAction (κ : Type) where
  | call (c : κ)
  | allocate
  | transmit (sending : Sending)
  | receive (sending : Sending)
  | elapsed (taken : Bool)
  | closed
  | finish
  | serve (i : Nat) (draws : Draws)
  | hear (i : Nat)
  | loseRequest (i : Nat)
  | loseReply (i : Nat)
  | duplicateRequest (i : Nat)
  | duplicateReply (i : Nat)

namespace System
variable (P : Primitives) {κ α : Type} (perform : κ → CoapSession → Posting α)

def start (session : CoapSession) (server : Server) : System κ α :=
  ⟨.connect, session, none, server, [], [], [], [], []⟩

def proceed [CoapLite] (s : System κ α) : Posting α → Option (System κ α)
  | .ret (r, session) =>
    some { s with session := session, call := none, returned := s.returned ++ [r] }
  | .ask sealed next =>
    (s.udp.step (.post 0 "" sealed)).map fun udp => { s with udp := udp, call := some next }

def client [CoapLite] (s : System κ α) (a : CoapAction) : Option (System κ α) :=
  (s.udp.step a).map fun udp =>
    { s with udp := udp, toAccessory := s.toAccessory ++ udp.sent.drop s.udp.sent.length }

def step [CoapLite] (s : System κ α) : NetAction κ → Option (System κ α)
  | .call c =>
    if s.call.isNone then { s with called := s.called ++ [c] }.proceed (perform c s.session) else none
  | .allocate => s.client (.allocate 0)
  | .transmit sending => s.client (.transmit 0 sending)
  | .receive sending => s.client (.receive 0 sending)
  | .elapsed taken => s.client (.elapsed 0 taken)
  | .closed => s.client (.closed 0)
  | .finish =>
    match s.call, s.udp.posts 0 with
    | some next, some ⟨.ret r, _⟩ => { s with udp := s.udp.setPost 0 none }.proceed (next r)
    | _, _ => none
  | .serve i draws => (s.toAccessory[i]?).map fun p =>
    { s with
      toAccessory := s.toAccessory.eraseIdx i
      server := (s.server.serve P draws p).2
      toController := s.toController ++ (s.server.serve P draws p).1
      arrived := s.arrived ++ [p] }
  | .hear i => (s.toController[i]?).bind fun p =>
    { s with toController := s.toController.eraseIdx i }.client (.datagram (p.received Thread.recvBuf))
  | .loseRequest i => (s.toAccessory[i]?).map fun _ =>
    { s with toAccessory := s.toAccessory.eraseIdx i }
  | .loseReply i => (s.toController[i]?).map fun _ =>
    { s with toController := s.toController.eraseIdx i }
  | .duplicateRequest i => (s.toAccessory[i]?).map fun p =>
    { s with toAccessory := s.toAccessory ++ [p] }
  | .duplicateReply i => (s.toController[i]?).map fun p =>
    { s with toController := s.toController ++ [p] }

def Lost (s : System κ α) : Prop :=
  (s.udp.inFlight 0).any fun e =>
    decide (e.request ∉ s.toAccessory ∧ e.request ∉ s.arrived ∧ e.mayRepeat)

instance (s : System κ α) : Decidable s.Lost := inferInstanceAs (Decidable (_ = true))

variable (reliable : Bool) (admissible : κ → Prop)

/-- What may happen in a step. No datagram is duplicated, and the socket takes what it is
given. A reliable network loses nothing, and no timer runs out; on another one, what arrives fits
the receive buffer and the reassembly, and the acknowledgement timer runs out only after the
request was lost. -/
def Allowed [CoapLite] (s : System κ α) : NetAction κ → Prop
  | .call c => admissible c
  | .transmit sending | .receive sending => sending = .sent
  | .elapsed taken => taken = true ∧ reliable = false ∧ s.Lost
  | .serve i _ => reliable = true ∨ (s.toAccessory[i]?).all (fun p => decide (p.Fits recvBuf)) = true
  | .hear i => reliable = true ∨ (s.toController[i]?).all (fun p => decide (Hearable p)) = true
  | .loseRequest _ | .loseReply _ => reliable = false
  | .duplicateRequest _ | .duplicateReply _ => False
  | .allocate | .closed | .finish => True

instance [CoapLite] [DecidablePred admissible] (s : System κ α) :
    (a : NetAction κ) → Decidable (s.Allowed reliable admissible a)
  | .call c => inferInstanceAs (Decidable (admissible c))
  | .transmit sending | .receive sending => inferInstanceAs (Decidable (sending = .sent))
  | .elapsed taken => inferInstanceAs (Decidable (taken = true ∧ reliable = false ∧ s.Lost))
  | .serve i _ =>
    inferInstanceAs (Decidable (reliable = true ∨ (s.toAccessory[i]?).all _ = true))
  | .hear i => inferInstanceAs (Decidable (reliable = true ∨ (s.toController[i]?).all _ = true))
  | .loseRequest _ | .loseReply _ => inferInstanceAs (Decidable (reliable = false))
  | .duplicateRequest _ | .duplicateReply _ => isFalse id
  | .allocate | .closed | .finish => isTrue trivial

/-! ## Datagrams that arrive -/

variable {P perform reliable admissible} {s s' : System κ α} {x y : Option Packet}

def inTransit (s : System κ α) : Nat := s.toAccessory.length + s.toController.length

def IsAck (p : Packet) : Prop := p.kind = .acknowledgement

/-- No call has been made yet, and what is in flight means nothing to either side. -/
structure Connected (s : System κ α) : Prop where
  tokenless : s.udp.pending [] = none
  post : s.udp.posts 0 = none
  call : s.call = none
  called : s.called = []
  returned : s.returned = []
  requests : ∀ p ∈ s.toAccessory, IsAck p
  replies : ∀ p ∈ s.toController, Stale p

theorem connected_start {session : CoapSession} {server : Server} :
    (start session server : System κ α).Connected := ⟨rfl, rfl, rfl, rfl, rfl, nofun, nofun⟩

structure Less (x y : Option Packet) (s s' : System κ α) : Prop where
  udp : s'.udp = s.udp ∨ ∃ p, s'.udp = { s.udp with posts := fun t => (s.udp.posts t).map (Post.note p) }
  session : s'.session = s.session
  call : s'.call = s.call
  server : s'.server = s.server
  called : s'.called = s.called
  returned : s'.returned = s.returned
  arrived : ∀ p ∈ s.arrived, p ∈ s'.arrived
  requests : Carries IsAck s'.toAccessory x
  replies : Carries Stale s'.toController y
  inTransit : s'.inTransit < s.inTransit

variable (P reliable) in
inductive Arrival [CoapLite] (x y : Option Packet) (s : System κ α) : System κ α → Prop
  | stale {s' : System κ α} (h : Less x y s s') : Arrival x y s s'
  | request {p : Packet} {flight : List Packet} (draws : Draws) (hx : x = some p)
      (hfits : reliable = true ∨ p.Fits recvBuf) (hflight : Carries IsAck flight none) :
      Arrival x y s { s with
        toAccessory := flight
        server := (s.server.serve P draws p).2
        toController := s.toController ++ (s.server.serve P draws p).1
        arrived := s.arrived ++ [p] }
  | reply {p : Packet} {flight : List Packet} (hy : y = some p)
      (hhear : reliable = true ∨ Hearable p) (hflight : Carries Stale flight none) :
      Arrival x y s { s with
        udp := s.udp.readerLoop (p.received Thread.recvBuf)
        toController := flight
        toAccessory := s.toAccessory ++
          (s.udp.readerLoop (p.received Thread.recvBuf)).sent.drop s.udp.sent.length }
  | lostRequest {p : Packet} {flight : List Packet} (hx : x = some p) (hlossy : reliable = false)
      (hflight : Carries IsAck flight none) : Arrival x y s { s with toAccessory := flight }
  | lostReply {p : Packet} {flight : List Packet} (hy : y = some p) (hlossy : reliable = false)
      (hflight : Carries Stale flight none) : Arrival x y s { s with toController := flight }

section
variable [CoapLite] (hrequests : Carries IsAck s.toAccessory x) (hreplies : Carries Stale s.toController y)
include hrequests hreplies

theorem arrival_of_serve {i : Nat} {draws : Draws}
    (hallowed : s.Allowed reliable admissible (.serve i draws))
    (hstep : s.step P perform (.serve i draws) = some s') : Arrival P reliable x y s s' := by
  obtain ⟨p, hp, rfl⟩ := Option.map_eq_some_iff.mp hstep
  rcases hrequests.arrive hp with ⟨rfl, hflight⟩ | ⟨hack, hflight⟩
  · refine .request draws rfl ?_ hflight
    rw [Allowed, hp] at hallowed
    exact hallowed.imp_right of_decide_eq_true
  · rw [Server.serve_ack draws hack]
    refine .stale ⟨.inl rfl, rfl, rfl, rfl, rfl, rfl, ?_, hflight, ?_, ?_⟩
    · exact fun q hq => List.mem_append_left _ hq
    · rwa [List.append_nil]
    · simp only [inTransit, List.append_nil]
      exact Nat.add_lt_add_right (length_eraseIdx_lt hp) _

theorem arrival_of_hear {i : Nat} (htokenless : s.udp.pending [] = none)
    (hallowed : s.Allowed reliable admissible (.hear i))
    (hstep : s.step P perform (.hear i) = some s') : Arrival P reliable x y s s' := by
  obtain ⟨p, hp, hclient⟩ := Option.bind_eq_some_iff.mp hstep
  obtain ⟨udp, hudp, rfl⟩ := Option.map_eq_some_iff.mp hclient
  obtain rfl := Option.some.inj hudp
  rcases hreplies.arrive hp with ⟨rfl, hflight⟩ | ⟨⟨htoken, hevent⟩, hflight⟩
  · refine .reply rfl ?_ hflight
    rw [Allowed, hp] at hallowed
    exact hallowed.imp_right of_decide_eq_true
  · have hloop := UdpCoapTransport.readerLoop_tokenless (p := p.received Thread.recvBuf) htokenless
      htoken hevent
    have hsent : (s.udp.readerLoop (p.received Thread.recvBuf)).sent.drop s.udp.sent.length = [] := by
      rw [hloop, List.drop_length]
    refine .stale ⟨.inr ⟨_, hloop⟩, rfl, rfl, rfl, rfl, rfl, fun q hq => hq, ?_, hflight, ?_⟩
    · rwa [hsent, List.append_nil]
    · simp only [inTransit, hsent, List.append_nil]
      exact Nat.add_lt_add_left (length_eraseIdx_lt hp) _

theorem arrival_of_loseRequest {i : Nat} (hallowed : s.Allowed reliable admissible (.loseRequest i))
    (hstep : s.step P perform (.loseRequest i) = some s') : Arrival P reliable x y s s' := by
  obtain ⟨p, hp, rfl⟩ := Option.map_eq_some_iff.mp hstep
  rcases hrequests.arrive hp with ⟨rfl, hflight⟩ | ⟨-, hflight⟩
  · exact .lostRequest rfl hallowed hflight
  · exact .stale ⟨.inl rfl, rfl, rfl, rfl, rfl, rfl, fun q hq => hq, hflight, hreplies,
      Nat.add_lt_add_right (length_eraseIdx_lt hp) _⟩

theorem arrival_of_loseReply {i : Nat} (hallowed : s.Allowed reliable admissible (.loseReply i))
    (hstep : s.step P perform (.loseReply i) = some s') : Arrival P reliable x y s s' := by
  obtain ⟨p, hp, rfl⟩ := Option.map_eq_some_iff.mp hstep
  rcases hreplies.arrive hp with ⟨rfl, hflight⟩ | ⟨-, hflight⟩
  · exact .lostReply rfl hallowed hflight
  · exact .stale ⟨.inl rfl, rfl, rfl, rfl, rfl, rfl, fun q hq => hq, hrequests, hflight,
      Nat.add_lt_add_left (length_eraseIdx_lt hp) _⟩

end

def OfNetwork : NetAction κ → Prop
  | .serve _ _ | .hear _ | .loseRequest _ | .loseReply _ | .duplicateRequest _ | .duplicateReply _ => True
  | _ => False

theorem arrival_of_step [CoapLite] {a : NetAction κ} (ha : OfNetwork a) (htokenless : s.udp.pending [] = none)
    (hrequests : Carries IsAck s.toAccessory x) (hreplies : Carries Stale s.toController y)
    (hallowed : s.Allowed reliable admissible a) (hstep : s.step P perform a = some s') :
    Arrival P reliable x y s s' := by
  cases a with
  | serve => exact arrival_of_serve hrequests hreplies hallowed hstep
  | hear => exact arrival_of_hear hrequests hreplies htokenless hallowed hstep
  | loseRequest => exact arrival_of_loseRequest hrequests hreplies hallowed hstep
  | loseReply => exact arrival_of_loseReply hrequests hreplies hallowed hstep
  | duplicateRequest | duplicateReply => exact hallowed.elim
  | _ => exact ha.elim

theorem Less.pending (h : Less x y s s') : s'.udp.pending = s.udp.pending := by
  rcases h.udp with hudp | ⟨p, hudp⟩ <;> rw [hudp]

theorem Less.post_none (h : Less x y s s') (hpost : s.udp.posts 0 = none) : s'.udp.posts 0 = none := by
  rcases h.udp with hudp | ⟨p, hudp⟩
  · rwa [hudp]
  · simp only [hudp, hpost, Option.map_none]

theorem Less.post (h : Less x y s s')
    {program : Dialogue CoapCall CoapAnswer (Except CoapError CoapResponse)}
    (hpost : s.udp.posts 0 = some ⟨program, none⟩) : s'.udp.posts 0 = some ⟨program, none⟩ := by
  rcases h.udp with hudp | ⟨p, hudp⟩
  · rwa [hudp]
  · rw [hudp]
    dsimp only
    rw [hpost]
    rfl

theorem Less.waiting (h : Less x y s s') {request : Packet} {content : List Packet}
    {next : CoapAnswer → Dialogue CoapCall CoapAnswer (Except CoapError CoapResponse)}
    (hwait : s.udp.Waiting request next content) : s'.udp.Waiting request next content := by
  rcases h.udp with hudp | ⟨p, hudp⟩
  · rwa [hudp]
  · rw [hudp]
    exact hwait.note

/-! ## The phases of a call -/

section
variable (P reliable)
  (Idle : CoapSession → Server → List κ → List (Except ThreadError α) → Prop)

def Returns (called : List κ) (returned : List (Except ThreadError α))
    (resume : Except CoapError CoapResponse → Posting α) (server : Server)
    (reply : Except CoapError CoapResponse) : Prop :=
  ∃ r session, resume reply = .ret (r, session) ∧ Idle session server called (returned ++ [r])

structure Quiet (s : System κ α) : Prop where
  tokenless : s.udp.pending [] = none
  post : s.udp.posts 0 = none
  call : s.call = none
  idle : Idle s.session s.server s.called s.returned
  requests : Carries IsAck s.toAccessory none
  replies : Carries Stale s.toController none

variable [CoapLite]

def Holds (s : System κ α)
    (program : Dialogue CoapCall CoapAnswer (Except CoapError CoapResponse)) : Prop :=
  ∃ resume, s.call = some resume ∧
    Leads P reliable (Returns Idle s.called s.returned resume) program s.server

structure Asking (s : System κ α)
    (program : Dialogue CoapCall CoapAnswer (Except CoapError CoapResponse)) : Prop where
  tokenless : s.udp.pending [] = none
  post : s.udp.posts 0 = some ⟨program, none⟩
  holds : Holds P reliable Idle s program
  requests : Carries IsAck s.toAccessory none
  replies : Carries Stale s.toController none

structure Sent (s : System κ α) (request : Packet)
    (next : CoapAnswer → Dialogue CoapCall CoapAnswer (Except CoapError CoapResponse)) : Prop where
  tokenless : s.udp.pending [] = none
  waiting : s.udp.Waiting request next []
  holds : Holds P reliable Idle s (.ask (.exchange request) next)
  requests : ∃ x, Carries IsAck s.toAccessory x ∧ (x = some request ∨ x = none ∧ reliable = false)
  replies : Carries Stale s.toController none

structure Answered (s : System κ α) (request : Packet)
    (next : CoapAnswer → Dialogue CoapCall CoapAnswer (Except CoapError CoapResponse))
    (reply : Packet) : Prop where
  tokenless : s.udp.pending [] = none
  waiting : s.udp.Waiting request next []
  call : s.call.isSome
  token : request.token ≠ []
  answers : Answers reply request
  fits : reliable = true → Hearable reply
  holds : Hearable reply → Holds P reliable Idle s (next ⟨0, .ok reply⟩)
  arrived : request ∈ s.arrived
  requests : Carries IsAck s.toAccessory none
  replies : ∃ y, Carries Stale s.toController y ∧ (y = some reply ∨ y = none ∧ reliable = false)

structure Heard (s : System κ α) (request : Packet)
    (next : CoapAnswer → Dialogue CoapCall CoapAnswer (Except CoapError CoapResponse))
    (reply : Packet) : Prop where
  tokenless : s.udp.pending [] = none
  waiting : s.udp.Waiting request next [reply]
  token : request.token ≠ []
  notEmpty : reply.isEmpty = false
  holds : Holds P reliable Idle s (next ⟨0, .ok reply⟩)
  requests : Carries IsAck s.toAccessory none
  replies : Carries Stale s.toController none

variable (perform admissible)

def Serves : Prop :=
  ∀ {session server called returned} {c : κ}, Idle session server called returned → admissible c →
    ∃ sealed resume, perform c session = .ask sealed resume ∧
      Leads P reliable (Returns Idle (called ++ [c]) returned resume) (Thread.post "" sealed) server

end

section
variable {Idle : CoapSession → Server → List κ → List (Except ThreadError α) → Prop}
  {program : Dialogue CoapCall CoapAnswer (Except CoapError CoapResponse)} {a : NetAction κ}
  {next : CoapAnswer → Dialogue CoapCall CoapAnswer (Except CoapError CoapResponse)}
  {request reply : Packet}

theorem Less.quiet (h : Less none none s s') (hs : Quiet Idle s) : Quiet Idle s' where
  tokenless := h.pending ▸ hs.tokenless
  post := h.post_none hs.post
  call := h.call.trans hs.call
  idle := by
    rw [h.session, h.server, h.called, h.returned]
    exact hs.idle
  requests := h.requests
  replies := h.replies

def Awaits : NetAction κ → Prop
  | .receive _ | .elapsed _ | .closed => True
  | _ => False

variable [CoapLite]

theorem Less.holds (h : Less x y s s') (hholds : Holds P reliable Idle s program) :
    Holds P reliable Idle s' program := by
  obtain ⟨resume, hcall, hleads⟩ := hholds
  refine ⟨resume, h.call.trans hcall, ?_⟩
  rwa [h.called, h.returned, h.server]

theorem Less.asking (h : Less none none s s') (hs : Asking P reliable Idle s program) :
    Asking P reliable Idle s' program where
  tokenless := h.pending ▸ hs.tokenless
  post := h.post hs.post
  holds := h.holds hs.holds
  requests := h.requests
  replies := h.replies

theorem Less.sent (h : Less x none s s') (hs : Sent P reliable Idle s request next)
    (hx : x = some request ∨ x = none ∧ reliable = false) :
    Sent P reliable Idle s' request next where
  tokenless := h.pending ▸ hs.tokenless
  waiting := h.waiting hs.waiting
  holds := h.holds hs.holds
  requests := ⟨x, h.requests, hx⟩
  replies := h.replies

theorem Less.answered (h : Less none y s s') (hs : Answered P reliable Idle s request next reply)
    (hy : y = some reply ∨ y = none ∧ reliable = false) :
    Answered P reliable Idle s' request next reply where
  tokenless := h.pending ▸ hs.tokenless
  waiting := h.waiting hs.waiting
  call := h.call ▸ hs.call
  token := hs.token
  answers := hs.answers
  fits := hs.fits
  holds hhear := h.holds (hs.holds hhear)
  arrived := h.arrived _ hs.arrived
  requests := h.requests
  replies := ⟨y, h.replies, hy⟩

theorem Less.heard (h : Less none none s s') (hs : Heard P reliable Idle s request next reply) :
    Heard P reliable Idle s' request next reply where
  tokenless := h.pending ▸ hs.tokenless
  waiting := h.waiting hs.waiting
  token := hs.token
  notEmpty := hs.notEmpty
  holds := h.holds hs.holds
  requests := h.requests
  replies := h.replies

/-! ## What a step makes of a phase -/

theorem client_eq_none {b : CoapAction} (h : s.udp.step b = none) : s.client b = none := by
  rw [client, h, Option.map_none]

theorem client_eq_some {b : CoapAction} (h : s.client b = some s') :
    ∃ udp, s.udp.step b = some udp ∧ ∀ late : List Packet, udp.sent = s.udp.sent ++ late →
      s' = { s with udp := udp, toAccessory := s.toAccessory ++ late } := by
  obtain ⟨udp, hudp, rfl⟩ := Option.map_eq_some_iff.mp h
  refine ⟨udp, hudp, ?_⟩
  intro late hlate
  rw [hlate, List.drop_left]

theorem not_awaits_of_idle (hidle : s.udp.inFlight 0 = none) (hstep : s.step P perform a = some s') :
    ¬ Awaits a := by
  intro ha
  cases a with
  | receive sending =>
    have hnone := UdpCoapTransport.step_eq_none_of_idle hidle (.inl ⟨sending, rfl⟩)
    cases (client_eq_none hnone).symm.trans hstep
  | elapsed taken =>
    have hnone := UdpCoapTransport.step_eq_none_of_idle hidle (.inr (.inl ⟨taken, rfl⟩))
    cases (client_eq_none hnone).symm.trans hstep
  | closed =>
    have hnone := UdpCoapTransport.step_eq_none_of_idle hidle (.inr (.inr rfl))
    cases (client_eq_none hnone).symm.trans hstep
  | _ => exact ha

theorem cases_of_waiting {content : List Packet} (hwait : s.udp.Waiting request next content)
    (hcall : s.call.isSome) (hstep : s.step P perform a = some s') :
    OfNetwork a ∨ (∃ sending, a = .receive sending) ∨ ∃ taken, a = .elapsed taken := by
  obtain ⟨resume, hresume⟩ := Option.isSome_iff_exists.mp hcall
  cases a with
  | call c =>
    rw [System.step, hresume, if_neg (by simp)] at hstep
    cases hstep
  | allocate => cases (client_eq_none (hwait.step_none (.inl rfl))).symm.trans hstep
  | transmit sending =>
    cases (client_eq_none (hwait.step_none (.inr (.inl ⟨sending, rfl⟩)))).symm.trans hstep
  | closed => cases (client_eq_none (hwait.step_none (.inr (.inr rfl)))).symm.trans hstep
  | receive sending => exact .inr (.inl ⟨sending, rfl⟩)
  | elapsed taken => exact .inr (.inr ⟨taken, rfl⟩)
  | finish =>
    obtain ⟨e, -, hpost, -⟩ := hwait
    simp only [System.step, hresume, hpost] at hstep
    cases hstep
  | _ => exact .inl trivial

theorem Quiet.step (hserves : Serves P perform reliable admissible Idle) (h : Quiet Idle s)
    (hallowed : s.Allowed reliable admissible a) (hstep : s.step P perform a = some s') :
    Quiet Idle s' ∧ s'.inTransit < s.inTransit ∨
      ∃ sealed, Asking P reliable Idle s' (Thread.post "" sealed) := by
  have hidle : s.udp.inFlight 0 = none := by rw [UdpCoapTransport.inFlight, h.post]; rfl
  by_cases ha : OfNetwork a
  · cases arrival_of_step ha h.tokenless h.requests h.replies hallowed hstep with
    | stale hless => exact .inl ⟨hless.quiet h, hless.inTransit⟩
    | request _ hx | lostRequest hx | reply hx | lostReply hx => cases hx
  cases a with
  | call c =>
    rw [System.step, h.call, if_pos (by rfl)] at hstep
    obtain ⟨sealed, resume, hperform, hleads⟩ := hserves h.idle hallowed
    rw [hperform, proceed] at hstep
    obtain ⟨udp, hudp, rfl⟩ := Option.map_eq_some_iff.mp hstep
    obtain ⟨-, rfl⟩ := guarded_eq_some.mp hudp
    exact .inr ⟨sealed, h.tokenless, UdpCoapTransport.setPost_posts_self _, ⟨resume, rfl, hleads⟩,
      h.requests, h.replies⟩
  | allocate =>
    rw [System.step, client_eq_none (by simp only [UdpCoapTransport.step, h.post])] at hstep
    cases hstep
  | transmit sending =>
    rw [System.step, client_eq_none (by simp only [UdpCoapTransport.step, h.post])] at hstep
    cases hstep
  | receive | elapsed | closed => exact (not_awaits_of_idle hidle hstep trivial).elim
  | finish =>
    simp only [System.step, h.call] at hstep
    cases hstep
  | _ => exact absurd trivial ha

theorem Quiet.exists_call (h : Quiet Idle s) (c : κ) :
    ∃ s', s.step P perform (.call c) = some s' := by
  rw [System.step, if_pos (by rw [h.call]; rfl)]
  cases perform c s.session with
  | ret r => exact ⟨_, rfl⟩
  | ask sealed next =>
    simp only [proceed, UdpCoapTransport.step, h.post, Option.isNone_none, if_true, Option.map_some]
    exact ⟨_, rfl⟩

theorem Asking.step (h : Asking P reliable Idle s program)
    (hallowed : s.Allowed reliable admissible a) (hstep : s.step P perform a = some s') :
    Asking P reliable Idle s' program ∧ s'.inTransit < s.inTransit ∨
    (∃ next answer, program = .ask .nextMessageId next ∧
      Asking P reliable Idle s' (next answer)) ∨
    (∃ request next, program = .ask (.exchange request) next ∧
      Sent P reliable Idle s' request next) ∨
    ∃ r, program = .ret r ∧ Quiet Idle s' := by
  obtain ⟨resume, hcall, hleads⟩ := h.holds
  have hidle : s.udp.inFlight 0 = none := by rw [UdpCoapTransport.inFlight, h.post]; rfl
  by_cases ha : OfNetwork a
  · cases arrival_of_step ha h.tokenless h.requests h.replies hallowed hstep with
    | stale hless => exact .inl ⟨hless.asking h, hless.inTransit⟩
    | request _ hx | lostRequest hx | reply hx | lostReply hx => cases hx
  cases a with
  | call c =>
    rw [System.step, hcall, if_neg (by simp)] at hstep
    cases hstep
  | allocate =>
    obtain ⟨udp, hudp, heq⟩ := client_eq_some hstep
    simp only [UdpCoapTransport.step, h.post] at hudp
    split at hudp
    · next next _ hx =>
      obtain ⟨rfl, -⟩ := Post.mk.inj (Option.some.inj hx)
      obtain rfl := Option.some.inj hudp
      rw [heq [] (List.append_nil _).symm, List.append_nil]
      exact .inr (.inl ⟨next, ⟨s.udp.messageId, .error .io⟩, rfl, h.tokenless,
        UdpCoapTransport.setPost_posts_self (s := s.udp) (t := 0) _, ⟨resume, hcall, hleads _⟩,
        h.requests, h.replies⟩)
    · cases hudp
  | transmit sending =>
    obtain rfl := hallowed
    obtain ⟨udp, hudp, heq⟩ := client_eq_some hstep
    simp only [UdpCoapTransport.step, h.post] at hudp
    split at hudp
    · next request next hx =>
      obtain ⟨rfl, -⟩ := Post.mk.inj (Option.some.inj hx)
      obtain rfl := Option.some.inj hudp
      rw [heq [request] rfl]
      obtain ⟨hkind, htoken, -⟩ := hleads
      refine .inr (.inr (.inl ⟨request, next, rfl, ?_,
        UdpCoapTransport.waiting_beginExchange h.post, h.holds, ⟨_, h.requests.append, .inl rfl⟩,
        h.replies⟩))
      exact (Function.update_of_ne htoken.symm ..).trans h.tokenless
    · cases hudp
  | receive | elapsed | closed => exact (not_awaits_of_idle hidle hstep trivial).elim
  | finish =>
    simp only [System.step, hcall, h.post] at hstep
    split at hstep
    · next resume' r _ hresume hx =>
      obtain rfl := Option.some.inj hresume
      obtain ⟨rfl, -⟩ := Post.mk.inj (Option.some.inj hx)
      obtain ⟨res, session, hret, hdone⟩ := hleads
      rw [hret] at hstep
      obtain rfl := Option.some.inj hstep
      exact .inr (.inr (.inr ⟨r, rfl, h.tokenless, UdpCoapTransport.setPost_posts_self _, rfl, hdone,
        h.requests, h.replies⟩))
    · cases hstep
  | _ => exact absurd trivial ha

theorem Sent.step (h : Sent P reliable Idle s request next)
    (hallowed : s.Allowed reliable admissible a) (hstep : s.step P perform a = some s') :
    Sent P reliable Idle s' request next ∧ (reliable = true → s'.inTransit < s.inTransit) ∨
      ∃ reply, Answered P reliable Idle s' request next reply := by
  obtain ⟨resume, hcall, hkind, htoken, hfits, hserve⟩ := h.holds
  obtain ⟨x, hrequests, hx⟩ := h.requests
  rcases cases_of_waiting h.waiting (by rw [hcall]; rfl) hstep with ha | ⟨sending, rfl⟩ | ⟨taken, rfl⟩
  · cases arrival_of_step ha h.tokenless hrequests h.replies hallowed hstep with
    | stale hless => exact .inl ⟨hless.sent h hx, fun _ => hless.inTransit⟩
    | @request p flight draws hp hfits' hflight =>
      rcases hx with rfl | ⟨rfl, -⟩
      · obtain rfl := Option.some.inj hp
        obtain ⟨stale, reply, hout, hstale, hanswers, hhear, hleads⟩ :=
          hserve (hfits'.elim hfits id) draws
        refine .inr ⟨reply, h.tokenless, h.waiting, by rw [hcall]; rfl, htoken, hanswers, hhear,
          fun hok => ⟨resume, hcall, hleads hok⟩, List.mem_append_right _ (List.mem_singleton_self _),
          hflight, ⟨some reply, ?_, .inl rfl⟩⟩
        dsimp only
        rw [hout, ← List.append_assoc]
        exact (h.replies.append_stale hstale).append
      · cases hp
    | @lostRequest p flight hp hlossy hflight =>
      refine .inl ⟨⟨h.tokenless, h.waiting, h.holds, ⟨none, hflight, .inr ⟨rfl, hlossy⟩⟩, h.replies⟩, ?_⟩
      intro hreliable
      cases hreliable.symm.trans hlossy
    | reply hy | lostReply hy => cases hy
  · cases (client_eq_none (h.waiting.step_receive_nil sending)).symm.trans hstep
  · -- the request was lost, and is sent again
    obtain ⟨rfl, hlossy, hlost⟩ := hallowed
    obtain ⟨udp, hudp, heq⟩ := client_eq_some hstep
    have hlost' := hlost
    obtain ⟨e, hrequest, hpost, -⟩ := h.waiting
    rw [Lost, UdpCoapTransport.inFlight, hpost] at hlost'
    obtain ⟨hflight, -, hmay⟩ := of_decide_eq_true hlost'
    obtain ⟨hwait, hpending, hsent⟩ := h.waiting.step_elapsed
      (by rw [UdpCoapTransport.inFlight, hpost]; exact hmay) hudp
    rw [heq _ hsent]
    rcases hx with rfl | ⟨rfl, -⟩
    · exact absurd hrequests.mem (hrequest ▸ hflight)
    · refine .inl ⟨⟨hpending ▸ h.tokenless, hwait, ⟨resume, hcall, hkind, htoken, hfits, hserve⟩,
        ⟨_, hrequests.append, .inl rfl⟩, h.replies⟩, ?_⟩
      intro hreliable
      cases hreliable.symm.trans hlossy

theorem Answered.step (h : Answered P reliable Idle s request next reply)
    (hallowed : s.Allowed reliable admissible a) (hstep : s.step P perform a = some s') :
    Answered P reliable Idle s' request next reply ∧ (reliable = true → s'.inTransit < s.inTransit) ∨
      Heard P reliable Idle s' request next reply := by
  obtain ⟨y, hreplies, hy⟩ := h.replies
  rcases cases_of_waiting h.waiting h.call hstep with ha | ⟨sending, rfl⟩ | ⟨taken, rfl⟩
  · cases arrival_of_step ha h.tokenless h.requests hreplies hallowed hstep with
    | stale hless => exact .inl ⟨hless.answered h hy, fun _ => hless.inTransit⟩
    | @reply p flight hp hhear hflight =>
      rcases hy with rfl | ⟨rfl, -⟩
      · obtain rfl := Option.some.inj hp
        have hok : Hearable reply := hhear.elim h.fits id
        have hevent := h.answers.notEvent
        have hsent : (s.udp.readerLoop reply).sent.drop s.udp.sent.length = [] := by
          rw [UdpCoapTransport.sent_readerLoop hevent, List.drop_length]
        rw [Packet.received_of_fits hok.1, hsent, List.append_nil]
        refine .inr ⟨?_, h.waiting.reply hevent h.answers.token, h.token, h.answers.notEmpty,
          h.holds hok, h.requests, hflight⟩
        dsimp only
        rw [UdpCoapTransport.pending_readerLoop]
        exact h.tokenless
      · cases hp
    | @lostReply p flight hp hlossy hflight =>
      refine .inl ⟨⟨h.tokenless, h.waiting, h.call, h.token, h.answers, h.fits, h.holds, h.arrived, h.requests,
        ⟨none, hflight, .inr ⟨rfl, hlossy⟩⟩⟩, ?_⟩
      intro hreliable
      cases hreliable.symm.trans hlossy
    | request _ hx | lostRequest hx => cases hx
  · cases (client_eq_none (h.waiting.step_receive_nil sending)).symm.trans hstep
  · -- the accessory has the request: it is not transmitted again
    obtain ⟨-, -, hlost⟩ := hallowed
    obtain ⟨e, hrequest, hpost, -⟩ := h.waiting
    rw [Lost, UdpCoapTransport.inFlight, hpost] at hlost
    obtain ⟨-, harrived, -⟩ := of_decide_eq_true hlost
    exact absurd h.arrived (hrequest ▸ harrived)

theorem Heard.step (h : Heard P reliable Idle s request next reply)
    (hallowed : s.Allowed reliable admissible a) (hstep : s.step P perform a = some s') :
    Heard P reliable Idle s' request next reply ∧ s'.inTransit < s.inTransit ∨
      Asking P reliable Idle s' (next ⟨0, .ok reply⟩) := by
  obtain ⟨resume, hcall, hleads⟩ := h.holds
  rcases cases_of_waiting h.waiting (by rw [hcall]; rfl) hstep with ha | ⟨sending, rfl⟩ | ⟨taken, rfl⟩
  · cases arrival_of_step ha h.tokenless h.requests h.replies hallowed hstep with
    | stale hless => exact .inl ⟨hless.heard h, hless.inTransit⟩
    | request _ hx | lostRequest hx | reply hx | lostReply hx => cases hx
  · obtain rfl := hallowed
    obtain ⟨udp, hudp, heq⟩ := client_eq_some hstep
    obtain ⟨hpost, hpending, acks, hsent, hacks⟩ := h.waiting.step_receive h.notEmpty hudp
    rw [heq _ hsent]
    refine .inr ⟨?_, hpost, ⟨resume, hcall, hleads⟩, h.requests.append_stale hacks, h.replies⟩
    dsimp only
    rw [hpending, Function.update_of_ne h.token.symm]
    exact h.tokenless
  · cases (client_eq_none (h.waiting.step_elapsed_cons taken)).symm.trans hstep

/-! ## Whole runs -/

variable (P reliable Idle) in
inductive Inv (s : System κ α) : Prop
  | quiet (h : Quiet Idle s)
  | asking {program : Dialogue CoapCall CoapAnswer (Except CoapError CoapResponse)}
      (h : Asking P reliable Idle s program)
  | sent {request : Packet}
      {next : CoapAnswer → Dialogue CoapCall CoapAnswer (Except CoapError CoapResponse)}
      (h : Sent P reliable Idle s request next)
  | answered {request reply : Packet}
      {next : CoapAnswer → Dialogue CoapCall CoapAnswer (Except CoapError CoapResponse)}
      (h : Answered P reliable Idle s request next reply)
  | heard {request reply : Packet}
      {next : CoapAnswer → Dialogue CoapCall CoapAnswer (Except CoapError CoapResponse)}
      (h : Heard P reliable Idle s request next reply)

theorem inv_of_connected (hs : s.Connected) (h : Idle s.session s.server [] []) :
    Inv P reliable Idle s := by
  refine .quiet ⟨hs.tokenless, hs.post, hs.call, ?_, Carries.nil.append_stale hs.requests,
    Carries.nil.append_stale hs.replies⟩
  rw [hs.called, hs.returned]
  exact h

theorem Inv.quiet_of_none (h : Inv P reliable Idle s) (hcall : s.call = none) : Quiet Idle s := by
  have hholds : ∀ {program : Dialogue CoapCall CoapAnswer (Except CoapError CoapResponse)},
      ¬ Holds P reliable Idle s program := by
    rintro program ⟨resume, hsome, -⟩
    cases hcall.symm.trans hsome
  cases h with
  | quiet h => exact h
  | asking h => exact absurd h.holds hholds
  | sent h => exact absurd h.holds hholds
  | answered h => exact absurd h.call (by rw [hcall]; exact Bool.false_ne_true)
  | heard h => exact absurd h.holds hholds

section
variable [DecidablePred admissible] (hserves : Serves P perform reliable admissible Idle)
include hserves

theorem inv_step (h : Inv P reliable Idle s)
    (hs : restrict (System.step P perform) (Allowed reliable admissible) s a = some s') :
    Inv P reliable Idle s' := by
  obtain ⟨hallowed, hstep⟩ := restrict_eq_some.mp hs
  cases h with
  | quiet h =>
    rcases h.step hserves hallowed hstep with ⟨h', -⟩ | ⟨sealed, h'⟩
    · exact .quiet h'
    · exact .asking h'
  | asking h =>
    rcases h.step hallowed hstep with ⟨h', -⟩ | ⟨_, _, -, h'⟩ | ⟨_, _, -, h'⟩ | ⟨_, -, h'⟩
    · exact .asking h'
    · exact .asking h'
    · exact .sent h'
    · exact .quiet h'
  | sent h =>
    rcases h.step hallowed hstep with ⟨h', -⟩ | ⟨reply, h'⟩
    · exact .sent h'
    · exact .answered h'
  | answered h =>
    rcases h.step hallowed hstep with ⟨h', -⟩ | h'
    · exact .answered h'
    · exact .heard h'
  | heard h =>
    rcases h.step hallowed hstep with ⟨h', -⟩ | h'
    · exact .heard h'
    · exact .asking h'

theorem inv_steps {actions : List (NetAction κ)} (h : Inv P reliable Idle s)
    (hrun : steps (restrict (System.step P perform) (Allowed reliable admissible)) s actions =
      some s') : Inv P reliable Idle s' :=
  steps_invariant (inv_step hserves) actions h hrun

end

def Returning (P : Primitives) (perform : κ → CoapSession → Posting α) (admissible : κ → Prop)
    [DecidablePred admissible] : System κ α → Prop :=
  Ends (restrict (System.step P perform) (Allowed true admissible)) fun s => s.call = none

section
variable [DecidablePred admissible]

theorem Heard.returning (h : Heard P true Idle s request next reply)
    (ih : ∀ {s' : System κ α}, Asking P true Idle s' (next ⟨0, .ok reply⟩) →
      Returning P perform admissible s') : Returning P perform admissible s := by
  refine Ends.of_measure (A := fun s => Heard P true Idle s request next reply) inTransit ?_ ?_ h
  · intro s h
    obtain ⟨udp, hudp⟩ := h.waiting.exists_receive h.notEmpty
    exact ⟨.receive .sent, _, restrict_eq_some.mpr ⟨rfl, by rw [System.step, client, hudp]; rfl⟩⟩
  · intro s a s' h hs
    obtain ⟨hallowed, hstep⟩ := restrict_eq_some.mp hs
    exact (h.step hallowed hstep).imp_right ih

theorem Answered.returning (h : Answered P true Idle s request next reply)
    (ih : ∀ {s' : System κ α}, Asking P true Idle s' (next ⟨0, .ok reply⟩) →
      Returning P perform admissible s') : Returning P perform admissible s := by
  refine Ends.of_measure (A := fun s => Answered P true Idle s request next reply) inTransit ?_ ?_ h
  · intro s h
    obtain ⟨y, hreplies, rfl | ⟨-, hlossy⟩⟩ := h.replies
    · obtain ⟨i, hi⟩ := List.getElem?_of_mem hreplies.mem
      exact ⟨.hear i, _, restrict_eq_some.mpr ⟨.inl rfl, by rw [System.step, hi]; rfl⟩⟩
    · cases hlossy
  · intro s a s' h hs
    obtain ⟨hallowed, hstep⟩ := restrict_eq_some.mp hs
    rcases h.step hallowed hstep with ⟨h', hlt⟩ | h'
    · exact .inl ⟨h', hlt rfl⟩
    · exact .inr (h'.returning ih)

theorem Sent.returning (h : Sent P true Idle s request next)
    (ih : ∀ {s' : System κ α} {answer : CoapAnswer}, Asking P true Idle s' (next answer) →
      Returning P perform admissible s') : Returning P perform admissible s := by
  refine Ends.of_measure (A := fun s => Sent P true Idle s request next) inTransit ?_ ?_ h
  · intro s h
    obtain ⟨x, hrequests, rfl | ⟨-, hlossy⟩⟩ := h.requests
    · obtain ⟨i, hi⟩ := List.getElem?_of_mem hrequests.mem
      exact ⟨.serve i ⟨[], 0, constArr 32 0⟩, _,
        restrict_eq_some.mpr ⟨.inl rfl, by rw [System.step, hi]; rfl⟩⟩
    · cases hlossy
  · intro s a s' h hs
    obtain ⟨hallowed, hstep⟩ := restrict_eq_some.mp hs
    rcases h.step hallowed hstep with ⟨h', hlt⟩ | ⟨reply, h'⟩
    · exact .inl ⟨h', hlt rfl⟩
    · exact .inr (h'.returning ih)

theorem Asking.exists_step (h : Asking P true Idle s program) :
    ∃ a s', restrict (System.step P perform) (Allowed true admissible) s a = some s' := by
  have hpost := h.post
  obtain ⟨resume, hcall, hleads⟩ := h.holds
  cases program with
  | ret r =>
    obtain ⟨res, session, hret, -⟩ := hleads
    exact ⟨.finish, _, restrict_eq_some.mpr ⟨trivial, by simp only [System.step, hcall, hpost, hret]; rfl⟩⟩
  | ask q next =>
    cases q with
    | nextMessageId =>
      exact ⟨.allocate, _, restrict_eq_some.mpr ⟨trivial, by
        simp only [System.step, client, UdpCoapTransport.step, hpost]; rfl⟩⟩
    | exchange request =>
      exact ⟨.transmit .sent, _, restrict_eq_some.mpr ⟨rfl, by
        simp only [System.step, client, UdpCoapTransport.step, hpost]; rfl⟩⟩

theorem Asking.returning (h : Asking P true Idle s program) : Returning P perform admissible s := by
  induction program generalizing s with
  | ret r =>
    refine Ends.of_measure (A := fun s => Asking P true Idle s _) inTransit
      (fun h => h.exists_step) ?_ h
    intro s a s' h hs
    obtain ⟨hallowed, hstep⟩ := restrict_eq_some.mp hs
    rcases h.step hallowed hstep with h' | ⟨_, _, hp, -⟩ | ⟨_, _, hp, -⟩ | ⟨_, -, h'⟩
    · exact .inl h'
    · cases hp
    · cases hp
    · exact .inr (.stop h'.call)
  | ask q next ih =>
    refine Ends.of_measure (A := fun s => Asking P true Idle s _) inTransit
      (fun h => h.exists_step) ?_ h
    intro s a s' h hs
    obtain ⟨hallowed, hstep⟩ := restrict_eq_some.mp hs
    rcases h.step hallowed hstep with h' | ⟨next', answer, hp, h'⟩ | ⟨request, next', hp, h'⟩ |
      ⟨_, -, h'⟩
    · exact .inl h'
    · obtain ⟨-, rfl⟩ := Dialogue.ask.inj hp
      exact .inr (ih answer h')
    · obtain ⟨-, rfl⟩ := Dialogue.ask.inj hp
      exact .inr (h'.returning fun h => ih _ h)
    · exact .inr (.stop h'.call)

theorem Inv.returning (h : Inv P true Idle s) : Returning P perform admissible s := by
  cases h with
  | quiet h => exact .stop h.call
  | asking h => exact h.returning
  | sent h => exact h.returning fun h => h.returning
  | answered h => exact h.returning fun h => h.returning
  | heard h => exact h.returning fun h => h.returning

end

end

end System
end HapRust.ThreadDut
