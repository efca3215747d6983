import HapRust.ThreadDut.Events

/-! Any number of calls of `push_event` at once, on an accessory that serves requests meanwhile.
A call seals its event while it holds the lock on the session, and sends it when it has let go
of the lock. Every step runs up to the next point at which another task may come in. -/

namespace HapRust.Thread
open Lib Crypto

def CoapSession.openEvents (P : Primitives) :
    CoapSession → List Bytes → Except ThreadError (List Bytes × CoapSession)
  | s, [] => .ok ([], s)
  | s, c :: cs => do
    let (record, s) ← s.openEvent P c
    let (records, s) ← openEvents P s cs
    return (record :: records, s)

theorem CoapSession.openEvents_sealed {P : Primitives} (hA : P.chacha20Poly1305.Inverts)
    {key : Arr 32} {first last : UInt64} {cs msgs : List Bytes}
    (h : Sealed P.chacha20Poly1305 key first cs msgs last) {session : CoapSession}
    (hkey : session.eventKey = key) (hfirst : session.eventCtr = first) :
    session.openEvents P cs = .ok (msgs, { session with eventCtr := last }) := by
  induction h generalizing session with
  | nil ctr =>
    subst hfirst
    rfl
  | @cons ctr last c msg cs msgs head tail ih =>
    subst hfirst hkey
    have hopen : session.openEvent P c =
        .ok (msg, { session with eventCtr := session.eventCtr + 1 }) := by
      rw [CoapSession.openEvent, openNext, hA.decrypt_of_encrypt head]
      rfl
    have hrest : CoapSession.openEvents P { session with eventCtr := session.eventCtr + 1 } cs =
        .ok (msgs, { session with eventCtr := last }) := ih rfl rfl
    rw [openEvents, hopen, ok_bind]
    dsimp only
    rw [hrest]
    rfl

end HapRust.Thread

namespace HapRust.ThreadDut
open Lib Crypto Thread

structure SealedEvent where
  session : Nat
  counter : UInt64
  record : Bytes
  payload : Bytes

structure EventPut where
  event : SealedEvent
  put : Packet
  carries : put.payload = event.payload

inductive PushPhase where
  | checking
  | sealing
  | numbering (e : SealedEvent)
  | tokening (e : SealedEvent) (mid : UInt16)
  | sending (x : EventPut)
  | returned (result : Except DutError Bool)
  | abandoned

def PushPhase.pending : PushPhase → Option SealedEvent
  | .numbering e | .tokening e _ => some e
  | .sending x => some x.event
  | _ => none

structure PushCall where
  event : Event
  phase : PushPhase

def Server.eventChannel (s : Server) : Option (Arr 32 × UInt64) :=
  s.accessory.session.map fun a => (a.eventKey, a.eventCtr)

structure PushSystem where
  server : Server
  calls : List PushCall
  sessions : List (Arr 32 × UInt64)
  sealed : List SealedEvent
  left : List EventPut

inductive PushAction where
  | push (event : Event)
  -- What the call sees of the subscriptions is left open: it may look at them in the middle of
  -- a batch of requests.
  | check (i : Nat) (subscribed : Bool)
  | lock (i : Nat)
  | number (i : Nat)
  | token (i : Nat)
  | send (i : Nat) (sending : Sending)
  | abandon (i : Nat)
  | request (draws : Draws) (datagram : Packet)

namespace PushSystem

def start (server : Server) : PushSystem := ⟨server, [], server.eventChannel.toList, [], []⟩

def setPhase (s : PushSystem) (i : Nat) (event : Event) (phase : PushPhase) : PushSystem :=
  { s with calls := s.calls.set i ⟨event, phase⟩ }

def counted (s : PushSystem) : PushSystem :=
  { s with server := { s.server with nextMid := s.server.nextMid + 1 } }

def served (s : PushSystem) (server : Server) : PushSystem :=
  { s with
    server := server
    sessions :=
      if server.eventChannel = s.server.eventChannel then s.sessions
      else s.sessions ++ server.eventChannel.toList }

def sealing (s : PushSystem) (i : Nat) (event : Event) (a a' : AccessorySession) (payload : Bytes) :
    PushSystem :=
  let e : SealedEvent := ⟨s.sessions.length - 1, a.eventCtr, eventRecord event, payload⟩
  { s.setPhase i event (.numbering e) with
    server := { s.server with accessory := { s.server.accessory with session := some a' } }
    sealed := s.sealed ++ [e] }

section
variable (P : Primitives)

def sealEvent (s : PushSystem) (i : Nat) (event : Event) : PushSystem :=
  match s.server.accessory.session with
  | none => s.setPhase i event (.returned (.ok false))
  | some a =>
    match a.sealEvent P (eventRecord event) with
    | .error e => s.setPhase i event (.returned (.error e))
    | .ok (payload, a') => s.sealing i event a a' payload

def step [CoapLite] (s : PushSystem) : PushAction → Option PushSystem
  | .push event => some { s with calls := s.calls ++ [⟨event, .checking⟩] }
  | .check i subscribed =>
    match s.calls[i]? with
    | some ⟨event, .checking⟩ =>
      if subscribed = true ∧ (valueBody event.2).length ≤ 65535 then
        some (s.setPhase i event .sealing)
      else some (s.setPhase i event (.returned (.ok false)))
    | _ => none
  | .lock i =>
    match s.calls[i]? with
    | some ⟨event, .sealing⟩ => some (s.sealEvent P i event)
    | _ => none
  | .number i =>
    match s.calls[i]? with
    | some ⟨event, .numbering e⟩ =>
      some (s.counted.setPhase i event (.tokening e s.server.nextMid))
    | _ => none
  | .token i =>
    match s.calls[i]? with
    | some ⟨event, .tokening e mid⟩ =>
      some (s.counted.setPhase i event (.sending
        ⟨e, ⟨.confirmable, 0x03, mid, tokenBytes s.server.nextMid, "", none, e.payload⟩, rfl⟩))
    | _ => none
  | .send i sending =>
    match s.calls[i]? with
    | some ⟨event, .sending x⟩ =>
      match sending with
      | .sent => some { s.setPhase i event (.returned (.ok true)) with left := s.left ++ [x] }
      | .refused => some (s.setPhase i event (.returned (.error .io)))
      | .unencodable _ =>
        some (s.setPhase i event (.returned (.error (.protocol "could not encode event PUT"))))
    | _ => none
  | .abandon i =>
    match s.calls[i]? with
    | some ⟨event, .sending _⟩ => some (s.setPhase i event .abandoned)
    | _ => none
  | .request draws datagram => some (s.served (s.server.serve P draws datagram).2)

end

def pending (s : PushSystem) : List SealedEvent := s.calls.filterMap (·.phase.pending)

/-- No call seals its event while another has sealed its own and not yet sent it, and every call
gets to send what it has sealed. -/
def Undisturbed (s : PushSystem) : PushAction → Prop
  | .lock _ => s.pending.isEmpty = true
  | .send _ sending => sending = .sent
  | .abandon _ => False
  | _ => True

instance (s : PushSystem) : (a : PushAction) → Decidable (s.Undisturbed a)
  | .lock _ => inferInstanceAs (Decidable (_ = true))
  | .send _ sending => inferInstanceAs (Decidable (sending = .sent))
  | .abandon _ => isFalse id
  | .push _ | .check _ _ | .number _ | .token _ | .request _ _ => isTrue trivial

def counters (first : UInt64) (n : Nat) : List UInt64 :=
  (List.range n).map fun i => first + UInt64.ofNat i

def leftIn (s : PushSystem) (k : Nat) : List EventPut := s.left.filter (·.event.session = k)

/-- The events of every session leave the socket in the order of their counters, without a gap,
and the controller of the session opens each of them as they come. -/
def InOrder (P : Primitives) (s : PushSystem) : Prop :=
  ∀ k key first, s.sessions[k]? = some (key, first) →
    (s.leftIn k).map (·.event.counter) = counters first (s.leftIn k).length ∧
    ∀ controller : CoapSession, controller.eventKey = key → controller.eventCtr = first →
      controller.openEvents P ((s.leftIn k).map (·.put.payload)) =
        .ok ((s.leftIn k).map (·.event.record),
          { controller with eventCtr := first + UInt64.ofNat (s.leftIn k).length })

/-! ## What a step does -/

structure Quiet (s t : PushSystem) : Prop where
  channel : t.server.eventChannel = s.server.eventChannel
  sessions : t.sessions = s.sessions
  sealed : t.sealed = s.sealed
  left : t.left = s.left
  pending : t.pending = s.pending

inductive Moves [CoapLite] (P : Primitives) (s : PushSystem) : PushAction → PushSystem → Prop
  | quiet {a : PushAction} {t : PushSystem} (h : Quiet s t) : Moves P s a t
  | lock {i : Nat} {event : Event} {a : AccessorySession} {payload : Bytes}
      (hc : s.calls[i]? = some ⟨event, .sealing⟩)
      (hsession : s.server.accessory.session = some a)
      (hsealed : P.chacha20Poly1305.encrypt a.eventKey (counterNonce a.eventCtr) []
        (eventRecord event) = some payload) :
      Moves P s (.lock i) (s.sealing i event a { a with eventCtr := a.eventCtr + 1 } payload)
  | send {i : Nat} {event : Event} {x : EventPut} (hc : s.calls[i]? = some ⟨event, .sending x⟩) :
      Moves P s (.send i .sent) { s.setPhase i event (.returned (.ok true)) with left := s.left ++ [x] }
  | abandon {a : PushAction} {i : Nat} {event : Event} {x : EventPut} {phase : PushPhase}
      (hc : s.calls[i]? = some ⟨event, .sending x⟩) (ha : ¬ s.Undisturbed a) :
      Moves P s a (s.setPhase i event phase)
  | request (draws : Draws) (datagram : Packet) :
      Moves P s (.request draws datagram) (s.served (s.server.serve P draws datagram).2)

section
variable {s t : PushSystem} {i : Nat} {event : Event} {old phase : PushPhase}

theorem pending_split (hc : s.calls[i]? = some ⟨event, old⟩) :
    ∃ before after, s.pending = before ++ old.pending.toList ++ after ∧
      ∀ phase, (s.setPhase i event phase).pending =
        before ++ phase.pending.toList ++ after := by
  obtain ⟨hi, hcall⟩ := List.getElem?_eq_some_iff.mp hc
  have hcalls : s.calls = s.calls.take i ++ ⟨event, old⟩ :: s.calls.drop (i + 1) := by
    rw [← hcall, ← List.drop_eq_getElem_cons hi, List.take_append_drop]
  refine ⟨(s.calls.take i).filterMap (·.phase.pending),
    (s.calls.drop (i + 1)).filterMap (·.phase.pending), ?_, ?_⟩
  · rw [pending]
    conv_lhs => rw [hcalls]
    rw [List.filterMap_append, List.filterMap_cons, List.append_assoc]
    dsimp only
    cases old.pending <;> rfl
  · intro phase
    rw [pending, setPhase, List.set_eq_take_append_cons_drop, if_pos hi, List.filterMap_append,
      List.filterMap_cons, List.append_assoc]
    dsimp only
    cases phase.pending <;> rfl

theorem pending_setPhase (hc : s.calls[i]? = some ⟨event, old⟩) (h : phase.pending = old.pending) :
    (s.setPhase i event phase).pending = s.pending := by
  obtain ⟨before, after, hbefore, hafter⟩ := pending_split hc
  rw [hafter, h, hbefore]

theorem quiet_setPhase (hc : s.calls[i]? = some ⟨event, old⟩) (h : phase.pending = old.pending) :
    Quiet s (s.setPhase i event phase) := ⟨rfl, rfl, rfl, rfl, pending_setPhase hc h⟩

theorem quiet_counted (hc : s.calls[i]? = some ⟨event, old⟩) (h : phase.pending = old.pending) :
    Quiet s (s.counted.setPhase i event phase) := ⟨rfl, rfl, rfl, rfl, pending_setPhase hc h⟩

theorem quiet_push (event : Event) :
    Quiet s { s with calls := s.calls ++ [⟨event, .checking⟩] } := by
  refine ⟨rfl, rfl, rfl, rfl, ?_⟩
  rw [pending, List.filterMap_append]
  exact List.append_nil _

variable {P : Primitives}

theorem moves_sealEvent [CoapLite] (hc : s.calls[i]? = some ⟨event, .sealing⟩) :
    Moves P s (.lock i) (s.sealEvent P i event) := by
  unfold sealEvent
  split
  · exact .quiet (quiet_setPhase hc rfl)
  · next a hsession =>
    split
    · exact .quiet (quiet_setPhase hc rfl)
    · next payload a' hseal =>
      obtain ⟨next, hnext, hok⟩ := bind_eq_ok.mp hseal
      obtain ⟨rfl, rfl⟩ := Prod.mk.inj (Except.ok.inj hok)
      obtain ⟨sealed, hsealed, rfl⟩ := Option.map_eq_some_iff.mp (okOr_eq_ok.mp hnext)
      exact .lock hc hsession hsealed

theorem moves_of_step [CoapLite] {a : PushAction} (h : s.step P a = some t) : Moves P s a t := by
  cases a with
  | push event =>
    cases h
    exact .quiet (quiet_push event)
  | check i subscribed =>
    simp only [step] at h
    split at h
    · next event hc =>
      split_ifs at h
      · cases h
        exact .quiet (quiet_setPhase hc rfl)
      · cases h
        exact .quiet (quiet_setPhase hc rfl)
    · cases h
  | lock i =>
    simp only [step] at h
    split at h
    · next event hc =>
      cases h
      exact moves_sealEvent hc
    · cases h
  | number i =>
    simp only [step] at h
    split at h
    · next event e hc =>
      cases h
      exact .quiet (quiet_counted hc rfl)
    · cases h
  | token i =>
    simp only [step] at h
    split at h
    · next event e mid hc =>
      cases h
      exact .quiet (quiet_counted hc rfl)
    · cases h
  | send i sending =>
    simp only [step] at h
    split at h
    · next event x hc =>
      cases sending with
      | sent =>
        cases h
        exact .send hc
      | refused =>
        cases h
        exact .abandon hc Sending.noConfusion
      | unencodable e =>
        cases h
        exact .abandon hc Sending.noConfusion
    · cases h
  | abandon i =>
    simp only [step] at h
    split at h
    · next event x hc =>
      cases h
      exact .abandon hc id
    · cases h
  | request draws datagram =>
    cases h
    exact .request draws datagram

end

/-! ## A request keeps the session or replaces it -/

section
variable {P : Primitives}

theorem sendBlock_accessory [CoapLite] (s : Server) (id : UInt16) (token : Bytes) (code : UInt8) (full : Bytes)
    (num bs : Nat) : (s.sendBlock id token code full num bs).2.accessory = s.accessory := by
  rw [Server.sendBlock]
  dsimp only
  split_ifs <;> rfl

theorem sendWhole_accessory (s : Server) (req : Packet) (code : UInt8) (payload : Bytes) :
    (s.sendWhole req code payload).2.accessory = s.accessory := by
  rw [Server.sendWhole]
  split_ifs <;> rfl

theorem sendResponse_accessory [CoapLite] (s : Server) (req : Packet) (code : UInt8) (payload : Bytes) :
    (s.sendResponse req code payload).2.accessory = s.accessory := by
  rw [Server.sendResponse]
  split
  · split_ifs
    · exact sendBlock_accessory _ _ _ _ _ _ _
    · exact sendWhole_accessory s req code payload
  · exact sendWhole_accessory s req code payload

theorem serve_accessory [CoapLite] (s : Server) (draws : Draws) (datagram : Packet) :
    (s.serve P draws datagram).2.accessory = s.accessory ∨
      ∃ input, (s.serve P draws datagram).2.accessory = s.accessory.after P input := by
  have hanswer : ∀ req, ∃ input, (s.answer P draws req).2.accessory = s.accessory.after P input :=
    fun req => ⟨_, sendResponse_accessory _ _ _ _⟩
  unfold Server.serve
  dsimp only
  split_ifs
  · exact .inl rfl
  · split
    · split_ifs
      · left
        rw [Server.serveCachedBlock]
        split
        · exact sendBlock_accessory _ _ _ _ _ _ _
        · rfl
      · exact .inr (hanswer _)
    · exact .inr (hanswer _)

theorem pairSetup_session (a : ReferenceAccessory) (salt : Bytes) (b : Nat) (payload : Bytes) :
    (a.pairSetup P salt b payload).2.session = a.session := by
  unfold ReferenceAccessory.pairSetup
  repeat' split
  all_goals rfl

theorem pairVerify_isSome (a : ReferenceAccessory) (secret : Arr 32) (payload : Bytes)
    (h : a.session.isSome) : (a.pairVerify P secret payload).2.session.isSome := by
  unfold ReferenceAccessory.pairVerify
  repeat' split
  all_goals first
    | exact h
    | rfl

theorem after_isSome (a : ReferenceAccessory) (input : ReferenceAccessory.Input)
    (h : a.session.isSome) : (a.after P input).session.isSome := by
  cases input with
  | identify => exact h
  | unknown => exact h
  | pairSetup salt b payload =>
    rw [ReferenceAccessory.after, ReferenceAccessory.handle, pairSetup_session]
    exact h
  | pairVerify secret payload => exact pairVerify_isSome a secret payload h
  | secure payload =>
    obtain ⟨session, hsession⟩ := Option.isSome_iff_exists.mp h
    obtain ⟨session', hsession', -⟩ := EventSystem.securePdu_session (P := P) a hsession payload
    exact Option.isSome_iff_exists.mpr ⟨session', hsession'⟩

theorem eventChannel_serve [CoapLite] {s : Server} (draws : Draws) (datagram : Packet)
    (h : s.eventChannel.isSome) : (s.serve P draws datagram).2.eventChannel.isSome := by
  rw [Server.eventChannel, Option.isSome_map] at h ⊢
  rcases serve_accessory (P := P) s draws datagram with hsame | ⟨input, hinput⟩
  · rw [hsame]
    exact h
  · rw [hinput]
    exact after_isSome _ input h

theorem eventChannel_of_changed [CoapLite] {s : Server} {draws : Draws} {datagram : Packet}
    (h : (s.serve P draws datagram).2.eventChannel ≠ s.eventChannel) :
    ∃ channel, (s.serve P draws datagram).2.eventChannel = some channel := by
  cases hold : s.eventChannel with
  | none =>
    rw [hold] at h
    exact Option.ne_none_iff_exists'.mp h
  | some old =>
    refine Option.isSome_iff_exists.mp (eventChannel_serve draws datagram ?_)
    rw [hold]
    rfl

end

/-! ## Events are sealed under consecutive counters -/

theorem counters_succ (first : UInt64) (n : Nat) :
    counters first (n + 1) = counters first n ++ [first + UInt64.ofNat n] := by
  rw [counters, List.range_succ, List.map_append]
  rfl

structure Chain (A : Aead) (key : Arr 32) (first : UInt64) (events : List SealedEvent)
    (last : UInt64) : Prop where
  sealed : Sealed A key first (events.map (·.payload)) (events.map (·.record)) last
  counters : events.map (·.counter) = counters first events.length

section
variable {A : Aead} {key : Arr 32} {first last : UInt64} {events : List SealedEvent}

theorem Chain.last_eq (h : Chain A key first events last) :
    last = first + UInt64.ofNat events.length := by
  have hlast := h.sealed.last_eq
  rwa [List.length_map] at hlast

theorem Chain.snoc (h : Chain A key first events last) {e : SealedEvent} (hctr : e.counter = last)
    (he : A.encrypt key (counterNonce last) [] e.record = some e.payload) :
    Chain A key first (events ++ [e]) (last + 1) := by
  constructor
  · rw [List.map_append, List.map_append]
    exact h.sealed.snoc he
  · rw [List.map_append, h.counters, List.length_append, List.length_singleton, counters_succ,
      ← h.last_eq, ← hctr]
    rfl

theorem Chain.of_append {more : List SealedEvent} (h : Chain A key first (events ++ more) last) :
    ∃ last', Chain A key first events last' := by
  have hsealed := h.sealed
  rw [List.map_append, List.map_append] at hsealed
  obtain ⟨last', hlast'⟩ := hsealed.of_append (by rw [List.length_map, List.length_map])
  refine ⟨last', hlast', ?_⟩
  have hcounters := congrArg (List.take events.length) h.counters
  rw [List.map_append, List.take_left' (List.length_map _), PushSystem.counters, ← List.map_take,
    List.take_range, List.length_append, Nat.min_eq_left (Nat.le_add_right _ _)] at hcounters
  exact hcounters

end

def sealedIn (s : PushSystem) (k : Nat) : List SealedEvent := s.sealed.filter (·.session = k)

structure Chained (P : Primitives) (s : PushSystem) : Prop where
  session : ∀ e ∈ s.sealed, e.session < s.sessions.length
  none : s.sessions = [] → s.server.eventChannel = none
  chain : ∀ k key first, s.sessions[k]? = some (key, first) →
    ∃ last, Chain P.chacha20Poly1305 key first (s.sealedIn k) last ∧
      (k + 1 = s.sessions.length → s.server.eventChannel = some (key, last))

section
variable {P : Primitives} {s t : PushSystem}

theorem Chained.congr (h : Chained P s) (hchannel : t.server.eventChannel = s.server.eventChannel)
    (hsessions : t.sessions = s.sessions) (hsealed : t.sealed = s.sealed) : Chained P t := by
  constructor
  · rw [hsealed, hsessions]
    exact h.session
  · rw [hsessions, hchannel]
    exact h.none
  · rw [hsessions, hchannel]
    intro k key first hk
    rw [sealedIn, hsealed]
    exact h.chain k key first hk

theorem chained_start (server : Server) : Chained P (start server) := by
  constructor
  · exact fun e he => absurd he List.not_mem_nil
  · intro hnil
    exact Option.toList_eq_nil_iff.mp hnil
  · intro k key first hk
    refine ⟨first, ⟨.nil first, rfl⟩, fun hlast => ?_⟩
    cases hchannel : server.eventChannel with
    | none =>
      rw [start, hchannel] at hk
      cases hk
    | some channel =>
      rw [start, hchannel] at hk hlast
      obtain rfl : k = 0 := Nat.succ.inj hlast
      exact hchannel.trans hk

theorem Chained.current (h : Chained P s) {a : AccessorySession}
    (ha : s.server.accessory.session = some a) :
    ∃ k first, s.sessions.length = k + 1 ∧ s.sessions[k]? = some (a.eventKey, first) ∧
      Chain P.chacha20Poly1305 a.eventKey first (s.sealedIn k) a.eventCtr := by
  have hchannel : s.server.eventChannel = some (a.eventKey, a.eventCtr) := by
    rw [Server.eventChannel, ha]
    rfl
  cases hlength : s.sessions.length with
  | zero =>
    rw [h.none (List.eq_nil_of_length_eq_zero hlength)] at hchannel
    cases hchannel
  | succ k =>
    obtain ⟨⟨key, first⟩, hk⟩ : ∃ x, s.sessions[k]? = some x :=
      ⟨_, List.getElem?_eq_getElem (by omega)⟩
    obtain ⟨last, hchain, hlast⟩ := h.chain k key first hk
    obtain ⟨rfl, rfl⟩ := Prod.mk.inj (Option.some.inj ((hlast hlength.symm).symm.trans hchannel))
    exact ⟨k, first, rfl, hk, hchain⟩

theorem Chained.lock (h : Chained P s) {i : Nat} {event : Event} {a : AccessorySession}
    {payload : Bytes} (ha : s.server.accessory.session = some a)
    (hsealed : P.chacha20Poly1305.encrypt a.eventKey (counterNonce a.eventCtr) []
      (eventRecord event) = some payload) :
    Chained P (s.sealing i event a { a with eventCtr := a.eventCtr + 1 } payload) := by
  obtain ⟨cur, first, hlength, hcur, hchain⟩ := h.current ha
  have hsession : s.sessions.length - 1 = cur := by omega
  constructor
  · intro e he
    rcases List.mem_append.mp he with he | he
    · exact h.session e he
    · rw [List.mem_singleton.mp he]
      exact Nat.sub_lt (by omega) Nat.one_pos
  · intro hnil
    have hzero : s.sessions.length = 0 := congrArg List.length hnil
    omega
  · intro k key first' hk
    have hsplit : (s.sealing i event a { a with eventCtr := a.eventCtr + 1 } payload).sealedIn k =
        s.sealedIn k ++ if cur = k then [⟨cur, a.eventCtr, eventRecord event, payload⟩] else [] := by
      rw [sealedIn, sealing]
      dsimp only
      rw [List.filter_append, hsession, List.filter_singleton, Bool.cond_decide]
      rfl
    rw [hsplit]
    by_cases hkcur : cur = k
    · subst hkcur
      obtain ⟨rfl, rfl⟩ := Prod.mk.inj (Option.some.inj (hcur.symm.trans hk))
      rw [if_pos rfl]
      exact ⟨a.eventCtr + 1, hchain.snoc rfl hsealed, fun _ => rfl⟩
    · obtain ⟨last, hother, -⟩ := h.chain k key first' hk
      rw [if_neg hkcur, List.append_nil]
      refine ⟨last, hother, fun hlast => ?_⟩
      have hlast' : k + 1 = s.sessions.length := hlast
      omega

theorem Chained.established (h : Chained P s) {channel : Arr 32 × UInt64}
    (hchannel : t.server.eventChannel = some channel) (hsessions : t.sessions = s.sessions ++ [channel])
    (hsealed : t.sealed = s.sealed) : Chained P t := by
  constructor
  · intro e he
    rw [hsealed] at he
    rw [hsessions, List.length_append]
    exact Nat.lt_add_right 1 (h.session e he)
  · rw [hsessions]
    intro hnil
    exact absurd hnil (List.append_ne_nil_of_right_ne_nil _ (List.cons_ne_nil _ _))
  · rw [hsessions, List.length_append, List.length_singleton, hchannel]
    intro k key first hk
    rw [sealedIn, hsealed]
    rcases Nat.lt_trichotomy k s.sessions.length with hlt | rfl | hgt
    · rw [List.getElem?_append_left hlt] at hk
      obtain ⟨last, hchain, -⟩ := h.chain k key first hk
      exact ⟨last, hchain, fun hlast => by omega⟩
    · rw [List.getElem?_append_right (Nat.le_refl _), Nat.sub_self] at hk
      obtain rfl := Option.some.inj hk
      have hnone : s.sealed.filter (·.session = s.sessions.length) = [] := by
        refine List.filter_eq_nil_iff.mpr ?_
        intro e he heq
        exact absurd (of_decide_eq_true heq) (Nat.ne_of_lt (h.session e he))
      rw [hnone]
      exact ⟨first, ⟨.nil first, rfl⟩, fun _ => rfl⟩
    · rw [List.getElem?_eq_none] at hk
      · cases hk
      · rw [List.length_append, List.length_singleton]
        exact hgt

theorem Chained.request [CoapLite] (h : Chained P s) (draws : Draws) (datagram : Packet) :
    Chained P (s.served (s.server.serve P draws datagram).2) := by
  by_cases hsame : (s.server.serve P draws datagram).2.eventChannel = s.server.eventChannel
  · exact h.congr hsame (if_pos hsame) rfl
  · obtain ⟨channel, hchannel⟩ := eventChannel_of_changed hsame
    refine h.established hchannel ?_ rfl
    rw [served]
    dsimp only
    rw [if_neg hsame, hchannel]
    rfl

theorem chained_step [CoapLite] {a : PushAction} (h : Chained P s) (hstep : s.step P a = some t) :
    Chained P t := by
  cases moves_of_step hstep with
  | quiet hq => exact h.congr hq.channel hq.sessions hq.sealed
  | lock _ hsession hsealed => exact h.lock hsession hsealed
  | send _ => exact h.congr rfl rfl rfl
  | abandon _ => exact h.congr rfl rfl rfl
  | request draws datagram => exact h.request draws datagram

end

/-! ## Undisturbed calls send in the order in which they seal -/

structure Ordered (s : PushSystem) : Prop where
  sealed : s.sealed = s.left.map (·.event) ++ s.pending
  one : s.pending.length ≤ 1

section
variable {P : Primitives} {s t : PushSystem}

theorem Ordered.lock (h : Ordered s) (hpending : s.pending = []) {i : Nat} {event : Event}
    (hc : s.calls[i]? = some ⟨event, .sealing⟩) (a a' : AccessorySession) (payload : Bytes) :
    Ordered (s.sealing i event a a' payload) := by
  obtain ⟨before, after, hsplit, hset⟩ := pending_split hc
  rw [hpending] at hsplit
  obtain ⟨hbefore, rfl⟩ := List.append_eq_nil_iff.mp hsplit.symm
  obtain ⟨rfl, -⟩ := List.append_eq_nil_iff.mp hbefore
  let e : SealedEvent := ⟨s.sessions.length - 1, a.eventCtr, eventRecord event, payload⟩
  have hnew : (s.sealing i event a a' payload).pending = [e] := hset (.numbering e)
  have hsealed : s.sealed = s.left.map (·.event) := by
    have hall := h.sealed
    rwa [hpending, List.append_nil] at hall
  constructor
  · rw [hnew, sealing]
    dsimp only
    rw [hsealed]
    rfl
  · rw [hnew]
    exact Nat.le_refl 1

theorem Ordered.send (h : Ordered s) {i : Nat} {event : Event} {x : EventPut}
    (hc : s.calls[i]? = some ⟨event, .sending x⟩) :
    Ordered { s.setPhase i event (.returned (.ok true)) with left := s.left ++ [x] } := by
  obtain ⟨before, after, hsplit, hset⟩ := pending_split hc
  have hone := h.one
  rw [hsplit, List.length_append, List.length_append] at hone
  have hlength : (PushPhase.sending x).pending.toList.length = 1 := rfl
  obtain rfl : before = [] := List.eq_nil_of_length_eq_zero (by omega)
  obtain rfl : after = [] := List.eq_nil_of_length_eq_zero (by omega)
  have hnew : (s.setPhase i event (.returned (.ok true))).pending = [] := hset _
  have hsealed : s.sealed = s.left.map (·.event) ++ [x.event] := by
    have hall := h.sealed
    rwa [hsplit] at hall
  constructor
  · refine hsealed.trans ?_
    have hpending : PushSystem.pending { s.setPhase i event (.returned (.ok true)) with
      left := s.left ++ [x] } = [] := hnew
    rw [hpending, List.append_nil, List.map_append]
    rfl
  · exact Nat.le_trans (Nat.le_of_eq (congrArg List.length hnew)) (Nat.zero_le 1)

theorem ordered_step [CoapLite] {a : PushAction} (h : Ordered s) (ha : s.Undisturbed a)
    (hstep : s.step P a = some t) : Ordered t := by
  cases moves_of_step hstep with
  | quiet hq =>
    constructor
    · rw [hq.sealed, hq.left, hq.pending]
      exact h.sealed
    · rw [hq.pending]
      exact h.one
  | lock hc _ _ => exact h.lock (List.isEmpty_iff.mp ha) hc _ _ _
  | send hc => exact h.send hc
  | abandon _ hlost => exact absurd ha hlost
  | request draws datagram => exact ⟨h.sealed, h.one⟩

theorem Chained.inOrder (hA : P.chacha20Poly1305.Inverts) (h : Chained P s) (ho : Ordered s) :
    s.InOrder P := by
  intro k key first hk
  obtain ⟨last, hchain, -⟩ := h.chain k key first hk
  have hleft : (s.leftIn k).map (·.event) = (s.left.map (·.event)).filter (·.session = k) := by
    rw [leftIn, List.filter_map]
    rfl
  rw [sealedIn, ho.sealed, List.filter_append, ← hleft] at hchain
  obtain ⟨last, hchain⟩ := hchain.of_append
  have hcounters := hchain.counters
  have hlast := hchain.last_eq
  rw [List.map_map, List.length_map] at hcounters
  rw [List.length_map] at hlast
  refine ⟨hcounters, ?_⟩
  intro controller hkey hfirst
  have hpayload : (s.leftIn k).map (·.put.payload) =
      ((s.leftIn k).map (·.event)).map (·.payload) := by
    rw [List.map_map]
    exact List.map_congr_left fun x _ => x.carries
  have hrecord : (s.leftIn k).map (·.event.record) =
      ((s.leftIn k).map (·.event)).map (·.record) := by
    rw [List.map_map]
    rfl
  rw [hpayload, hrecord, CoapSession.openEvents_sealed hA hchain.sealed hkey hfirst, hlast]

/-- If no call seals its event while another has one that is sealed and not yet sent, and every
call sends what it has sealed, then the events of every session leave in the order of their
counters, whatever requests are served meanwhile, and its controller opens all of them. -/
theorem in_order_of_undisturbed [CoapLite] (hA : P.chacha20Poly1305.Inverts) (server : Server)
    {actions : List PushAction}
    (hrun : steps (restrict (step P) Undisturbed) (start server) actions = some t) :
    t.InOrder P := by
  have hinv : Chained P t ∧ Ordered t := by
    refine steps_invariant (I := fun s => Chained P s ∧ Ordered s) ?_ actions
      ⟨chained_start server, rfl, Nat.zero_le 1⟩ hrun
    intro s a s' h hstep
    obtain ⟨ha, hstep⟩ := restrict_eq_some.mp hstep
    exact ⟨chained_step h.1 hstep, ordered_step h.2 ha hstep⟩
  exact hinv.1.inOrder hA hinv.2

end

def pushingServer : Server :=
  ⟨{ ReferenceAccessory.new "accessory" (constArr 32 9) none with
      session := some (.new (constArr 32 1) (constArr 32 2) (constArr 32 3))
      subscriptions := [9] }, 1, false, none, none⟩

def undisturbedRun : List PushAction :=
  [.push (9, [1]), .check 0 true, .lock 0, .push (9, [0]), .number 0, .token 0, .check 1 true,
    .send 0 .sent,
    .request ⟨[], 0, constArr 32 0⟩ ⟨.confirmable, 0x02, 7, [1], "0", none, []⟩, .lock 1, .number 1,
    .token 1, .send 1 .sent]

section
attribute [local instance] coapLite

theorem in_order_of_undisturbed_two :
    ∃ t, steps (restrict (step plainPrimitives) Undisturbed) (start pushingServer) undisturbedRun =
        some t ∧
      t.left.map (·.event.counter) = [0, 1] ∧ t.InOrder plainPrimitives := by
  refine exists_of_view (·.left.map (·.event.counter)) [0, 1] (by decide +kernel) ?_
  intro t ht hleft
  exact ⟨hleft, in_order_of_undisturbed plainPrimitives_honest.aead pushingServer ht⟩

def crossingRun : List PushAction :=
  [.push (9, [1]), .push (9, [0]), .check 0 true, .check 1 true, .lock 0, .lock 1, .number 0, .token 0,
    .number 1, .token 1, .send 1 .sent, .send 0 .sent]

/-- The event with counter 1 leaves before that with counter 0, and does not open. -/
theorem pushes_cross :
    ∃ t, steps (step plainPrimitives) (start pushingServer) crossingRun = some t ∧
      (t.leftIn 0).map (·.event.counter) = [1, 0] ∧
      (∀ opened, sampleSession.openEvents plainPrimitives (t.left.map (·.put.payload)) ≠ .ok opened) ∧
      ¬ t.InOrder plainPrimitives := by
  refine exists_of_view (fun t => ((t.leftIn 0).map (·.event.counter), t.sessions.map (·.2),
      (sampleSession.openEvents plainPrimitives (t.left.map (·.put.payload))).toOption.isSome))
    ([1, 0], [0], false) (by decide +kernel) ?_
  intro t ht hview
  obtain ⟨hleft, hview⟩ := Prod.mk.inj hview
  obtain ⟨hsessions, hopen⟩ := Prod.mk.inj hview
  refine ⟨hleft, ?_, ?_⟩
  · intro opened hok
    rw [hok] at hopen
    cases hopen
  · intro horder
    obtain ⟨⟨key, first⟩, hkey, rfl⟩ := List.map_eq_singleton_iff.mp hsessions
    obtain ⟨hcounters, -⟩ := horder 0 key 0 (by rw [hkey]; rfl)
    have hlength : (t.leftIn 0).length = 2 := by
      have hmap := congrArg List.length hleft
      rwa [List.length_map] at hmap
    rw [hleft, hlength] at hcounters
    cases hcounters

end

/-- Calls that cross still seal under counters of their own: in every run no two events of a
session are sealed with the same nonce, and none is skipped. -/
theorem sealed_under_own_counters [CoapLite] {P : Primitives} (server : Server) {actions : List PushAction}
    {t : PushSystem} (hrun : steps (step P) (start server) actions = some t) {k : Nat}
    {key : Arr 32} {first : UInt64} (hk : t.sessions[k]? = some (key, first))
    (hfew : (t.sealedIn k).length ≤ 2 ^ 64) :
    (t.sealedIn k).map (·.counter) = counters first (t.sealedIn k).length ∧
      ((t.sealedIn k).map (·.counter)).Nodup := by
  have hchained : Chained P t :=
    steps_invariant chained_step actions (chained_start server) hrun
  obtain ⟨last, hchain, -⟩ := hchained.chain k key first hk
  refine ⟨hchain.counters, hchain.counters ▸ List.Nodup.map_on ?_ List.nodup_range⟩
  intro i hi j hj hij
  have hmod := congrArg UInt64.toNat ((UInt64.add_right_inj first).mp hij)
  simp only [List.mem_range, UInt64.toNat_ofNat'] at hi hj hmod
  omega

attribute [local instance] coapLite

theorem sealed_under_own_counters_cross :
    ∃ t, steps (step plainPrimitives) (start pushingServer) crossingRun = some t ∧
      (t.sealedIn 0).map (·.counter) = counters 0 2 := by
  refine exists_of_view (fun t => (t.sessions, (t.sealedIn 0).length))
    ([(constArr 32 3, 0)], 2) (by decide +kernel) ?_
  intro t ht hview
  obtain ⟨hsessions, hlength⟩ := Prod.mk.inj hview
  have hcounters := (sealed_under_own_counters pushingServer ht
    (k := 0) (by rw [hsessions]; rfl) (by rw [hlength]; decide)).1
  rwa [hlength] at hcounters

end PushSystem
end HapRust.ThreadDut
