import HapRust.Thread.Session

/-! The two ends of a session connected by three directions that deliver in
order: requests, responses and events. -/

namespace HapRust
open Lib Crypto

namespace Thread
open ThreadDut

structure Direction where
  inFlight : List Bytes
  sent : List Bytes
  received : List Bytes

structure Link where
  controller : CoapSession
  accessory : AccessorySession
  request : Direction
  response : Direction
  event : Direction

inductive LinkAct where
  | sealRequest (plaintext : Bytes)
  | openRequest
  | sealResponse (plaintext : Bytes)
  | openResponse
  | sealEvent (plaintext : Bytes)
  | openEvent

def Direction.push (d : Direction) (ciphertext plaintext : Bytes) : Direction :=
  ⟨d.inFlight ++ [ciphertext], d.sent ++ [plaintext], d.received⟩

def Direction.pop (d : Direction) (rest : List Bytes) (plaintext : Bytes) : Direction :=
  ⟨rest, d.sent, d.received ++ [plaintext]⟩

namespace Link
variable (P : Primitives)

def start (controller : CoapSession) (accessory : AccessorySession) : Link :=
  ⟨controller, accessory, ⟨[], [], []⟩, ⟨[], [], []⟩, ⟨[], [], []⟩⟩

def step (l : Link) : LinkAct → Option Link
  | .sealRequest pt =>
    (l.controller.sealRequest P pt).toOption.map fun (ct, s) =>
      { l with controller := s, request := l.request.push ct pt }
  | .sealResponse pt =>
    (l.accessory.sealResponse P pt).toOption.map fun (ct, s) =>
      { l with accessory := s, response := l.response.push ct pt }
  | .sealEvent pt =>
    (l.accessory.sealEvent P pt).toOption.map fun (ct, s) =>
      { l with accessory := s, event := l.event.push ct pt }
  | .openRequest =>
    match l.request.inFlight with
    | [] => some l
    | ct :: rest => (l.accessory.openRequest P ct).toOption.map fun (pt, s) =>
      { l with accessory := s, request := l.request.pop rest pt }
  | .openResponse =>
    match l.response.inFlight with
    | [] => some l
    | ct :: rest => (l.controller.openResponse P ct).toOption.map fun (pt, s) =>
      { l with controller := s, response := l.response.pop rest pt }
  | .openEvent =>
    match l.event.inFlight with
    | [] => some l
    | ct :: rest => (l.controller.openEvent P ct).toOption.map fun (pt, s) =>
      { l with controller := s, event := l.event.pop rest pt }

def run (l : Link) (acts : List LinkAct) : Option Link := acts.foldlM (step P) l

/-- Every direction has delivered a prefix of what was sent on it, and the rest
is in flight. -/
structure Faithful (l : Link) : Prop where
  request : l.request.received <+: l.request.sent ∧
    l.request.received.length + l.request.inFlight.length = l.request.sent.length
  response : l.response.received <+: l.response.sent ∧
    l.response.received.length + l.response.inFlight.length = l.response.sent.length
  event : l.event.received <+: l.event.sent ∧
    l.event.received.length + l.event.inFlight.length = l.event.sent.length

structure Inv (l : Link) : Prop where
  readKey : l.controller.readKey = l.accessory.readKey
  writeKey : l.controller.writeKey = l.accessory.writeKey
  eventKey : l.controller.eventKey = l.accessory.eventKey
  request : InStep P.chacha20Poly1305 l.controller.writeKey l.controller.sendCtr
    l.accessory.recvCtr l.request.inFlight l.request.sent l.request.received
  response : InStep P.chacha20Poly1305 l.controller.readKey l.accessory.sendCtr
    l.controller.recvCtr l.response.inFlight l.response.sent l.response.received
  event : InStep P.chacha20Poly1305 l.controller.eventKey l.accessory.eventCtr
    l.controller.eventCtr l.event.inFlight l.event.sent l.event.received

variable {P} {l : Link}

theorem Inv.faithful (h : Inv P l) : Faithful l :=
  ⟨⟨h.request.received_isPrefix, h.request.length_eq⟩,
    ⟨h.response.received_isPrefix, h.response.length_eq⟩,
    ⟨h.event.received_isPrefix, h.event.length_eq⟩⟩

theorem inv_start (keys : SessionKeys) (eventKey : Arr 32) :
    Inv P (start (.new keys eventKey) (.new keys.readKey keys.writeKey eventKey)) :=
  ⟨rfl, rfl, rfl, .start 0, .start 0, .start 0⟩

theorem inv_step (hA : P.chacha20Poly1305.Inverts) (h : Inv P l) (a : LinkAct) :
    ∃ l', l.step P a = some l' ∧ Inv P l' := by
  obtain ⟨hrk, hwk, hek, hreq, hresp, hev⟩ := h
  cases a with
  | sealRequest pt =>
    obtain ⟨ct, hct⟩ := sealNext_ok hA l.controller.writeKey l.controller.sendCtr pt
    refine ⟨{ l with
        controller := { l.controller with sendCtr := l.controller.sendCtr + 1 },
        request := l.request.push ct pt }, ?_, hrk, hwk, hek, hreq.seal hct, hresp, hev⟩
    simp only [step, CoapSession.sealRequest, hct, okOr_some, ok_bind]
    rfl
  | sealResponse pt =>
    obtain ⟨ct, hct⟩ := sealNext_ok hA l.accessory.readKey l.accessory.sendCtr pt
    refine ⟨{ l with
        accessory := { l.accessory with sendCtr := l.accessory.sendCtr + 1 },
        response := l.response.push ct pt }, ?_, hrk, hwk, hek, hreq, hresp.seal (hrk ▸ hct), hev⟩
    simp only [step, AccessorySession.sealResponse, hct, okOr_some, ok_bind]
    rfl
  | sealEvent pt =>
    obtain ⟨ct, hct⟩ := sealNext_ok hA l.accessory.eventKey l.accessory.eventCtr pt
    refine ⟨{ l with
        accessory := { l.accessory with eventCtr := l.accessory.eventCtr + 1 },
        event := l.event.push ct pt }, ?_, hrk, hwk, hek, hreq, hresp, hev.seal (hek ▸ hct)⟩
    simp only [step, AccessorySession.sealEvent, hct, okOr_some, ok_bind]
    rfl
  | openRequest =>
    cases hq : l.request.inFlight with
    | nil => exact ⟨l, by simp only [step, hq], ⟨hrk, hwk, hek, hreq, hresp, hev⟩⟩
    | cons ct rest =>
      rw [hq] at hreq
      obtain ⟨pt, hpt, hreq'⟩ := hreq.openHead hA
      rw [hwk] at hpt
      refine ⟨{ l with
          accessory := { l.accessory with recvCtr := l.accessory.recvCtr + 1 },
          request := l.request.pop rest pt }, ?_, hrk, hwk, hek, hreq', hresp, hev⟩
      simp only [step, hq, AccessorySession.openRequest, hpt, okOr_some, ok_bind]
      rfl
  | openResponse =>
    cases hq : l.response.inFlight with
    | nil => exact ⟨l, by simp only [step, hq], ⟨hrk, hwk, hek, hreq, hresp, hev⟩⟩
    | cons ct rest =>
      rw [hq] at hresp
      obtain ⟨pt, hpt, hresp'⟩ := hresp.openHead hA
      refine ⟨{ l with
          controller := { l.controller with recvCtr := l.controller.recvCtr + 1 },
          response := l.response.pop rest pt }, ?_, hrk, hwk, hek, hreq, hresp', hev⟩
      simp only [step, hq, CoapSession.openResponse, hpt, okOr_some, ok_bind]
      rfl
  | openEvent =>
    cases hq : l.event.inFlight with
    | nil => exact ⟨l, by simp only [step, hq], ⟨hrk, hwk, hek, hreq, hresp, hev⟩⟩
    | cons ct rest =>
      rw [hq] at hev
      obtain ⟨pt, hpt, hev'⟩ := hev.openHead hA
      refine ⟨{ l with
          controller := { l.controller with eventCtr := l.controller.eventCtr + 1 },
          event := l.event.pop rest pt }, ?_, hrk, hwk, hek, hreq, hresp, hev'⟩
      simp only [step, hq, CoapSession.openEvent, hpt, okOr_some, ok_bind]
      rfl

theorem inv_run (hA : P.chacha20Poly1305.Inverts) (h : Inv P l) (acts : List LinkAct) :
    ∃ l', l.run P acts = some l' ∧ Inv P l' :=
  steps_total (inv_step hA) acts h

end Link
end Thread
end HapRust
