import HapRust.Ble.SessionChannels
import HapRust.Thread.Session

/-! The two ends of a CoAP session over a network that an adversary controls, as three
channels; and what this says of every session of the repository. -/

namespace HapRust
open Lib Crypto

namespace Thread
open ThreadDut

inductive CoapChannel where
  | request
  | response
  | event
  deriving DecidableEq, Repr

structure CoapEnds where
  controller : CoapSession
  accessory : AccessorySession
  log : List SealEntry
  sealed : CoapChannel → List Bytes
  opened : CoapChannel → List Bytes

namespace CoapEnds

def sessionKeys (keys : SessionKeys) (eventKey : Arr 32) : CoapChannel → Arr 32
  | .request => keys.writeKey
  | .response => keys.readKey
  | .event => eventKey

def start (keys : SessionKeys) (eventKey : Arr 32) : CoapEnds where
  controller := .new keys eventKey
  accessory := .new keys.readKey keys.writeKey eventKey
  log := []
  sealed _ := []
  opened _ := []

def sender (s : CoapEnds) : CoapChannel → Arr 32 × UInt64
  | .request => (s.controller.writeKey, s.controller.sendCtr)
  | .response => (s.accessory.readKey, s.accessory.sendCtr)
  | .event => (s.accessory.eventKey, s.accessory.eventCtr)

def receiver (s : CoapEnds) : CoapChannel → Arr 32 × UInt64
  | .request => (s.accessory.writeKey, s.accessory.recvCtr)
  | .response => (s.controller.readKey, s.controller.recvCtr)
  | .event => (s.controller.eventKey, s.controller.eventCtr)

def sent (s : CoapEnds) (ch : CoapChannel) (plaintext ciphertext : Bytes) : CoapEnds :=
  { s with
    log := s.log ++
      [⟨(s.sender ch).1, counterNonce (s.sender ch).2, [], plaintext, ciphertext⟩]
    sealed := Function.update s.sealed ch (s.sealed ch ++ [plaintext]) }

def received (s : CoapEnds) (ch : CoapChannel) (plaintext : Bytes) : CoapEnds :=
  { s with opened := Function.update s.opened ch (s.opened ch ++ [plaintext]) }

variable (P : Primitives)

def step (s : CoapEnds) : ChannelAct CoapChannel → CoapEnds
  | .send .request pt =>
    match s.controller.sealRequest P pt with
    | .ok (ct, session) => { s.sent .request pt ct with controller := session }
    | .error _ => s
  | .send .response pt =>
    match s.accessory.sealResponse P pt with
    | .ok (ct, session) => { s.sent .response pt ct with accessory := session }
    | .error _ => s
  | .send .event pt =>
    match s.accessory.sealEvent P pt with
    | .ok (ct, session) => { s.sent .event pt ct with accessory := session }
    | .error _ => s
  | .deliver .request ct =>
    match s.accessory.openRequest (P.knowing s.log) ct with
    | .ok (pt, session) => { s.received .request pt with accessory := session }
    | .error _ => s
  | .deliver .response ct =>
    match s.controller.openResponse (P.knowing s.log) ct with
    | .ok (pt, session) => { s.received .response pt with controller := session }
    | .error _ => s
  | .deliver .event ct =>
    match s.controller.openEvent (P.knowing s.log) ct with
    | .ok (pt, session) => { s.received .event pt with controller := session }
    | .error _ => s

def channels (s : CoapEnds) : Channels CoapChannel where
  key ch := (s.sender ch).1
  send ch := (s.sender ch).2
  recv ch := (s.receiver ch).2
  log := s.log
  sealed := s.sealed
  opened := s.opened

def Matched (s : CoapEnds) : Prop := ∀ ch, (s.receiver ch).1 = (s.sender ch).1

variable {P} {s : CoapEnds}

theorem matched_start (keys : SessionKeys) (eventKey : Arr 32) : (start keys eventKey).Matched := by
  intro ch
  cases ch <;> rfl

theorem channels_start (keys : SessionKeys) (eventKey : Arr 32) :
    (start keys eventKey).channels = Channels.start (sessionKeys keys eventKey) := by
  refine Channels.ext (funext fun ch => ?_) (funext fun ch => ?_) (funext fun ch => ?_)
    rfl rfl rfl <;> cases ch <;> rfl

/-! The seals differ from one another in the key they take and the counter they move, and
so do the opens. -/

def afterSeal (s : CoapEnds) (ch : CoapChannel) (pt : Bytes) : Option (Bytes × UInt64) → CoapEnds
  | none => s
  | some (ct, ctr) =>
    match ch with
    | .request => { s.sent ch pt ct with controller := { s.controller with sendCtr := ctr } }
    | .response => { s.sent ch pt ct with accessory := { s.accessory with sendCtr := ctr } }
    | .event => { s.sent ch pt ct with accessory := { s.accessory with eventCtr := ctr } }

def afterOpen (s : CoapEnds) (ch : CoapChannel) : Option (Bytes × UInt64) → CoapEnds
  | none => s
  | some (pt, ctr) =>
    match ch with
    | .request => { s.received ch pt with accessory := { s.accessory with recvCtr := ctr } }
    | .response => { s.received ch pt with controller := { s.controller with recvCtr := ctr } }
    | .event => { s.received ch pt with controller := { s.controller with eventCtr := ctr } }

theorem step_send (s : CoapEnds) (ch : CoapChannel) (pt : Bytes) :
    s.step P (.send ch pt) =
      s.afterSeal ch pt (sealNext P.chacha20Poly1305 (s.sender ch).1 (s.sender ch).2 pt) := by
  cases ch with
  | request =>
    simp only [step, CoapSession.sealRequest, sender]
    cases sealNext P.chacha20Poly1305 s.controller.writeKey s.controller.sendCtr pt <;> rfl
  | response =>
    simp only [step, AccessorySession.sealResponse, sender]
    cases sealNext P.chacha20Poly1305 s.accessory.readKey s.accessory.sendCtr pt <;> rfl
  | event =>
    simp only [step, AccessorySession.sealEvent, sender]
    cases sealNext P.chacha20Poly1305 s.accessory.eventKey s.accessory.eventCtr pt <;> rfl

theorem step_deliver (s : CoapEnds) (ch : CoapChannel) (ct : Bytes) :
    s.step P (.deliver ch ct) = s.afterOpen ch
      (openNext (P.chacha20Poly1305.knowing s.log) (s.receiver ch).1 (s.receiver ch).2 ct) := by
  cases ch with
  | request =>
    simp only [step, AccessorySession.openRequest, receiver, Primitives.knowing]
    cases openNext (P.chacha20Poly1305.knowing s.log) s.accessory.writeKey s.accessory.recvCtr ct <;>
      rfl
  | response =>
    simp only [step, CoapSession.openResponse, receiver, Primitives.knowing]
    cases openNext (P.chacha20Poly1305.knowing s.log) s.controller.readKey s.controller.recvCtr ct <;>
      rfl
  | event =>
    simp only [step, CoapSession.openEvent, receiver, Primitives.knowing]
    cases openNext (P.chacha20Poly1305.knowing s.log) s.controller.eventKey s.controller.eventCtr
      ct <;> rfl

theorem channels_afterSeal (s : CoapEnds) (ch : CoapChannel) (pt : Bytes)
    (r : Option (Bytes × UInt64)) : (s.afterSeal ch pt r).channels = s.channels.sent ch pt r := by
  cases r with
  | none => rfl
  | some r =>
    cases ch <;> refine Channels.ext (funext fun ch' => ?_) (funext fun ch' => ?_)
      (funext fun ch' => ?_) rfl rfl rfl <;> cases ch' <;> rfl

theorem channels_afterOpen (s : CoapEnds) (ch : CoapChannel) (r : Option (Bytes × UInt64)) :
    (s.afterOpen ch r).channels = s.channels.received ch r := by
  cases r with
  | none => rfl
  | some r =>
    cases ch <;> refine Channels.ext (funext fun ch' => ?_) (funext fun ch' => ?_)
      (funext fun ch' => ?_) rfl rfl rfl <;> cases ch' <;> rfl

theorem channels_step (h : s.Matched) (a : ChannelAct CoapChannel) :
    (s.step P a).channels = s.channels.step P.chacha20Poly1305 a := by
  cases a with
  | send ch pt =>
    rw [step_send, channels_afterSeal]
    rfl
  | deliver ch ct =>
    rw [step_deliver, channels_afterOpen, h ch]
    rfl

theorem matched_step (h : s.Matched) (a : ChannelAct CoapChannel) : (s.step P a).Matched := by
  intro ch'
  have hmatched := h ch'
  cases a with
  | send ch pt =>
    rw [step_send]
    cases sealNext P.chacha20Poly1305 (s.sender ch).1 (s.sender ch).2 pt with
    | none => exact hmatched
    | some r => cases ch <;> cases ch' <;> exact hmatched
  | deliver ch ct =>
    rw [step_deliver]
    cases openNext (P.chacha20Poly1305.knowing s.log) (s.receiver ch).1 (s.receiver ch).2 ct with
    | none => exact hmatched
    | some r => cases ch <;> cases ch' <;> exact hmatched

theorem channels_runs (keys : SessionKeys) (eventKey : Arr 32)
    (acts : List (ChannelAct CoapChannel)) :
    (runs (step P) (start keys eventKey) acts).channels =
      runs (Channels.step P.chacha20Poly1305) (Channels.start (sessionKeys keys eventKey)) acts ∧
      (runs (step P) (start keys eventKey) acts).Matched := by
  rw [← channels_start]
  exact runs_simulate (step P) matched_step channels_step (matched_start keys eventKey) acts

end CoapEnds
end Thread

/-! ## Every session -/

structure MatchedKeys where
  session : SessionKeys
  event : Arr 32
  read_ne_write : session.readKey ≠ session.writeKey
  event_ne_read : event ≠ session.readKey
  event_ne_write : event ≠ session.writeKey

namespace MatchedKeys

theorem ble_injective (k : MatchedKeys) :
    Function.Injective (Ble.BleEnds.sessionKeys k.session) := by
  intro a b h
  cases a <;> cases b
  · rfl
  · exact absurd h.symm k.read_ne_write
  · exact absurd h k.read_ne_write
  · rfl

theorem coap_injective (k : MatchedKeys) :
    Function.Injective (Thread.CoapEnds.sessionKeys k.session k.event) := by
  intro a b h
  cases a <;> cases b
  · rfl
  · exact absurd h.symm k.read_ne_write
  · exact absurd h.symm k.event_ne_write
  · exact absurd h k.read_ne_write
  · rfl
  · exact absurd h.symm k.event_ne_read
  · exact absurd h k.event_ne_write
  · exact absurd h k.event_ne_read
  · rfl

end MatchedKeys

/-- On every run of seals and deliveries, over BLE and over CoAP, as long as fewer than `2 ^ 64`
messages are sealed on each channel: what is opened is what was sealed, in order, and no nonce is
used twice under one key; and no step moves a counter other than its own, nor that one if it fails. -/
theorem sessions_in_order (P : Primitives) (k : MatchedKeys) :
    (∀ acts, (runs (Ble.BleEnds.step P) (.start k.session) acts).channels.Bounded →
      (runs (Ble.BleEnds.step P) (.start k.session) acts).channels.Safe) ∧
    (∀ acts a, Channels.Confined
      (runs (Ble.BleEnds.step P) (.start k.session) acts).channels a
      ((runs (Ble.BleEnds.step P) (.start k.session) acts).step P a).channels) ∧
    (∀ acts, (runs (Thread.CoapEnds.step P) (.start k.session k.event) acts).channels.Bounded →
      (runs (Thread.CoapEnds.step P) (.start k.session k.event) acts).channels.Safe) ∧
    (∀ acts a, Channels.Confined
      (runs (Thread.CoapEnds.step P) (.start k.session k.event) acts).channels a
      ((runs (Thread.CoapEnds.step P) (.start k.session k.event) acts).step P a).channels) := by
  refine ⟨?_, ?_, ?_, ?_⟩
  · intro acts h
    rw [(Ble.BleEnds.channels_runs k.session acts).1] at h ⊢
    exact Channels.safe_of_bounded k.ble_injective acts h
  · intro acts a
    rw [Ble.BleEnds.channels_step (Ble.BleEnds.channels_runs k.session acts).2 a]
    exact Channels.confined_step _ a
  · intro acts h
    rw [(Thread.CoapEnds.channels_runs k.session k.event acts).1] at h ⊢
    exact Channels.safe_of_bounded k.coap_injective acts h
  · intro acts a
    rw [Thread.CoapEnds.channels_step (Thread.CoapEnds.channels_runs k.session k.event acts).2 a]
    exact Channels.confined_step _ a

def distinctKeys : MatchedKeys :=
  ⟨⟨constArr 32 4, constArr 32 5⟩, constArr 32 6, by decide, by decide, by decide⟩

def sealedBytes (key : Arr 32) (ctr : UInt64) (msg : Bytes) : Bytes :=
  key.val ++ (counterNonce ctr).val ++ msg

def replayed : List (ChannelAct Ble.BleChannel) :=
  let first := sealedBytes (constArr 32 5) 0 [1]
  [.send .write [1], .send .write [2], .deliver .write (sealedBytes (constArr 32 5) 1 [2]),
    .deliver .write first, .deliver .write first, .deliver .read first]

theorem sessions_in_order_replayed :
    (runs (Ble.BleEnds.step plainPrimitives) (.start distinctKeys.session) replayed).opened .write =
        [[1]] ∧
      (runs (Ble.BleEnds.step plainPrimitives) (.start distinctKeys.session) replayed).opened .read =
        [] ∧
      (runs (Ble.BleEnds.step plainPrimitives) (.start distinctKeys.session)
        replayed).channels.Safe := by
  refine ⟨by decide +kernel, by decide +kernel, ?_⟩
  refine (sessions_in_order plainPrimitives distinctKeys).1 replayed ?_
  intro ch
  cases ch <;> decide +kernel

end HapRust
