import HapRust.Ble.Gatt
import HapRust.Lib.Channels

/-! The two ends of a BLE session over a link that an adversary controls, as two channels.
The accessory is taken to have a session of the same kind, with the keys the other way round. -/

namespace HapRust
open Lib Crypto

def Crypto.Primitives.knowing (P : Primitives) (log : List SealEntry) : Primitives :=
  { P with chacha20Poly1305 := P.chacha20Poly1305.knowing log }

namespace Ble

def BleSession.seal (P : Primitives) (s : BleSession) (pdu : Bytes) :
    Except BleError Bytes × BleSession :=
  match sealNext P.chacha20Poly1305 s.keys.writeKey s.sendCounter pdu with
  | none => (.error (.crypto .aead), s)
  | some (out, counter) => (.ok out, { s with sendCounter := counter })

def BleSession.open (P : Primitives) (s : BleSession) (data : Bytes) :
    Except BleError Bytes × BleSession :=
  match openNext P.chacha20Poly1305 s.keys.readKey s.recvCounter data with
  | none => (.error (.crypto .aead), s)
  | some (out, counter) => (.ok out, { s with recvCounter := counter })

theorem sealFrag_eq (P : Primitives) (pdu : Bytes) (s : BleState) :
    sealFrag P pdu s =
      .ret ((s.session.seal P pdu).1, { s with session := (s.session.seal P pdu).2 }) := by
  rw [sealFrag, BleM.bind_apply, BleSession.seal]
  simp only [BleM.get, Dialogue.ret_bind, BleM.andThen]
  cases sealNext P.chacha20Poly1305 s.session.keys.writeKey s.session.sendCounter pdu <;> rfl

theorem openFrag_eq (P : Primitives) (data : Bytes) (s : BleState) :
    openFrag P data s =
      .ret ((s.session.open P data).1, { s with session := (s.session.open P data).2 }) := by
  rw [openFrag, BleM.bind_apply, BleSession.open]
  simp only [BleM.get, Dialogue.ret_bind, BleM.andThen]
  cases openNext P.chacha20Poly1305 s.session.keys.readKey s.session.recvCounter data <;> rfl

inductive BleChannel where
  | write
  | read
  deriving DecidableEq, Repr

structure BleEnds where
  controller : BleSession
  accessory : BleSession
  log : List SealEntry
  sealed : BleChannel → List Bytes
  opened : BleChannel → List Bytes

namespace BleEnds

def sessionKeys (keys : SessionKeys) : BleChannel → Arr 32
  | .write => keys.writeKey
  | .read => keys.readKey

def start (keys : SessionKeys) : BleEnds where
  controller := .new keys
  accessory := .new ⟨keys.writeKey, keys.readKey⟩
  log := []
  sealed _ := []
  opened _ := []

def sender (s : BleEnds) : BleChannel → BleSession
  | .write => s.controller
  | .read => s.accessory

def receiver (s : BleEnds) : BleChannel → BleSession
  | .write => s.accessory
  | .read => s.controller

def setSender (s : BleEnds) : BleChannel → BleSession → BleEnds
  | .write, session => { s with controller := session }
  | .read, session => { s with accessory := session }

def setReceiver (s : BleEnds) : BleChannel → BleSession → BleEnds
  | .write, session => { s with accessory := session }
  | .read, session => { s with controller := session }

def sent (s : BleEnds) (ch : BleChannel) (pdu : Bytes) :
    Except BleError Bytes × BleSession → BleEnds
  | (.error _, session) => s.setSender ch session
  | (.ok out, session) => { s.setSender ch session with
      log := s.log ++
        [⟨(s.sender ch).keys.writeKey, counterNonce (s.sender ch).sendCounter, [], pdu, out⟩]
      sealed := Function.update s.sealed ch (s.sealed ch ++ [pdu]) }

def received (s : BleEnds) (ch : BleChannel) : Except BleError Bytes × BleSession → BleEnds
  | (.error _, session) => s.setReceiver ch session
  | (.ok out, session) => { s.setReceiver ch session with
      opened := Function.update s.opened ch (s.opened ch ++ [out]) }

variable (P : Primitives)

def step (s : BleEnds) : ChannelAct BleChannel → BleEnds
  | .send ch pdu => s.sent ch pdu ((s.sender ch).seal P pdu)
  | .deliver ch data => s.received ch ((s.receiver ch).open (P.knowing s.log) data)

def channels (s : BleEnds) : Channels BleChannel where
  key ch := (s.sender ch).keys.writeKey
  send ch := (s.sender ch).sendCounter
  recv ch := (s.receiver ch).recvCounter
  log := s.log
  sealed := s.sealed
  opened := s.opened

def Matched (s : BleEnds) : Prop := ∀ ch, (s.receiver ch).keys.readKey = (s.sender ch).keys.writeKey

variable {P} {s : BleEnds}

theorem matched_start (keys : SessionKeys) : (start keys).Matched := by
  intro ch
  cases ch <;> rfl

theorem channels_start (keys : SessionKeys) :
    (start keys).channels = Channels.start (sessionKeys keys) := by
  refine Channels.ext (funext fun ch => ?_) (funext fun ch => ?_) (funext fun ch => ?_)
    rfl rfl rfl <;> cases ch <;> rfl

theorem setSender_sender (s : BleEnds) (ch : BleChannel) : s.setSender ch (s.sender ch) = s := by
  cases ch <;> rfl

theorem setReceiver_receiver (s : BleEnds) (ch : BleChannel) :
    s.setReceiver ch (s.receiver ch) = s := by
  cases ch <;> rfl

theorem channels_send (s : BleEnds) (ch : BleChannel) (pdu : Bytes) :
    (s.step P (.send ch pdu)).channels = s.channels.step P.chacha20Poly1305 (.send ch pdu) := by
  have hnext : sealNext P.chacha20Poly1305 (s.channels.key ch) (s.channels.send ch) pdu =
      sealNext P.chacha20Poly1305 (s.sender ch).keys.writeKey (s.sender ch).sendCounter pdu := rfl
  rw [Channels.step, hnext, step, BleSession.seal]
  cases sealNext P.chacha20Poly1305 (s.sender ch).keys.writeKey (s.sender ch).sendCounter pdu with
  | none =>
    rw [sent, setSender_sender]
    rfl
  | some r =>
    cases ch <;> refine Channels.ext (funext fun ch' => ?_) (funext fun ch' => ?_)
      (funext fun ch' => ?_) rfl rfl rfl <;> cases ch' <;> rfl

theorem channels_deliver (h : s.Matched) (ch : BleChannel) (data : Bytes) :
    (s.step P (.deliver ch data)).channels =
      s.channels.step P.chacha20Poly1305 (.deliver ch data) := by
  have hnext : openNext (P.chacha20Poly1305.knowing s.log) (s.channels.key ch) (s.channels.recv ch)
        data = openNext (P.knowing s.log).chacha20Poly1305 (s.receiver ch).keys.readKey
          (s.receiver ch).recvCounter data := by
    rw [h ch]
    rfl
  rw [Channels.step, show s.channels.log = s.log from rfl, hnext, step, BleSession.open]
  cases openNext (P.knowing s.log).chacha20Poly1305 (s.receiver ch).keys.readKey
      (s.receiver ch).recvCounter data with
  | none =>
    rw [received, setReceiver_receiver]
    rfl
  | some r =>
    cases ch <;> refine Channels.ext (funext fun ch' => ?_) (funext fun ch' => ?_)
      (funext fun ch' => ?_) rfl rfl rfl <;> cases ch' <;> rfl

theorem matched_step (h : s.Matched) (a : ChannelAct BleChannel) : (s.step P a).Matched := by
  cases a with
  | send ch pdu =>
    rw [step, BleSession.seal]
    cases sealNext P.chacha20Poly1305 (s.sender ch).keys.writeKey (s.sender ch).sendCounter pdu with
    | none => rwa [sent, setSender_sender]
    | some r =>
      intro ch'
      have hmatched := h ch'
      cases ch <;> cases ch' <;> exact hmatched
  | deliver ch data =>
    rw [step, BleSession.open]
    cases openNext (P.knowing s.log).chacha20Poly1305 (s.receiver ch).keys.readKey
        (s.receiver ch).recvCounter data with
    | none => rwa [received, setReceiver_receiver]
    | some r =>
      intro ch'
      have hmatched := h ch'
      cases ch <;> cases ch' <;> exact hmatched

theorem channels_step (h : s.Matched) (a : ChannelAct BleChannel) :
    (s.step P a).channels = s.channels.step P.chacha20Poly1305 a := by
  cases a with
  | send ch pdu => exact channels_send s ch pdu
  | deliver ch data => exact channels_deliver h ch data

theorem channels_runs (keys : SessionKeys) (acts : List (ChannelAct BleChannel)) :
    (runs (step P) (start keys) acts).channels =
      runs (Channels.step P.chacha20Poly1305) (Channels.start (sessionKeys keys)) acts ∧
      (runs (step P) (start keys) acts).Matched := by
  rw [← channels_start]
  exact runs_simulate (step P) matched_step channels_step (matched_start keys) acts

end BleEnds
end Ble
end HapRust
