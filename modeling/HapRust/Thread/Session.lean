import HapRust.Crypto.PairVerify
import HapRust.Lib.SealedChannel

/-! The two ends of the encrypted CoAP session: the controller's and the
reference accessory's. -/

namespace HapRust
open Lib Crypto

namespace Thread

inductive ThreadError where
  | io
  | coap (msg : String)
  | coapCode (code : String)
  | malformedPdu (msg : String)
  | pduStatus (status : UInt8)
  | sessionExpired
  | crypto (e : CryptoError)
  | tlv8 (e : Tlv8.Tlv8Error)
  | model (msg : String)
  deriving DecidableEq, Repr

structure CoapSession where
  readKey : Arr 32
  writeKey : Arr 32
  eventKey : Arr 32
  sendCtr : UInt64
  recvCtr : UInt64
  eventCtr : UInt64
  deriving DecidableEq

namespace CoapSession
variable (P : Primitives)

def new (keys : SessionKeys) (eventKey : Arr 32) : CoapSession :=
  ⟨keys.readKey, keys.writeKey, eventKey, 0, 0, 0⟩

def sealRequest (s : CoapSession) (plaintext : Bytes) :
    Except ThreadError (Bytes × CoapSession) := do
  let (ct, ctr) ← okOr (sealNext P.chacha20Poly1305 s.writeKey s.sendCtr plaintext) (.crypto .aead)
  return (ct, { s with sendCtr := ctr })

def openResponse (s : CoapSession) (ciphertext : Bytes) :
    Except ThreadError (Bytes × CoapSession) := do
  let (pt, ctr) ← okOr (openNext P.chacha20Poly1305 s.readKey s.recvCtr ciphertext) (.crypto .aead)
  return (pt, { s with recvCtr := ctr })

def openEvent (s : CoapSession) (ciphertext : Bytes) :
    Except ThreadError (Bytes × CoapSession) := do
  let (pt, ctr) ←
    okOr (openNext P.chacha20Poly1305 s.eventKey s.eventCtr ciphertext) (.crypto .aead)
  return (pt, { s with eventCtr := ctr })

end CoapSession
end Thread

namespace ThreadDut

inductive DutError where
  | crypto (e : CryptoError)
  | tlv8 (e : Tlv8.Tlv8Error)
  | protocol (msg : String)
  | io
  deriving DecidableEq, Repr

structure AccessorySession where
  readKey : Arr 32
  writeKey : Arr 32
  eventKey : Arr 32
  recvCtr : UInt64
  sendCtr : UInt64
  eventCtr : UInt64
  deriving DecidableEq

namespace AccessorySession
variable (P : Primitives)

def new (readKey writeKey eventKey : Arr 32) : AccessorySession :=
  ⟨readKey, writeKey, eventKey, 0, 0, 0⟩

def openRequest (s : AccessorySession) (ciphertext : Bytes) :
    Except DutError (Bytes × AccessorySession) := do
  let (pt, ctr) ← okOr (openNext P.chacha20Poly1305 s.writeKey s.recvCtr ciphertext) (.crypto .aead)
  return (pt, { s with recvCtr := ctr })

def sealResponse (s : AccessorySession) (plaintext : Bytes) :
    Except DutError (Bytes × AccessorySession) := do
  let (ct, ctr) ← okOr (sealNext P.chacha20Poly1305 s.readKey s.sendCtr plaintext) (.crypto .aead)
  return (ct, { s with sendCtr := ctr })

def sealEvent (s : AccessorySession) (plaintext : Bytes) :
    Except DutError (Bytes × AccessorySession) := do
  let (ct, ctr) ← okOr (sealNext P.chacha20Poly1305 s.eventKey s.eventCtr plaintext) (.crypto .aead)
  return (ct, { s with eventCtr := ctr })

end AccessorySession
end ThreadDut
end HapRust
