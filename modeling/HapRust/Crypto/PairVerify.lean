import HapRust.Crypto.Primitives
import HapRust.Lib.Run

/-! The controller's side of Pair Verify, and what a completed exchange proves
about the accessory, over every sequence of calls on one client. -/

namespace HapRust.Crypto
open Lib Tlv8

namespace PairVerify
def encryptSalt : Bytes := asBytes "Pair-Verify-Encrypt-Salt"
def encryptInfo : Bytes := asBytes "Pair-Verify-Encrypt-Info"
def controlSalt : Bytes := asBytes "Control-Salt"
def controlReadInfo : Bytes := asBytes "Control-Read-Encryption-Key"
def controlWriteInfo : Bytes := asBytes "Control-Write-Encryption-Key"
def eventSalt : Bytes := asBytes "Event-Salt"
def eventReadInfo : Bytes := asBytes "Event-Read-Encryption-Key"
def broadcastInfo : Bytes := asBytes "Broadcast-Encryption-Key"
def nonceM2 : Bytes := asBytes "PV-Msg02"
def nonceM3 : Bytes := asBytes "PV-Msg03"
end PairVerify
open PairVerify

structure SessionKeys where
  readKey : Arr 32
  writeKey : Arr 32
  deriving DecidableEq

inductive PairVerifyStep where
  | send (m : Bytes)
  | done (keys : SessionKeys)
  deriving DecidableEq

inductive PairVerifyState where
  | init
  | awaitM2
  | awaitM4
  | done
  deriving DecidableEq

structure PairVerifyClient where
  controllerId : String
  signing : Arr 32
  accessory : AccessoryPairing
  ephemeral : EphemeralKeypair
  sharedSecret : Option (Arr 32)
  state : PairVerifyState
  deriving DecidableEq

namespace PairVerifyClient
variable (P : Primitives)

def newWithEphemeral (controller : ControllerKeypair) (accessory : AccessoryPairing)
    (ephemeralSecret : Arr 32) : PairVerifyClient :=
  ⟨controller.id, controller.signing, accessory, .fromSecret P ephemeralSecret, none, .init⟩

def deriveKey (shared : Arr 32) (salt info : Bytes) : Except CryptoError (Arr 32) :=
  hkdfSha512 P shared.val salt info 32

def checkError (map : Tlv8Map) : Except CryptoError Unit :=
  match map.get TlvType.error with
  | none | some [] => .ok ()
  | some (_ :: _) => .error (.encoding "accessory returned a Pair Verify error")

def expectState : Tlv8Map → UInt8 → Except CryptoError Unit :=
  expectStateOr (.encoding "unexpected Pair Verify state")

def start (c : PairVerifyClient) : Bytes × PairVerifyClient :=
  (Tlv8Writer.push (Tlv8Writer.pushU8 [] TlvType.state 1) TlvType.publicKey c.ephemeral.pub.val,
    { c with state := .awaitM2 })

def buildM3 (c : PairVerifyClient) (pvKey controllerEphPub accessoryEphPub : Arr 32) :
    Except CryptoError Bytes := do
  let id := asBytes c.controllerId
  let signature := P.ed25519Sign c.signing (controllerEphPub.val ++ id ++ accessoryEphPub.val)
  let sub := Tlv8Writer.push (Tlv8Writer.push [] TlvType.identifier id)
    TlvType.signature signature.val
  let sealed ← encrypt P pvKey (hapNonce nonceM3) [] sub
  return Tlv8Writer.push (Tlv8Writer.pushU8 [] TlvType.state 3) TlvType.encryptedData sealed

def handleM2 (c : PairVerifyClient) (response : Bytes) :
    Except CryptoError (PairVerifyStep × PairVerifyClient) := do
  let map ← parseTlv response
  checkError map
  expectState map 2
  let ephBytes ← getOr map TlvType.publicKey "M2 missing accessory ephemeral key"
  let accessoryEphPub ← tryIntoOr 32 ephBytes "M2 accessory ephemeral key not 32 bytes"
  let encrypted ← getOr map TlvType.encryptedData "M2 missing encrypted data"
  let shared := c.ephemeral.diffieHellman P accessoryEphPub
  let pvKey ← deriveKey P shared encryptSalt encryptInfo
  let plaintext ← decrypt P pvKey (hapNonce nonceM2) [] encrypted
  let sub ← parseTlv plaintext
  let identifier ← getOr sub TlvType.identifier "M2 sub-TLV missing identifier"
  let sigBytes ← getOr sub TlvType.signature "M2 sub-TLV missing signature"
  let signature ← tryIntoOr 64 sigBytes "M2 signature not 64 bytes"
  ensure (identifier = asBytes c.accessory.pairingId)
    (.encoding "M2 accessory identifier does not match stored pairing")
  verifyEd25519 P c.accessory.ltpk
    (accessoryEphPub.val ++ identifier ++ c.ephemeral.pub.val) signature
  let m3 ← c.buildM3 P pvKey c.ephemeral.pub accessoryEphPub
  return (.send m3, { c with sharedSecret := some shared, state := .awaitM4 })

def sharedOr (c : PairVerifyClient) : Except CryptoError (Arr 32) :=
  okOr c.sharedSecret (.encoding "Pair Verify shared secret missing")

def broadcastKey (c : PairVerifyClient) (controllerLtpk : Bytes) :
    Except CryptoError (Arr 32) := do
  let shared ← c.sharedOr
  hkdfSha512 P shared.val controllerLtpk broadcastInfo 32

def eventKey (c : PairVerifyClient) : Except CryptoError (Arr 32) := do
  let shared ← c.sharedOr
  deriveKey P shared eventSalt eventReadInfo

def handleM4 (c : PairVerifyClient) (response : Bytes) :
    Except CryptoError (PairVerifyStep × PairVerifyClient) := do
  let map ← parseTlv response
  checkError map
  expectState map 4
  let shared ← c.sharedOr
  let readKey ← deriveKey P shared controlSalt controlReadInfo
  let writeKey ← deriveKey P shared controlSalt controlWriteInfo
  return (.done ⟨readKey, writeKey⟩, { c with state := .done })

def advance (c : PairVerifyClient) (response : Bytes) :
    Except CryptoError (PairVerifyStep × PairVerifyClient) :=
  match c.state with
  | .init => .error (.encoding "Pair Verify handle called before start")
  | .awaitM2 => c.handleM2 P response
  | .awaitM4 => c.handleM4 P response
  | .done => .error (.encoding "Pair Verify handle called after completion")

def handle (c : PairVerifyClient) (response : Bytes) :
    Except CryptoError PairVerifyStep × PairVerifyClient :=
  commit c (c.advance P response)

/-! ## What an accepted M2 contains -/

def secretWith (c : PairVerifyClient) (E : Arr 32) : Arr 32 := c.ephemeral.diffieHellman P E

/-- The response carries an ephemeral key `E` and data that opens under the key
agreed with `E`; inside are the stored identifier and a signature of the stored
long-term key over `E`, that identifier and the client's own ephemeral key. -/
def AuthenticM2 (c : PairVerifyClient) (response : Bytes) (E : Arr 32) : Prop :=
  ∃ map encrypted plaintext sub signature,
    Tlv8Map.parse response = .ok map ∧ map.get TlvType.publicKey = some E.val ∧
    map.get TlvType.encryptedData = some encrypted ∧
    P.chacha20Poly1305.decrypt (P.hkdf (c.secretWith P E).val encryptSalt encryptInfo 32)
      (hapNonce nonceM2) [] encrypted = some plaintext ∧
    Tlv8Map.parse plaintext = .ok sub ∧
    sub.get TlvType.identifier = some (asBytes c.accessory.pairingId) ∧
    sub.get TlvType.signature = some signature.val ∧
    P.ed25519Verify c.accessory.ltpk
      (E.val ++ asBytes c.accessory.pairingId ++ c.ephemeral.pub.val) signature = true

def sessionKeysOf (shared : Arr 32) : SessionKeys :=
  ⟨P.hkdf shared.val controlSalt controlReadInfo 32,
    P.hkdf shared.val controlSalt controlWriteInfo 32⟩

variable {P} {c c' : PairVerifyClient} {response : Bytes} {step : PairVerifyStep}

theorem handleM2_eq_ok (h : c.handleM2 P response = .ok (step, c')) :
    ∃ E m3, AuthenticM2 P c response E ∧ step = .send m3 ∧
      c' = { c with sharedSecret := some (c.secretWith P E), state := .awaitM4 } := by
  simp only [handleM2, bind_eq_ok, parseTlv_eq_ok, getOr_eq_ok, tryIntoOr_eq_ok, deriveKey,
    hkdfSha512_32, Except.ok.injEq, decrypt_eq_ok, ensure_eq_ok, verifyEd25519_eq_ok] at h
  obtain ⟨map, hmap, -, -, -, -, eph, heph, E, rfl, encrypted, henc, -, rfl, plaintext, hpt, sub,
    hsub, identifier, hid, sigBytes, hsig, signature, rfl, -, rfl, -, hverify, m3, -, hret⟩ := h
  obtain ⟨rfl, rfl⟩ := Prod.mk.inj (Except.ok.inj hret)
  exact ⟨E, m3, ⟨map, encrypted, plaintext, sub, signature, hmap, heph, henc, hpt, hsub, hid, hsig,
    hverify⟩, rfl, rfl⟩

theorem handleM4_eq_ok (h : c.handleM4 P response = .ok (step, c')) :
    ∃ shared, c.sharedSecret = some shared ∧ step = .done (sessionKeysOf P shared) ∧
      c' = { c with state := .done } := by
  simp only [handleM4, bind_eq_ok, deriveKey, hkdfSha512_32, Except.ok.injEq, sharedOr,
    okOr_eq_ok] at h
  obtain ⟨map, -, -, -, -, -, shared, hshared, -, rfl, -, rfl, hret⟩ := h
  obtain ⟨rfl, rfl⟩ := Prod.mk.inj (Except.ok.inj hret)
  exact ⟨shared, hshared, rfl, rfl⟩

theorem handle_cases (P : Primitives) (c : PairVerifyClient) (response : Bytes) :
    (∃ e, c.handle P response = (.error e, c)) ∨
    (c.state = .awaitM2 ∧ ∃ E m3, AuthenticM2 P c response E ∧ c.handle P response =
      (.ok (.send m3), { c with sharedSecret := some (c.secretWith P E), state := .awaitM4 })) ∨
    (c.state = .awaitM4 ∧ ∃ shared, c.sharedSecret = some shared ∧ c.handle P response =
      (.ok (.done (sessionKeysOf P shared)), { c with state := .done })) := by
  rcases commit_cases c (c.advance P response) with hh | ⟨step, c', hadv, hh⟩
  · exact .inl hh
  · cases hs : c.state with
    | init => simp [advance, hs] at hadv
    | done => simp [advance, hs] at hadv
    | awaitM2 =>
      simp only [advance, hs] at hadv
      obtain ⟨E, m3, hE, rfl, rfl⟩ := handleM2_eq_ok hadv
      exact .inr (.inl ⟨rfl, E, m3, hE, hh⟩)
    | awaitM4 =>
      simp only [advance, hs] at hadv
      obtain ⟨shared, hshared, rfl, rfl⟩ := handleM4_eq_ok hadv
      exact .inr (.inr ⟨rfl, shared, hshared, hh⟩)

/-! ## What an honest accessory achieves -/

theorem handle_M2_of {map sub : Tlv8Map} {encrypted plaintext m3 : Bytes} {E : Arr 32}
    {signature : Arr 64} (hc : c.state = .awaitM2) (hmap : Tlv8Map.parse response = .ok map)
    (herr : map.get TlvType.error = none) (hst : map.get TlvType.state = some [2])
    (hE : map.get TlvType.publicKey = some E.val)
    (henc : map.get TlvType.encryptedData = some encrypted)
    (hdec : P.chacha20Poly1305.decrypt
      (P.hkdf (c.secretWith P E).val encryptSalt encryptInfo 32) (hapNonce nonceM2) [] encrypted =
        some plaintext)
    (hsub : Tlv8Map.parse plaintext = .ok sub)
    (hid : sub.get TlvType.identifier = some (asBytes c.accessory.pairingId))
    (hsig : sub.get TlvType.signature = some signature.val)
    (hver : P.ed25519Verify c.accessory.ltpk
      (E.val ++ asBytes c.accessory.pairingId ++ c.ephemeral.pub.val) signature = true)
    (hm3 : c.buildM3 P (P.hkdf (c.secretWith P E).val encryptSalt encryptInfo 32)
      c.ephemeral.pub E = .ok m3) :
    c.handle P response = (.ok (.send m3),
      { c with sharedSecret := some (c.secretWith P E), state := .awaitM4 }) := by
  have hadv : c.advance P response = .ok (.send m3,
      { c with sharedSecret := some (c.secretWith P E), state := .awaitM4 }) := by
    unfold secretWith at hdec hm3 ⊢
    simp only [advance, hc, handleM2, parseTlv_eq_ok.mpr hmap, checkError, herr, expectState,
      expectStateOr_of_get hst, getOr_eq_ok.mpr hE, tryIntoOr_eq_ok.mpr rfl, getOr_eq_ok.mpr henc,
      deriveKey, hkdfSha512_32, decrypt_eq_ok.mpr hdec, parseTlv_eq_ok.mpr hsub,
      getOr_eq_ok.mpr hid, getOr_eq_ok.mpr hsig, ensure_of, verifyEd25519_of hver, hm3,
      ok_bind]
    rfl
  rw [handle, hadv]
  rfl

theorem handle_M4_of {map : Tlv8Map} {shared : Arr 32} (hc : c.state = .awaitM4)
    (hshared : c.sharedSecret = some shared) (hmap : Tlv8Map.parse response = .ok map)
    (herr : map.get TlvType.error = none) (hst : map.get TlvType.state = some [4]) :
    c.handle P response = (.ok (.done (sessionKeysOf P shared)), { c with state := .done }) := by
  have hadv : c.advance P response =
      .ok (.done (sessionKeysOf P shared), { c with state := .done }) := by
    simp only [advance, hc, handleM4, parseTlv_eq_ok.mpr hmap, checkError, herr, expectState,
      expectStateOr_of_get hst, sharedOr, hshared, okOr_some, deriveKey, hkdfSha512_32, ok_bind]
    rfl
  rw [handle, hadv]
  rfl

theorem eventKey_of {shared : Arr 32} (hshared : c.sharedSecret = some shared) :
    c.eventKey P = .ok (P.hkdf shared.val eventSalt eventReadInfo 32) := by
  simp only [eventKey, sharedOr, hshared, okOr_some, ok_bind, deriveKey, hkdfSha512_32]

theorem broadcastKey_of {shared : Arr 32} (hshared : c.sharedSecret = some shared) (ltpk : Bytes) :
    c.broadcastKey P ltpk = .ok (P.hkdf shared.val ltpk broadcastInfo 32) := by
  simp only [broadcastKey, sharedOr, hshared, okOr_some, ok_bind, hkdfSha512_32]

end PairVerifyClient
end HapRust.Crypto
