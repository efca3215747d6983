import HapRust.Crypto.PairSetup
import HapRust.Thread.Session

/-! The reference accessory's handlers for the pairing messages. Random values
(the ephemeral secret, the SRP salt and exponent) are arguments. -/

namespace HapRust.ThreadDut
open Lib Tlv8 Crypto

variable (P : Primitives)

def hkdf32 (ikm salt info : Bytes) : Except DutError (Arr 32) :=
  mapErr (fun _ => .protocol "HKDF expand failed") (hkdfSha512 P ikm salt info 32)

@[simp] theorem hkdf32_eq (ikm salt info : Bytes) :
    hkdf32 P ikm salt info = .ok (P.hkdf ikm salt info 32) := by
  rw [hkdf32, hkdfSha512_32, mapErr_ok]

def parseMap (bytes : Bytes) : Except DutError Tlv8Map := mapErr .tlv8 (Tlv8Map.parse bytes)

def expectState (map : Tlv8Map) (want : UInt8) : Except DutError Unit := do
  match ← mapErr .tlv8 (map.getU8 TlvType.state) with
  | some s => ensure (s = want) (.protocol "unexpected pairing State")
  | none => .error (.protocol "unexpected pairing State")

def require (map : Tlv8Map) (ty : UInt8) (msg : String) : Except DutError Bytes :=
  okOr (map.get ty) (.protocol msg)

def sealOr (key : Arr 32) (nonce : Arr 12) (plaintext : Bytes) : Except DutError Bytes :=
  mapErr .crypto (encrypt P key nonce [] plaintext)

section
variable {P}

theorem parseMap_eq_ok {bytes : Bytes} {map : Tlv8Map} :
    parseMap bytes = .ok map ↔ Tlv8Map.parse bytes = .ok map := mapErr_eq_ok

theorem require_eq_ok {map : Tlv8Map} {ty : UInt8} {msg : String} {b : Bytes} :
    require map ty msg = .ok b ↔ map.get ty = some b := okOr_eq_ok

theorem expectState_of_get {map : Tlv8Map} {n : UInt8} (h : map.get TlvType.state = some [n]) :
    expectState map n = .ok () := by
  simp only [expectState, Tlv8Map.getU8_of_get h, mapErr_ok, ok_bind, ensure_of]

theorem sealOr_of {key : Arr 32} {nonce : Arr 12} {m c : Bytes}
    (h : P.chacha20Poly1305.encrypt key nonce [] m = some c) : sealOr P key nonce m = .ok c := by
  rw [sealOr, encrypt, h, okOr_some, mapErr_ok]

end

def authError (state : UInt8) : Bytes :=
  Tlv8Writer.pushU8 (Tlv8Writer.pushU8 [] TlvType.state state) TlvType.error 2

def errorM4 : Bytes := authError 4

def errorM6 : Bytes := authError 6

/-! ## Pair Verify -/

structure VerifyInProgress where
  accessoryEphPub : Arr 32
  controllerEphPub : Arr 32
  shared : Arr 32
  pvKey : Arr 32
  deriving DecidableEq

def handleM1 (keypair : ControllerKeypair) (accessoryId : String) (ephemeralSecret : Arr 32)
    (m1 : Bytes) : Except DutError (Bytes × VerifyInProgress) := do
  let map ← parseMap m1
  expectState map 1
  let ephBytes ← require map TlvType.publicKey "M1 missing controller ephemeral key"
  let controllerEphPub ← okOr (tryIntoArr 32 ephBytes) (.protocol "M1 ephemeral key not 32 bytes")
  let accessoryEph := EphemeralKeypair.fromSecret P ephemeralSecret
  let shared := accessoryEph.diffieHellman P controllerEphPub
  let pvKey ← hkdf32 P shared.val PairVerify.encryptSalt PairVerify.encryptInfo
  let id := asBytes accessoryId
  let signature := keypair.sign P (accessoryEph.pub.val ++ id ++ controllerEphPub.val)
  let sub := Tlv8Writer.push (Tlv8Writer.push [] TlvType.identifier id)
    TlvType.signature signature.val
  let sealed ← sealOr P pvKey (hapNonce PairVerify.nonceM2) sub
  let m2 := Tlv8Writer.push (Tlv8Writer.push (Tlv8Writer.pushU8 [] TlvType.state 2)
    TlvType.publicKey accessoryEph.pub.val) TlvType.encryptedData sealed
  return (m2, ⟨accessoryEph.pub, controllerEphPub, shared, pvKey⟩)

def handleM3 (progress : VerifyInProgress) (controllerId : String) (controllerLtpk : Arr 32)
    (m3 : Bytes) : Except DutError (Bytes × Option AccessorySession) := do
  let map ← parseMap m3
  expectState map 3
  let encrypted ← require map TlvType.encryptedData "M3 missing encrypted data"
  match decrypt P progress.pvKey (hapNonce PairVerify.nonceM3) [] encrypted with
  | .error _ => return (errorM4, none)
  | .ok plaintext =>
    let sub ← parseMap plaintext
    let identifier ← require sub TlvType.identifier "M3 sub-TLV missing identifier"
    match (sub.get TlvType.signature).bind (tryIntoArr 64) with
    | none => return (errorM4, none)
    | some signature =>
      let signed := progress.controllerEphPub.val ++ identifier ++ progress.accessoryEphPub.val
      if identifier ≠ asBytes controllerId ∨ ¬ P.ed25519Verify controllerLtpk signed signature then
        return (errorM4, none)
      else
        let readKey ← hkdf32 P progress.shared.val PairVerify.controlSalt PairVerify.controlReadInfo
        let writeKey ←
          hkdf32 P progress.shared.val PairVerify.controlSalt PairVerify.controlWriteInfo
        let eventKey ← hkdf32 P progress.shared.val PairVerify.eventSalt PairVerify.eventReadInfo
        return (Tlv8Writer.pushU8 [] TlvType.state 4,
          some (AccessorySession.new readKey writeKey eventKey))

/-! ## Pair Setup -/

inductive SetupInProgress where
  | awaitingM3 (server : SrpServer)
  | awaitingM5 (sessionKey : Bytes)
  deriving DecidableEq

abbrev ControllerPairing := String × Arr 32

def handleSetupM1 (setupCode : String) (salt : Bytes) (b : Nat) (m1 : Bytes) :
    Except DutError (Bytes × SetupInProgress) := do
  let map ← parseMap m1
  expectState map 1
  match ← mapErr DutError.tlv8 (map.getU8 TlvType.method) with
  | none => pure ()
  | some m =>
    ensure (m = TlvType.methodPairSetup) (.protocol "unsupported pairing Method in M1")
  let server ← mapErr DutError.crypto (HapPairSetupSrpServer.new P setupCode salt b)
  let m2 := Tlv8Writer.push (Tlv8Writer.push (Tlv8Writer.pushU8 [] TlvType.state 2)
    TlvType.salt server.salt) TlvType.publicKey server.bPubBytes
  return (m2, .awaitingM3 server)

def handleSetupM3 (server : SrpServer) (m3 : Bytes) :
    Except DutError (Bytes × Option Bytes) := do
  let map ← parseMap m3
  expectState map 3
  let aPub ← require map TlvType.publicKey "M3 missing controller public key A"
  let m1 ← require map TlvType.proof "M3 missing controller proof M1"
  match HapPairSetupSrpServer.sessionKey P server aPub with
  | .error _ => return (errorM4, none)
  | .ok sessionKey =>
    match HapPairSetupSrpServer.verifyM1ProveM2 P server aPub m1 with
    | .error _ => return (errorM4, none)
    | .ok m2Proof =>
      return (Tlv8Writer.push (Tlv8Writer.pushU8 [] TlvType.state 4) TlvType.proof m2Proof,
        some sessionKey)

def buildM6 (sessionKey : Bytes) (encKey : Arr 32) (keypair : ControllerKeypair)
    (accessoryId : String) : Except DutError Bytes := do
  let accessoryX ← hkdf32 P sessionKey PairSetup.accessorySignSalt PairSetup.accessorySignInfo
  let ltpk := keypair.ltpk P
  let id := asBytes accessoryId
  let signature := keypair.sign P (accessoryX.val ++ id ++ ltpk.val)
  let sub := Tlv8Writer.push (Tlv8Writer.push (Tlv8Writer.push [] TlvType.identifier id)
    TlvType.publicKey ltpk.val) TlvType.signature signature.val
  let sealed ← sealOr P encKey (hapNonce PairSetup.nonceM6) sub
  return Tlv8Writer.push (Tlv8Writer.pushU8 [] TlvType.state 6) TlvType.encryptedData sealed

def handleSetupM5 (sessionKey : Bytes) (keypair : ControllerKeypair) (accessoryId : String)
    (m5 : Bytes) : Except DutError (Bytes × Option ControllerPairing) := do
  let map ← parseMap m5
  expectState map 5
  let encrypted ← require map TlvType.encryptedData "M5 missing encrypted data"
  let encKey ← hkdf32 P sessionKey PairSetup.encryptSalt PairSetup.encryptInfo
  match decrypt P encKey (hapNonce PairSetup.nonceM5) [] encrypted with
  | .error _ => return (errorM6, none)
  | .ok plaintext =>
    let sub ← parseMap plaintext
    let idBytes ← require sub TlvType.identifier "M5 sub-TLV missing identifier"
    match (sub.get TlvType.publicKey).bind (tryIntoArr 32),
        (sub.get TlvType.signature).bind (tryIntoArr 64) with
    | some ltpk, some signature =>
      let iosDeviceX ←
        hkdf32 P sessionKey PairSetup.controllerSignSalt PairSetup.controllerSignInfo
      if ¬ P.ed25519Verify ltpk (iosDeviceX.val ++ idBytes ++ ltpk.val) signature then
        return (errorM6, none)
      else
        match fromUtf8 idBytes with
        | none => return (errorM6, none)
        | some controllerId =>
          let m6 ← buildM6 P sessionKey encKey keypair accessoryId
          return (m6, some (controllerId, ltpk))
    | _, _ => return (errorM6, none)

end HapRust.ThreadDut
