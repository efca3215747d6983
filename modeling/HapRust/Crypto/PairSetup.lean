import HapRust.Crypto.Srp
import HapRust.Tlv8.RoundTrip

/-! The controller's side of Pair Setup. -/

namespace HapRust.Crypto
open Lib Tlv8

namespace PairSetup
def username : Bytes := asBytes "Pair-Setup"
def encryptSalt : Bytes := asBytes "Pair-Setup-Encrypt-Salt"
def encryptInfo : Bytes := asBytes "Pair-Setup-Encrypt-Info"
def controllerSignSalt : Bytes := asBytes "Pair-Setup-Controller-Sign-Salt"
def controllerSignInfo : Bytes := asBytes "Pair-Setup-Controller-Sign-Info"
def accessorySignSalt : Bytes := asBytes "Pair-Setup-Accessory-Sign-Salt"
def accessorySignInfo : Bytes := asBytes "Pair-Setup-Accessory-Sign-Info"
def nonceM5 : Bytes := asBytes "PS-Msg05"
def nonceM6 : Bytes := asBytes "PS-Msg06"

variable (P : Primitives)

def encKey (sessionKey : Bytes) : Arr 32 := P.hkdf sessionKey encryptSalt encryptInfo 32

def accessoryX (sessionKey : Bytes) : Arr 32 :=
  P.hkdf sessionKey accessorySignSalt accessorySignInfo 32

def iosDeviceX (sessionKey : Bytes) : Arr 32 :=
  P.hkdf sessionKey controllerSignSalt controllerSignInfo 32

end PairSetup
open PairSetup

def normalizeSetupCode (code : String) : String :=
  let digits := code.toList.filter Char.isDigit
  if digits.length = 8 then
    String.ofList (digits.take 3 ++ ['-'] ++ (digits.drop 3).take 2 ++ ['-'] ++ digits.drop 5)
  else code

inductive PairSetupStep where
  | send (m : Bytes)
  | done (pairing : AccessoryPairing)
  deriving DecidableEq

inductive PairSetupState where
  | initial
  | awaitingM2
  | awaitingM4 (sessionKey m1 : Bytes)
  | awaitingM6 (sessionKey : Bytes)
  | done
  deriving DecidableEq

structure PairSetupClient where
  password : String
  controller : ControllerKeypair
  srp : SrpClient
  state : PairSetupState
  deriving DecidableEq

namespace PairSetupClient
variable (P : Primitives)

def newWithPrivate (setupCode : String) (controller : ControllerKeypair) (a : Bytes) :
    Except CryptoError PairSetupClient := do
  let group ← hapGroup
  let srp ← SrpClient.withPrivate group username (beNat a)
  return ⟨normalizeSetupCode setupCode, controller, srp, .initial⟩

def checkError (map : Tlv8Map) : Except CryptoError Unit :=
  match map.get TlvType.error with
  | none | some [] => .ok ()
  | some [2] => .error .srpProofMismatch
  | some _ => .error (.encoding "accessory returned a pairing error")

def expectState : Tlv8Map → UInt8 → Except CryptoError Unit :=
  expectStateOr (.encoding "unexpected Pair Setup state")

def start (c : PairSetupClient) : Bytes × PairSetupClient :=
  (Tlv8Writer.pushU8 (Tlv8Writer.pushU8 [] TlvType.state 1) TlvType.method TlvType.methodPairSetup,
    { c with state := .awaitingM2 })

def handleM2 (c : PairSetupClient) (map : Tlv8Map) :
    Except CryptoError (PairSetupStep × PairSetupClient) := do
  expectState map 2
  let salt ← getOr map TlvType.salt "M2 missing salt"
  let bBytes ← getOr map TlvType.publicKey "M2 missing accessory public key B"
  let bPub := beNat bBytes
  let premaster ← c.srp.premaster P.sha512 salt (asBytes c.password) bPub
  let sessionKey := c.srp.sessionKey P.sha512 premaster
  let m1 := c.srp.proofM1 P.sha512 salt bPub sessionKey
  let out := Tlv8Writer.push (Tlv8Writer.push (Tlv8Writer.pushU8 [] TlvType.state 3)
    TlvType.publicKey c.srp.aPubBytes) TlvType.proof m1
  return (.send out, { c with state := .awaitingM4 sessionKey m1 })

def buildM5 (c : PairSetupClient) (sessionKey : Bytes) : Except CryptoError Bytes := do
  let encKey ← hkdfSha512 P sessionKey encryptSalt encryptInfo 32
  let iosDeviceX ← hkdfSha512 P sessionKey controllerSignSalt controllerSignInfo 32
  let id := asBytes c.controller.id
  let ltpk := c.controller.ltpk P
  let signature := c.controller.sign P (iosDeviceX.val ++ id ++ ltpk.val)
  let sub := Tlv8Writer.push (Tlv8Writer.push (Tlv8Writer.push [] TlvType.identifier id)
    TlvType.publicKey ltpk.val) TlvType.signature signature.val
  let sealed ← encrypt P encKey (hapNonce nonceM5) [] sub
  return Tlv8Writer.push (Tlv8Writer.pushU8 [] TlvType.state 5) TlvType.encryptedData sealed

def handleM4 (c : PairSetupClient) (map : Tlv8Map) :
    Except CryptoError (PairSetupStep × PairSetupClient) := do
  expectState map 4
  match c.state with
  | .awaitingM4 sessionKey m1 =>
    let proof ← getOr map TlvType.proof "M4 missing accessory proof M2"
    c.srp.verifyM2 P.sha512 m1 sessionKey proof
    let out ← c.buildM5 P sessionKey
    return (.send out, { c with state := .awaitingM6 sessionKey })
  | _ => .error (.encoding "Pair Setup state corrupted")

def readM6 (sessionKey : Bytes) (map : Tlv8Map) : Except CryptoError PairSetupStep := do
  let encrypted ← getOr map TlvType.encryptedData "M6 missing encrypted data"
  let encKey ← hkdfSha512 P sessionKey encryptSalt encryptInfo 32
  let plaintext ← decrypt P encKey (hapNonce nonceM6) [] encrypted
  let sub ← parseTlv plaintext
  let idBytes ← getOr sub TlvType.identifier "M6 sub-TLV missing identifier"
  let ltpkBytes ← getOr sub TlvType.publicKey "M6 sub-TLV missing public key"
  let sigBytes ← getOr sub TlvType.signature "M6 sub-TLV missing signature"
  let ltpk ← tryIntoOr 32 ltpkBytes "accessory LTPK is not 32 bytes"
  let signature ← tryIntoOr 64 sigBytes "accessory signature is not 64 bytes"
  let pairingId ← okOr (fromUtf8 idBytes) (.encoding "accessory pairing id is not valid UTF-8")
  let accessoryX ← hkdfSha512 P sessionKey accessorySignSalt accessorySignInfo 32
  verifyEd25519 P ltpk (accessoryX.val ++ idBytes ++ ltpk.val) signature
  return .done ⟨pairingId, ltpk⟩

def handleM6 (c : PairSetupClient) (map : Tlv8Map) :
    Except CryptoError PairSetupStep × PairSetupClient :=
  match expectState map 6, c.state with
  | .error e, _ => (.error e, c)
  | .ok (), .awaitingM6 sessionKey => (readM6 P sessionKey map, { c with state := .done })
  | .ok (), _ => (.error (.encoding "Pair Setup state corrupted"), c)

def dispatch (c : PairSetupClient) (map : Tlv8Map) :
    Except CryptoError PairSetupStep × PairSetupClient :=
  match c.state with
  | .initial => (.error (.encoding "Pair Setup not started"), c)
  | .awaitingM2 => commit c (c.handleM2 P map)
  | .awaitingM4 _ _ => commit c (c.handleM4 P map)
  | .awaitingM6 _ => c.handleM6 P map
  | .done => (.error (.encoding "Pair Setup already finished"), c)

def handle (c : PairSetupClient) (response : Bytes) :
    Except CryptoError PairSetupStep × PairSetupClient :=
  match parseTlv response with
  | .error e => (.error e, c)
  | .ok map =>
    match checkError map with
    | .error e => (.error e, c)
    | .ok () => c.dispatch P map

end PairSetupClient

/-! ## The accessory's half of the SRP exchange -/

namespace HapPairSetupSrpServer
variable (P : Primitives)

def new (setupCode : String) (salt : Bytes) (b : Nat) : Except CryptoError SrpServer := do
  let group ← hapGroup
  return SrpServer.withSaltAndPrivate P.sha512 group username
    (asBytes (normalizeSetupCode setupCode)) salt b

def sessionKey (s : SrpServer) (aPubBytes : Bytes) : Except CryptoError Bytes :=
  s.sessionKey P.sha512 (beNat aPubBytes)

def verifyM1ProveM2 (s : SrpServer) (aPubBytes m1 : Bytes) : Except CryptoError Bytes := do
  let key ← s.sessionKey P.sha512 (beNat aPubBytes)
  s.verifyM1ProveM2 P.sha512 (beNat aPubBytes) key m1

theorem new_ok (setupCode : String) (salt : Bytes) (b : Nat) :
    new P setupCode salt b = .ok (SrpServer.withSaltAndPrivate P.sha512 hap3072 username
      (asBytes (normalizeSetupCode setupCode)) salt b) := by
  rw [new, hapGroup_ok, ok_bind]
  rfl

end HapPairSetupSrpServer
end HapRust.Crypto
