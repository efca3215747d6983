import HapRust.Crypto.Handshake
import HapRust.Lib.Dialogue
import HapRust.Pairing.Records

/-! Pairing over IP: Pair Setup and Pair Verify, each message of which is posted and
answered by the accessory. -/

namespace HapRust.Pairing
open Lib Tlv8 Crypto Transport

def pairSetupPath : String := "/pair-setup"
def pairVerifyPath : String := "/pair-verify"

structure Post where
  path : String
  body : Bytes
  deriving DecidableEq

abbrev PairingM : Type → Type := Asking Post (Except TransportError Bytes) PairingError

def postTlv8 (path : String) (body : Bytes) : PairingM Bytes :=
  Dialogue.ask ⟨path, body⟩ fun x => Dialogue.ret (mapErr .transport x)

def checkTlvError (body : Bytes) : Except PairingError Unit := do
  let map ← mapErr .tlv8 (Tlv8Map.parse body)
  match (map.get TlvType.error).bind List.head? with
  | some code => .error (.accessory code)
  | none => .ok ()

def exchange (path : String) (request : Bytes) : PairingM Bytes := do
  let response ← postTlv8 path request
  Asking.lift (checkTlvError response)
  pure response

section
variable (P : Primitives) (controller : ControllerKeypair)

def runPairSetup (setupCode : String) (a : Bytes) : PairingM AccessoryPairing := do
  let client ← Asking.lift (mapErr .crypto (PairSetupClient.newWithPrivate setupCode controller a))
  let (pairing, _) ← setupLoop P (fun _ => exchange pairSetupPath)
    (Asking.throw (.malformed "")) (fun e => Asking.throw (.crypto e)) 3 client
  pure pairing

def runPairVerify (pairing : AccessoryPairing) (ephemeral : Arr 32) : PairingM SessionKeys := do
  let (keys, _) ← verifyLoop P (fun _ => exchange pairVerifyPath)
    (Asking.throw (.malformed "")) (fun e => Asking.throw (.crypto e)) 2
    (PairVerifyClient.newWithEphemeral P controller pairing ephemeral)
  pure keys

def pair (setupCode : String) (a : Bytes) (ephemeral : Arr 32) :
    PairingM (AccessoryPairing × SessionKeys) := do
  let pairing ← runPairSetup P controller setupCode a
  let session ← runPairVerify P controller pairing ephemeral
  pure (pairing, session)

end
end HapRust.Pairing
