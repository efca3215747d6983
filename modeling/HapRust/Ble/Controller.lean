import HapRust.Ble.RemovePairing

/-! Pairing over BLE: Pair Setup over its characteristic, then the sweep of the
accessory's database, then Pair Verify and a request for a broadcast key. -/

namespace HapRust.Ble
open Lib Tlv8 Crypto BleM

def pairSetupChar : String := "0000004c-0000-1000-8000-0026bb765291"
def pairVerifyChar : String := "0000004e-0000-1000-8000-0026bb765291"
def pairingsCharUuid : String := "00000050-0000-1000-8000-0026bb765291"
def serviceSignatureChar : String := "000000a5-0000-1000-8000-0026bb765291"
def protocolInfoService : String := "000000a2-0000-1000-8000-0026bb765291"
def generateBroadcastKeyBody : Bytes := [0x01, 0x00]

structure GattCharacteristic where
  uuid : String
  iid : UInt16
  deriving DecidableEq

structure GattService where
  uuid : String
  iid : UInt16
  characteristics : List GattCharacteristic
  deriving DecidableEq

def iidOf (services : List GattService) (charUuid : String) : Except BleError UInt16 :=
  okOr (((services.flatMap (·.characteristics)).find? (eqIgnoreAsciiCase ·.uuid charUuid)).map
    (·.iid)) (.characteristicNotFound 0 0)

def protocolInfoServiceIid (services : List GattService) : Option UInt16 := do
  let svc ← services.find? (eqIgnoreAsciiCase ·.uuid protocolInfoService)
  if svc.characteristics.any (eqIgnoreAsciiCase ·.uuid serviceSignatureChar) then some svc.iid
  else none

/-! ## Pair Setup -/

def pairSetup (P : Primitives) (uuid : String) (iid : UInt16) (setupCode : String)
    (controller : ControllerKeypair) (fragSize : Nat) (a : Bytes) : BleM AccessoryPairing := do
  let client ← lift (mapErr .crypto (PairSetupClient.newWithPrivate setupCode controller a))
  let (pairing, _) ← setupLoop P
    (fun i out => exchange uuid (UInt8.ofNat (i + 1)) iid out fragSize)
    (throw (.malformedPdu "")) (fun e => throw (.crypto e)) 3 client
  pure pairing

/-! ## The database sweep -/

structure DbParsers where
  ServiceType : Type
  Signature : Type
  serviceTypeOf : String → Except BleError ServiceType
  parseSignature : Bytes → Except BleError Signature

structure DbService (D : DbParsers) where
  iid : UInt16
  serviceType : D.ServiceType
  characteristics : List (UInt16 × D.Signature)

section
variable (D : DbParsers) (fragSize : Nat)

def readSignatures : UInt8 → List GattCharacteristic → BleM (List (UInt16 × D.Signature) × UInt8)
  | tid, [] => pure ([], tid)
  | tid, gc :: gcs =>
    if eqIgnoreAsciiCase gc.uuid serviceSignatureChar then readSignatures tid gcs
    else do
      let resp ← request gc.uuid .characteristicSignatureRead (tid + 1) gc.iid [] fragSize
      let sig ← lift (D.parseSignature resp.body)
      let (sigs, last) ← readSignatures (tid + 1) gcs
      pure ((gc.iid, sig) :: sigs, last)

def readServices : UInt8 → List GattService → BleM (List (DbService D))
  | _, [] => pure []
  | tid, gs :: gss => do
    let serviceType ← lift (D.serviceTypeOf gs.uuid)
    let (chars, last) ← readSignatures D fragSize tid gs.characteristics
    let services ← readServices last gss
    pure (⟨gs.iid, serviceType, chars⟩ :: services)

def buildDb (services : List GattService) : BleM (List (DbService D)) :=
  readServices D fragSize 0 services

end

/-! ## The controller -/

inductive LinkCall where
  | maxWrite
  | instanceId (uuid : String)
  | enumerate
  | op (op : GattOp)
  deriving DecidableEq

structure LinkAnswer where
  maxWrite : Nat
  instanceId : Except BleError UInt16
  services : Except BleError (List GattService)
  op : Answer

abbrev LinkM : Type → Type := Asking LinkCall LinkAnswer BleError

def LinkM.ask {α : Type} (call : LinkCall) (answer : LinkAnswer → Except BleError α) : LinkM α :=
  Dialogue.ask call fun x => Dialogue.ret (answer x)

def carryOut {α : Type} (m : BleM α) (s : BleState) : LinkM (α × BleState) :=
  ((m s).translate LinkCall.op LinkAnswer.op).bind fun r => Dialogue.ret (r.1.map (·, r.2))

def resultOf {α : Type} (m : BleM α) : BleM (Except BleError α) := fun s =>
  (m s).bind fun r => .ret (.ok r.1, r.2)

def BleState.fresh : BleState where
  generation := 0
  session := .new ⟨⟨List.replicate 32 0, rfl⟩, ⟨List.replicate 32 0, rfl⟩⟩
  tid := 0
  since := 0
  validOn := none
  links := []
  delivered := []
  answered := false

structure BleBroadcastState where
  key : Arr 32
  gsn : UInt16
  deriving DecidableEq

structure BleConnected (D : DbParsers) where
  accessory : BleAccessory
  secure : BleState
  database : List (DbService D)
  broadcastKey : Arr 32
  lastGsn : UInt16

def BleConnected.broadcastState {D : DbParsers} (c : BleConnected D) : BleBroadcastState :=
  ⟨c.broadcastKey, c.lastGsn⟩

structure Paired (D : DbParsers) where
  accessory : BleConnected D
  pairing : AccessoryPairing
  broadcast : BleBroadcastState

namespace BleController
variable (P : Primitives) (D : DbParsers) (keypair : ControllerKeypair)

def setUp (setupCode : String) (a : Bytes) : LinkM (AccessoryPairing × BleState) := do
  let frag ← LinkM.ask .maxWrite (.ok ·.maxWrite)
  let setupIid ← LinkM.ask (.instanceId pairSetupChar) (·.instanceId)
  carryOut (pairSetup P pairSetupChar setupIid setupCode keypair frag a) .fresh

def generateBroadcastKey (services : List GattService) (frag : Nat) : BleM Unit :=
  match protocolInfoServiceIid services with
  | some serviceIid => do
    let _ ← resultOf (requestSecure P serviceSignatureChar .protocolConfig 1 serviceIid
      generateBroadcastKeyBody frag)
    pure ()
  | none => pure ()

def verifyAndBuild (pairing : AccessoryPairing) (ephemeral : Arr 32) (initialGsn : UInt16)
    (s : BleState) : LinkM (BleConnected D) := do
  let frag ← LinkM.ask .maxWrite (.ok ·.maxWrite)
  let services ← LinkM.ask .enumerate (·.services)
  let (database, s) ← carryOut (buildDb D frag services) s
  let verifyIid ← Asking.lift (iidOf services pairVerifyChar)
  let reviver : Reviver := ⟨keypair, pairing, pairVerifyChar, verifyIid, frag, ephemeral⟩
  let (broadcastKey, s) ← carryOut (pairVerify P reviver) s
  let (_, s) ← carryOut (generateBroadcastKey P services frag) s
  let pairingsIid ← Asking.lift (iidOf services pairingsCharUuid)
  pure ⟨⟨reviver, pairingsCharUuid, pairingsIid, frag⟩, { s with tid := 0, since := s.generation },
    database, broadcastKey, initialGsn⟩

def pair (setupCode : String) (a : Bytes) (ephemeral : Arr 32) : LinkM (Paired D) := do
  let (pairing, s) ← setUp P keypair setupCode a
  let accessory ← verifyAndBuild P D keypair pairing ephemeral 0 s
  pure ⟨accessory, pairing, accessory.broadcastState⟩

end BleController
end HapRust.Ble
