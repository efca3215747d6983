import HapRust.Controller.BroadcastKey

/-! The calls of the controller on pairings that it has stored. Each one looks its
accessory up by an identifier, and then works with the record that was found. The
calls that borrow the controller mutably return the identifiers that `paired`
reports from then on. -/

namespace HapRust.Controller
open Lib Tlv8 Crypto Transport Pairing Ble

inductive CallError where
  | hap (e : HapError)
  | unsupportedByTransport (operation : String)
  deriving DecidableEq

inductive ControllerCall where
  | loadPairings
  | deletePairing (id : String)
  | scan
  | discover
  | request (post : Post)
  | pair (call : PairCall)

structure ControllerAnswer where
  pairings : Except PairingError (List StoredAccessory)
  deleted : Except PairingError Unit
  scanned : Except BleError (List DiscoveredBleAccessory)
  discovered : Except TransportError (List DiscoveredAccessory)
  response : Except TransportError Bytes
  pair : PairAnswer

abbrev ControllerM : Type → Type := Asking ControllerCall ControllerAnswer CallError

def ControllerM.ask {α : Type} (call : ControllerCall)
    (answer : ControllerAnswer → Except HapError α) : ControllerM α :=
  Dialogue.ask call fun x => Dialogue.ret (mapErr .hap (answer x))

def ControllerM.lift {α : Type} (x : Except HapError α) : ControllerM α :=
  Asking.lift (mapErr .hap x)

def inPairing {α : Type} : PairM α → ControllerM α := Asking.embed .pair (·.pair) .hap

/-! ## Looking an accessory up -/

def hasDevice (deviceId : Arr 6) (a : StoredAccessory) : Bool :=
  match a.transport with
  | .ble id _ => id = deviceId
  | .ip _ => false

def findStored (all : List StoredAccessory) (accessoryId : String) :
    Except HapError StoredAccessory :=
  match all.find? (eqIgnoreAsciiCase ·.id accessoryId) with
  | some found => .ok found
  | none =>
    okOr ((parseDeviceId accessoryId).bind fun deviceId => all.find? (hasDevice deviceId))
      (.unknownAccessory accessoryId)

def loadStored (accessoryId : String) : ControllerM StoredAccessory :=
  ControllerM.ask .loadPairings fun x => do
    let all ← mapErr .pairing x.pairings
    findStored all accessoryId

/-! ## A session with a stored accessory over IP -/

def rediscover (id : String) : ControllerM Unit := do
  let found ← ControllerM.ask .discover fun x => mapErr (.pairing ∘ .transport) x.discovered
  let dev ← ControllerM.lift (okOr (found.find? (·.id = id)) (.pairing (.unknownAccessory id)))
  ControllerM.ask (.pair (.connect dev.addr)) fun x =>
    mapErr (.pairing ∘ .transport) x.pair.connected

def dial (addr : SocketAddr) (id : String) : ControllerM Unit :=
  Dialogue.ask (.pair (.connect addr)) fun x =>
    match x.pair.connected with
    | .ok () => .ret (.ok ())
    | .error _ => rediscover id

def expectM2Ok (body : Bytes) : Except PairingError Unit := do
  let items ← mapErr .tlv8 (Tlv8Reader.parse body)
  match items.find? (·.1 == PairingsTlv.error) with
  | some (_, err) => do
    let code ← okOr err.head? (.malformed "empty error tlv")
    .error (.accessory code)
  | none =>
    ensure ((items.find? (·.1 == PairingsTlv.state)).bind (·.2.head?) = some PairingsTlv.stateM2)
      (.malformed "expected pairings reply state M2")

namespace HapController
variable (P : Primitives) (D : DbParsers) (c : HapController)

def connectSession (stored : StoredAccessory) (ephemeral : Arr 32) : ControllerM SessionKeys :=
  match stored.transport with
  | .ble _ _ => ControllerM.lift (.error (.pairing .wrongTransport))
  | .ip addr => do
    dial addr stored.id
    inPairing (overIp (runPairVerify P c.keypair stored.pairing ephemeral))

def connectStored (stored : StoredAccessory) (ephemeral : Arr 32) :
    ControllerM (AccessoryHandle D) :=
  match stored.transport with
  | .ip _ => do
    let session ← c.connectSession P stored ephemeral
    pure (.ip session)
  | .ble deviceId broadcast => do
    let scanned ← ControllerM.ask .scan fun x => .ok x.scanned
    inPairing (c.connectBle P D scanned stored deviceId broadcast ephemeral)

def connect (accessoryId : String) (ephemeral : Arr 32) : ControllerM (AccessoryHandle D) := do
  let stored ← loadStored accessoryId
  c.connectStored P D stored ephemeral

def removeRemote (stored : StoredAccessory) (ephemeral : Arr 32) : ControllerM Unit :=
  match stored.transport with
  | .ip _ => do
    let _ ← c.connectSession P stored ephemeral
    let reply ← ControllerM.ask (.request ⟨"/pairings", encodeRemovePairing c.keypair.id⟩) fun x =>
      mapErr (.pairing ∘ .transport) x.response
    ControllerM.lift (mapErr .pairing (expectM2Ok reply))
  | .ble _ _ => do
    let handle ← c.connect P D stored.id ephemeral
    match handle with
    | .ip _ => Asking.throw (.unsupportedByTransport "remove_pairing")
    | .ble b => inPairing (overBle do
        let _ ← carryOut (Ble.removePairing P b.accessory c.keypair.id) b.secure
        pure ())

def deletePairing (id : String) : ControllerM Unit :=
  ControllerM.ask (.deletePairing id) fun x => mapErr .pairing x.deleted

def retain (dropped : String → Bool) :
    Except CallError Unit → Dialogue ControllerCall ControllerAnswer (Except CallError Unit × List String)
  | .ok () => .ret (.ok (), c.cachedIds.filter (!dropped ·))
  | .error e => .ret (.error e, c.cachedIds)

def removeStored (stored : StoredAccessory) (ephemeral : Arr 32) :
    Dialogue ControllerCall ControllerAnswer (Except CallError Unit × List String) :=
  (c.removeRemote P D stored ephemeral >>= fun _ => deletePairing stored.id).endWith
    (c.retain (· == stored.id))

def removePairing (accessoryId : String) (ephemeral : Arr 32) :
    Dialogue ControllerCall ControllerAnswer (Except CallError Unit × List String) :=
  (loadStored accessoryId).endWith fun
    | .ok stored => c.removeStored P D stored ephemeral
    | .error e => .ret (.error e, c.cachedIds)

def forgetStored (stored : StoredAccessory) :
    Dialogue ControllerCall ControllerAnswer (Except CallError Unit × List String) :=
  (deletePairing stored.id).endWith (c.retain (· == stored.id))

def forgetPairing (accessoryId : String) :
    Dialogue ControllerCall ControllerAnswer (Except CallError Unit × List String) :=
  (loadStored accessoryId).endWith fun
    | .ok stored => c.forgetStored stored
    | .error (.hap (.unknownAccessory _)) => c.retain (eqIgnoreAsciiCase · accessoryId) (.ok ())
    | .error e => .ret (.error e, c.cachedIds)

def saveState : AccessoryHandle D → ControllerM Unit
  | .ip _ => pure ()
  | .ble handle => do
    let stored ← loadStored handle.accessory.reviver.pairing.pairingId
    ControllerM.ask (.pair (.savePairing (refreshed D stored handle))) fun x =>
      mapErr .pairing x.pair.saved

def pairAny (accessory : Discovered) (setupCode : String) (draws : Draws) :
    Dialogue ControllerCall ControllerAnswer (Except CallError (AccessoryHandle D) × List String) :=
  ((c.pair P D accessory setupCode draws).translate .pair (·.pair)).bind fun r =>
    .ret (mapErr .hap r.1, r.2.cachedIds)

end HapController
end HapRust.Controller
