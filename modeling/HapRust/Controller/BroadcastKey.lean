import HapRust.Controller.Pair

/-! The broadcast key of a BLE accessory. Pair Verify derives a new one, and the accessory is
asked, as best as can be, to use it. The handle holds the new key whatever comes of that: it is
the accessory's key unless the accessory has not taken it and goes on with an older one. -/

namespace HapRust.Ble
open Lib Crypto BleM

inductive KeyRequest where
  | accepted
  | rejected (status : UInt8)
  | failed (e : BleError)
  | notAddressable
  deriving DecidableEq

def KeyRequest.ofResult : Except BleError Response → KeyRequest
  | .ok r => if r.status = 0 then accepted else rejected r.status
  | .error e => failed e

def KeyRequest.allows (took : Bool) : KeyRequest → Bool
  | accepted => took
  | rejected _ | notAddressable => !took
  | failed _ => true

structure Logged (D : DbParsers) where
  accessory : BleConnected D
  derived : Arr 32
  request : KeyRequest

namespace BleController
variable (P : Primitives) (D : DbParsers) (keypair : ControllerKeypair)

def connect (pairing : AccessoryPairing) (ephemeral : Arr 32)
    (broadcast : Option BleBroadcastState) : LinkM (BleConnected D) :=
  verifyAndBuild P D keypair pairing ephemeral ((broadcast.map (·.gsn)).getD 0) .fresh

def generateBroadcastKeyLogged (services : List GattService) (frag : Nat) : BleM KeyRequest :=
  match protocolInfoServiceIid services with
  | some serviceIid => do
    let result ← resultOf (requestSecure P serviceSignatureChar .protocolConfig 1 serviceIid
      generateBroadcastKeyBody frag)
    pure (.ofResult result)
  | none => pure .notAddressable

def verifyAndBuildLogged (pairing : AccessoryPairing) (ephemeral : Arr 32) (initialGsn : UInt16)
    (s : BleState) : LinkM (Logged D) := do
  let frag ← LinkM.ask .maxWrite (.ok ·.maxWrite)
  let services ← LinkM.ask .enumerate (·.services)
  let (database, s) ← carryOut (buildDb D frag services) s
  let verifyIid ← Asking.lift (iidOf services pairVerifyChar)
  let reviver : Reviver := ⟨keypair, pairing, pairVerifyChar, verifyIid, frag, ephemeral⟩
  let (broadcastKey, s) ← carryOut (pairVerify P reviver) s
  let (request, s) ← carryOut (generateBroadcastKeyLogged P services frag) s
  let pairingsIid ← Asking.lift (iidOf services pairingsCharUuid)
  pure ⟨⟨⟨reviver, pairingsCharUuid, pairingsIid, frag⟩,
    { s with tid := 0, since := s.generation }, database, broadcastKey, initialGsn⟩, broadcastKey,
    request⟩

variable {P D keypair}

theorem carryOut_map {α β : Type} (m : BleM α) (f : α → β) (s : BleState) :
    carryOut (m >>= fun a => pure (f a)) s = (fun r => (f r.1, r.2)) <$> carryOut m s := by
  unfold carryOut
  rw [bind_apply, Dialogue.translate_bind]
  refine (Dialogue.bind_assoc _ _ _).trans (Eq.trans ?_ (Dialogue.bind_assoc _ _ _).symm)
  refine congrArg (Dialogue.bind _) ?_
  funext ⟨r, s⟩
  cases r <;> rfl

theorem carryOut_generateBroadcastKey (services : List GattService) (frag : Nat) (s : BleState) :
    carryOut (generateBroadcastKey P services frag) s =
      (fun r => ((), r.2)) <$> carryOut (generateBroadcastKeyLogged P services frag) s := by
  unfold generateBroadcastKey generateBroadcastKeyLogged
  cases protocolInfoServiceIid services with
  | none => rfl
  | some serviceIid =>
    simp only [carryOut_map _ (fun _ => ()), carryOut_map _ KeyRequest.ofResult, Functor.map_map]

theorem verifyAndBuild_eq (pairing : AccessoryPairing) (ephemeral : Arr 32) (initialGsn : UInt16)
    (s : BleState) : verifyAndBuild P D keypair pairing ephemeral initialGsn s =
      Logged.accessory <$> verifyAndBuildLogged P D keypair pairing ephemeral initialGsn s := by
  simp only [verifyAndBuild, verifyAndBuildLogged, carryOut_generateBroadcastKey, map_bind, map_pure,
    bind_map_left]

theorem broadcastKey_of_logged {pairing : AccessoryPairing} {ephemeral : Arr 32}
    {initialGsn : UInt16} {s : BleState} {answers : List LinkAnswer} {l : Logged D}
    (h : (verifyAndBuildLogged P D keypair pairing ephemeral initialGsn s).outcome answers =
      some (.ok l)) : l.accessory.broadcastKey = l.derived := by
  obtain ⟨-, _, frag, -, -, h⟩ := Asking.outcome_bind_ok h
  obtain ⟨-, _, services, -, -, h⟩ := Asking.outcome_bind_ok h
  obtain ⟨-, _, ⟨database, s₁⟩, -, -, h⟩ := Asking.outcome_bind_ok h
  obtain ⟨-, _, verifyIid, -, -, h⟩ := Asking.outcome_bind_ok h
  obtain ⟨-, _, ⟨broadcastKey, s₂⟩, -, -, h⟩ := Asking.outcome_bind_ok h
  obtain ⟨-, _, ⟨request, s₃⟩, -, -, h⟩ := Asking.outcome_bind_ok h
  obtain ⟨-, _, pairingsIid, -, -, h⟩ := Asking.outcome_bind_ok h
  rw [Except.ok.inj (Asking.outcome_pure h)]

end BleController
end HapRust.Ble

namespace HapRust.Controller
open Lib Crypto Pairing Ble

def keyInUse (before : Option (Arr 32)) (derived : Arr 32) (took : Bool) : Option (Arr 32) :=
  if took then some derived else before

def storedKey (record : StoredAccessory) : Option (Arr 32) :=
  match record.transport with
  | .ble _ broadcast => broadcast.map (·.key)
  | .ip _ => none

namespace HapController
variable (P : Primitives) (D : DbParsers) (c : HapController)

def refreshed (stored : StoredAccessory) (handle : BleConnected D) : StoredAccessory :=
  match stored.transport with
  | .ble deviceId _ =>
    { stored with
      transport := .ble deviceId (some ⟨handle.broadcastState.key, handle.broadcastState.gsn⟩) }
  | .ip _ => stored

def findBle (scanned : Except BleError (List DiscoveredBleAccessory)) (deviceId : Arr 6) :
    Except HapError DiscoveredBleAccessory := do
  let found ← mapErr .ble scanned
  okOr (found.find? (eqIgnoreAsciiCase ·.deviceId (formatDeviceId deviceId)))
    (.ble .accessoryNotFound)

def connectBle (scanned : Except BleError (List DiscoveredBleAccessory)) (stored : StoredAccessory)
    (deviceId : Arr 6) (broadcast : Option StoredBroadcast) (ephemeral : Arr 32) :
    PairM (AccessoryHandle D) := do
  let found ← Asking.lift (findBle scanned deviceId)
  connectGatt found.peripheralId
  let state := broadcast.map fun b => ⟨b.key, b.gsn⟩
  let accessory ← overBle (BleController.connect P D c.keypair stored.pairing ephemeral state)
  pure (.ble accessory)

def connectBleLogged (scanned : Except BleError (List DiscoveredBleAccessory))
    (stored : StoredAccessory) (deviceId : Arr 6) (broadcast : Option StoredBroadcast)
    (ephemeral : Arr 32) : PairM (Logged D) := do
  let found ← Asking.lift (findBle scanned deviceId)
  connectGatt found.peripheralId
  overBle (BleController.verifyAndBuildLogged P D c.keypair stored.pairing ephemeral
    ((broadcast.map (·.gsn)).getD 0) .fresh)

def pairBleLogged (accessory : DiscoveredBleAccessory) (setupCode : String) (draws : Draws) :
    PairM (StoredAccessory × Logged D) := do
  let deviceId ← Asking.lift
    (okOr (parseDeviceId accessory.deviceId) (.unknownAccessory accessory.deviceId))
  connectGatt accessory.peripheralId
  let (pairing, s) ← overBle (BleController.setUp P c.keypair setupCode draws.a)
  let l ← overBle (BleController.verifyAndBuildLogged P D c.keypair pairing draws.ephemeral 0 s)
  let broadcast := l.accessory.broadcastState
  pure (⟨pairing, .ble deviceId (some ⟨broadcast.key, broadcast.gsn⟩)⟩, l)

variable {P D c}

theorem connectBle_eq (scanned : Except BleError (List DiscoveredBleAccessory))
    (stored : StoredAccessory) (deviceId : Arr 6) (broadcast : Option StoredBroadcast)
    (ephemeral : Arr 32) :
    c.connectBle P D scanned stored deviceId broadcast ephemeral =
      (fun l => .ble l.accessory) <$>
        c.connectBleLogged P D scanned stored deviceId broadcast ephemeral := by
  simp only [connectBle, connectBleLogged, BleController.connect, BleController.verifyAndBuild_eq,
    overBle, Asking.embed_map, map_bind, Option.map_map, Function.comp_def, bind_map_left]
  simp only [map_eq_pure_bind]

theorem pairBle_eq (accessory : DiscoveredBleAccessory) (setupCode : String) (draws : Draws) :
    c.pairBle P D accessory setupCode draws =
      (fun x => (x.1, .ble x.2.accessory)) <$> c.pairBleLogged P D accessory setupCode draws := by
  simp only [pairBle, pairBleLogged, BleController.pair, BleController.verifyAndBuild_eq, overBle,
    Asking.embed_bind, Asking.embed_pure, map_bind, map_pure, bind_map_left, bind_assoc, pure_bind]

/-- The handle, and the record made from it, have the key in use, if there is one. -/
def Holds (inUse : Option (Arr 32)) (handle : BleConnected D) (record : StoredAccessory) : Prop :=
  ∀ key, inUse = some key → handle.broadcastState.key = key ∧ storedKey record = some key

theorem holds_iff {before : Option (Arr 32)} {derived : Arr 32} {took : Bool}
    {handle : BleConnected D} {record : StoredAccessory} (hhandle : handle.broadcastKey = derived)
    (hrecord : storedKey record = some handle.broadcastKey) :
    Holds (keyInUse before derived took) handle record ↔
      took = true ∨ before = none ∨ before = some derived := by
  subst hhandle
  unfold Holds keyInUse
  cases took with
  | true =>
    refine ⟨fun _ => .inl rfl, fun _ key hkey => ?_⟩
    obtain rfl := Option.some.inj hkey
    exact ⟨rfl, hrecord⟩
  | false =>
    constructor
    · intro h
      cases before with
      | none => exact .inr (.inl rfl)
      | some old => exact .inr (.inr (congrArg some (h old rfl).1.symm))
    · rintro (htook | rfl | rfl) key hkey
      · cases htook
      · cases hkey
      · obtain rfl := Option.some.inj hkey
        exact ⟨rfl, hrecord⟩

theorem broadcastKey_of_overBle {pairing : AccessoryPairing} {ephemeral : Arr 32} {gsn : UInt16}
    {s : BleState} {answers : List PairAnswer} {l : Logged D}
    (h : (overBle (BleController.verifyAndBuildLogged P D c.keypair pairing ephemeral gsn s)).outcome
      answers = some (.ok l)) : l.accessory.broadcastKey = l.derived :=
  BleController.broadcastKey_of_logged (Asking.outcome_embed_ok h)

/-- Over whatever link and with whatever answers a BLE accessory is connected or paired: the key
in the handle, and in the record that is saved from it, is the one the accessory uses if and only
if the accessory took the new key, or had none before, or one that is the same. -/
theorem broadcastKey_inUse_iff (P : Primitives) (D : DbParsers) (c : HapController) :
    (∀ scanned stored deviceId broadcast ephemeral answers handle,
      stored.transport = .ble deviceId broadcast →
      (c.connectBle P D scanned stored deviceId broadcast ephemeral).outcome answers =
        some (.ok (.ble handle)) →
      ∃ l, (c.connectBleLogged P D scanned stored deviceId broadcast ephemeral).outcome answers =
          some (.ok l) ∧ l.accessory = handle ∧
        ∀ took, l.request.allows took = true →
          (Holds (keyInUse (broadcast.map (·.key)) l.derived took) handle (refreshed D stored handle) ↔
            took = true ∨ broadcast = none ∨ broadcast.map (·.key) = some l.derived)) ∧
    ∀ accessory setupCode draws answers handle c',
      (c.pair P D (.ble accessory) setupCode draws).outcome answers = some (.ok (.ble handle), c') →
      ∃ mid last record l, answers = mid ++ [last] ∧
        (c.pairBleLogged P D accessory setupCode draws).outcome mid = some (.ok (record, l)) ∧
        l.accessory = handle ∧ c' = c.remember record ∧
        ∀ took, l.request.allows took = true → ∀ before,
          (Holds (keyInUse before l.derived took) handle record ↔
            took = true ∨ before = none ∨ before = some l.derived) := by
  refine ⟨?_, ?_⟩
  · intro scanned stored deviceId broadcast ephemeral answers handle hstored h
    rw [connectBle_eq] at h
    obtain ⟨l, hl, heq⟩ := Asking.outcome_map_ok.mp h
    obtain rfl := AccessoryHandle.ble.inj heq
    refine ⟨l, hl, rfl, ?_⟩
    intro took _
    obtain ⟨-, _, found, -, -, hrest⟩ := Asking.outcome_bind_ok hl
    obtain ⟨-, _, _, -, -, hlink⟩ := Asking.outcome_bind_ok hrest
    have hrecord : storedKey (refreshed D stored l.accessory) = some l.accessory.broadcastKey := by
      rw [refreshed, hstored]
      rfl
    rw [holds_iff (broadcastKey_of_overBle hlink) hrecord, Option.map_eq_none_iff]
  · intro accessory setupCode draws answers handle c' h
    obtain ⟨mid, rest, res, rfl, hmid, hrest⟩ := Asking.outcome_endWith.mp h
    rcases keep_cases hrest with ⟨e, herr⟩ | ⟨y, last, rfl, rfl, hsaved, hr⟩
    · cases herr
    rw [pairBle_eq] at hmid
    obtain ⟨⟨record, l⟩, hl, rfl⟩ := Asking.outcome_map_ok.mp hmid
    obtain ⟨hhandle, rfl⟩ := Prod.mk.inj hr
    obtain rfl := AccessoryHandle.ble.inj (Except.ok.inj hhandle)
    refine ⟨mid, last, record, l, rfl, hl, rfl, rfl, ?_⟩
    intro took _ before
    obtain ⟨-, _, deviceId, -, -, hl⟩ := Asking.outcome_bind_ok hl
    obtain ⟨-, _, _, -, -, hl⟩ := Asking.outcome_bind_ok hl
    obtain ⟨-, _, ⟨pairing, s⟩, -, -, hl⟩ := Asking.outcome_bind_ok hl
    obtain ⟨_, _, l', -, hlink, hl⟩ := Asking.outcome_bind_ok hl
    obtain ⟨rfl, rfl⟩ := Prod.mk.inj (Except.ok.inj (Asking.outcome_pure hl))
    exact holds_iff (broadcastKey_of_overBle hlink) rfl

/-! A sensor that is paired and has an old broadcast key, and its answers when it is connected. -/

def sensorServices : List GattService :=
  [⟨"pairing", 1, [⟨pairVerifyChar, 2⟩, ⟨pairingsCharUuid, 3⟩]⟩,
    ⟨protocolInfoService, 4, [⟨serviceSignatureChar, 5⟩]⟩]

def oldKey : StoredBroadcast := ⟨constArr 32 5, 3⟩

def sensorId : Arr 6 := ⟨[0xaa, 0xbb, 0xcc, 0xdd, 0xee, 0xff], rfl⟩

def storedSensor : StoredAccessory := ⟨lampPairing, .ble sensorId (some oldKey)⟩

def scannedSensor : Except BleError (List DiscoveredBleAccessory) :=
  .ok [⟨"peripheral", "aa:bb:cc:dd:ee:ff"⟩]

def keyResponse (status : UInt8) : PairAnswer :=
  let keys := PairVerifyClient.sessionKeysOf plainPrimitives
    (PairVerifyClient.sampleClient.secretWith plainPrimitives (constArr 32 2))
  { fine with link.op := .done 0 (keys.readKey.val ++ (counterNonce 0).val ++ [2, 1, status]) }

def sensorConnect (status : UInt8) : List PairAnswer :=
  [fine, fine, { fine with link.services := .ok sensorServices }, fine, readBack [], fine,
    readBack [], fine, readBack (PairVerifyClient.sampleM2 (constArr 32 2)), fine,
    readBack [6, 1, 4], fine, keyResponse status]

def sensorLogged (status : UInt8) : Option (Except HapError (Logged plainParsers)) :=
  ((sampleController .empty).connectBleLogged plainPrimitives plainParsers scannedSensor
    storedSensor sensorId (some oldKey) (constArr 32 1)).outcome (sensorConnect status)

theorem sensorConnect_outcome {status : UInt8} {l : Logged plainParsers}
    (h : sensorLogged status = some (.ok l)) :
    ((sampleController .empty).connectBle plainPrimitives plainParsers scannedSensor storedSensor
      sensorId (some oldKey) (constArr 32 1)).outcome (sensorConnect status) =
        some (.ok (.ble l.accessory)) := by
  rw [connectBle_eq]
  exact Asking.outcome_map_ok.mpr ⟨l, h, rfl⟩

theorem broadcastKey_inUse_iff_accepted :
    ∃ l, sensorLogged 0 = some (.ok l) ∧
      ((sampleController .empty).connectBle plainPrimitives plainParsers scannedSensor storedSensor
        sensorId (some oldKey) (constArr 32 1)).outcome (sensorConnect 0) =
          some (.ok (.ble l.accessory)) ∧ l.request = .accepted ∧
      Holds (keyInUse (some oldKey.key) l.derived true) l.accessory
        (refreshed plainParsers storedSensor l.accessory) := by
  have hrun : (sensorLogged 0).map (fun r => r.toOption.map (·.request)) = some (some .accepted) := by
    decide +kernel
  obtain ⟨res, hres, hrequest⟩ := Option.map_eq_some_iff.mp hrun
  cases res with
  | error e => cases hrequest
  | ok l =>
    have hconnect := sensorConnect_outcome hres
    obtain ⟨l', hl', -, hiff⟩ := (broadcastKey_inUse_iff plainPrimitives plainParsers
      (sampleController .empty)).1 _ _ _ _ _ _ _ rfl hconnect
    obtain rfl := Except.ok.inj (Option.some.inj (hres.symm.trans hl'))
    have haccepted : l.request = .accepted := Option.some.inj hrequest
    exact ⟨l, hres, hconnect, haccepted, (hiff true (by rw [haccepted]; rfl)).mpr (.inl rfl)⟩

/-- The sensor rejects the request, and goes on with the key that it had: neither the handle nor
the record that is saved from it has that. -/
theorem broadcastKey_lost_on_rejection :
    ∃ l, ((sampleController .empty).connectBle plainPrimitives plainParsers scannedSensor
        storedSensor sensorId (some oldKey) (constArr 32 1)).outcome (sensorConnect 6) =
          some (.ok (.ble l.accessory)) ∧
      sensorLogged 6 = some (.ok l) ∧ l.request = .rejected 6 ∧ l.request.allows false = true ∧
      keyInUse (some oldKey.key) l.derived false = some oldKey.key ∧
      l.accessory.broadcastState.key ≠ oldKey.key ∧
      storedKey (refreshed plainParsers storedSensor l.accessory) ≠ some oldKey.key := by
  have hrun : (sensorLogged 6).map (fun r => r.toOption.map
      fun l => (l.request, decide (l.accessory.broadcastState.key = oldKey.key))) =
        some (some (.rejected 6, false)) := by
    decide +kernel
  obtain ⟨res, hres, hstate⟩ := Option.map_eq_some_iff.mp hrun
  cases res with
  | error e => cases hstate
  | ok l =>
    obtain ⟨hrequest, hkey⟩ := Prod.mk.inj (Option.some.inj hstate)
    have hne : l.accessory.broadcastState.key ≠ oldKey.key := of_decide_eq_false hkey
    exact ⟨l, sensorConnect_outcome hres, hres, hrequest, by rw [hrequest]; rfl, rfl, hne,
      fun heq => hne (Option.some.inj heq)⟩

end HapController
end HapRust.Controller
