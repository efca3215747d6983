import HapRust.Ble.Controller
import HapRust.Crypto.PairVerifyRun
import HapRust.Pairing.Document
import HapRust.Pairing.Setup

/-! Pairing a discovered accessory. The controller runs Pair Setup and Pair Verify
over the accessory's transport and saves the pairing last of all. -/

namespace HapRust.Controller
open Lib Tlv8 Crypto Transport Pairing Ble

inductive HapError where
  | transport (e : TransportError)
  | pairing (e : PairingError)
  | ble (e : BleError)
  | unknownAccessory (id : String)
  | invalidSetupCode
  deriving DecidableEq

structure DiscoveredAccessory where
  id : String
  addr : SocketAddr
  deriving DecidableEq

structure DiscoveredBleAccessory where
  peripheralId : String
  deviceId : String
  deriving DecidableEq

inductive Discovered where
  | ip (accessory : DiscoveredAccessory)
  | ble (accessory : DiscoveredBleAccessory)
  deriving DecidableEq

def Discovered.id : Discovered → String
  | ip accessory => accessory.id
  | ble accessory => accessory.deviceId

def normalizeSetupCode (code : String) : Except HapError String :=
  let digits := code.toList.filter Char.isDigit
  if digits.length = 8 then .ok (String.ofList digits) else .error .invalidSetupCode

inductive PairCall where
  | connect (addr : SocketAddr)
  | post (post : Post)
  | connectGatt (peripheralId : String)
  | link (call : LinkCall)
  | savePairing (stored : StoredAccessory)

/-- What each call would be answered at this point: by the network, the accessory
and the store. A store that reports an error has kept what it had. -/
structure PairAnswer where
  connected : Except TransportError Unit
  response : Except TransportError Bytes
  gattConnected : Except BleError Unit
  link : LinkAnswer
  saved : Except PairingError Unit

abbrev PairM : Type → Type := Asking PairCall PairAnswer HapError

structure Draws where
  a : Bytes
  ephemeral : Arr 32

inductive AccessoryHandle (D : DbParsers) where
  | ip (session : SessionKeys)
  | ble (accessory : BleConnected D)

structure HapController where
  keypair : ControllerKeypair
  store : Store
  cachedIds : List String

def connect (addr : SocketAddr) : PairM Unit :=
  Dialogue.ask (.connect addr) fun x => Dialogue.ret (mapErr .transport x.connected)

def connectGatt (peripheralId : String) : PairM Unit :=
  Dialogue.ask (.connectGatt peripheralId) fun x => Dialogue.ret (mapErr .ble x.gattConnected)

def overIp {α : Type} : PairingM α → PairM α := Asking.embed .post (·.response) .pairing

def overBle {α : Type} : LinkM α → PairM α := Asking.embed .link (·.link) .ble

namespace HapController
variable (P : Primitives) (D : DbParsers) (c : HapController)

def remember (stored : StoredAccessory) : HapController :=
  { c with
    store := c.store.savePairing stored
    cachedIds := if stored.id ∈ c.cachedIds then c.cachedIds else c.cachedIds ++ [stored.id] }

def settle (stored : StoredAccessory) (handle : AccessoryHandle D) :
    Except PairingError Unit → Except HapError (AccessoryHandle D) × HapController
  | .error e => (.error (.pairing e), c)
  | .ok () => (.ok handle, c.remember stored)

def keep : Except HapError (StoredAccessory × AccessoryHandle D) →
    Dialogue PairCall PairAnswer (Except HapError (AccessoryHandle D) × HapController)
  | .error e => .ret (.error e, c)
  | .ok (stored, handle) =>
    .ask (.savePairing stored) fun x => .ret (c.settle D stored handle x.saved)

def pairIp (accessory : DiscoveredAccessory) (setupCode : String) (draws : Draws) :
    PairM (StoredAccessory × AccessoryHandle D) := do
  let normalized ← Asking.lift (normalizeSetupCode setupCode)
  connect accessory.addr
  let (pairing, session) ← overIp (Pairing.pair P c.keypair normalized draws.a draws.ephemeral)
  pure (⟨pairing, .ip accessory.addr⟩, .ip session)

def pairBle (accessory : DiscoveredBleAccessory) (setupCode : String) (draws : Draws) :
    PairM (StoredAccessory × AccessoryHandle D) := do
  let deviceId ← Asking.lift
    (okOr (parseDeviceId accessory.deviceId) (.unknownAccessory accessory.deviceId))
  connectGatt accessory.peripheralId
  let paired ← overBle (BleController.pair P D c.keypair setupCode draws.a draws.ephemeral)
  pure (⟨paired.pairing, .ble deviceId (some ⟨paired.broadcast.key, paired.broadcast.gsn⟩)⟩,
    .ble paired.accessory)

def pair (accessory : Discovered) (setupCode : String) (draws : Draws) :
    Dialogue PairCall PairAnswer (Except HapError (AccessoryHandle D) × HapController) :=
  match accessory with
  | .ip accessory => (c.pairIp P D accessory setupCode draws).endWith (c.keep D)
  | .ble accessory => (c.pairBle P D accessory setupCode draws).endWith (c.keep D)

/-! ## Before and after the accessory's M6 -/

inductive Progress where
  | ip (addr : SocketAddr) (pairing : AccessoryPairing)
  | ble (deviceId : Arr 6) (pairing : AccessoryPairing) (s : BleState)
  deriving DecidableEq

def Progress.pairing : Progress → AccessoryPairing
  | ip _ pairing => pairing
  | ble _ pairing _ => pairing

def setUp (setupCode : String) (draws : Draws) : Discovered → PairM Progress
  | .ip accessory => do
    let normalized ← Asking.lift (normalizeSetupCode setupCode)
    connect accessory.addr
    let pairing ← overIp (runPairSetup P c.keypair normalized draws.a)
    pure (.ip accessory.addr pairing)
  | .ble accessory => do
    let deviceId ← Asking.lift
      (okOr (parseDeviceId accessory.deviceId) (.unknownAccessory accessory.deviceId))
    connectGatt accessory.peripheralId
    let (pairing, s) ← overBle (BleController.setUp P c.keypair setupCode draws.a)
    pure (.ble deviceId pairing s)

def secure (draws : Draws) : Progress → PairM (StoredAccessory × AccessoryHandle D)
  | .ip addr pairing => do
    let session ← overIp (runPairVerify P c.keypair pairing draws.ephemeral)
    pure (⟨pairing, .ip addr⟩, .ip session)
  | .ble deviceId pairing s => do
    let accessory ← overBle (BleController.verifyAndBuild P D c.keypair pairing draws.ephemeral 0 s)
    let broadcast := accessory.broadcastState
    pure (⟨pairing, .ble deviceId (some ⟨broadcast.key, broadcast.gsn⟩)⟩, .ble accessory)

theorem pair_eq (d : Discovered) (setupCode : String) (draws : Draws) :
    c.pair P D d setupCode draws =
      (c.setUp P setupCode draws d >>= c.secure P D draws).endWith (c.keep D) := by
  cases d with
  | ip accessory =>
    simp only [pair, pairIp, setUp, secure, Pairing.pair, overIp, Asking.embed_bind,
      Asking.embed_pure, bind_assoc, pure_bind]
  | ble accessory =>
    simp only [pair, pairBle, setUp, secure, BleController.pair, overBle, Asking.embed_bind,
      Asking.embed_pure, bind_assoc, pure_bind]

/-- Pair Verify (and over BLE the sweep) succeeds with `y`, and the store accepts its record. -/
def Concludes (draws : Draws) (x : Progress) (rest : List PairAnswer)
    (y : StoredAccessory × AccessoryHandle D) : Prop :=
  ∃ mid last, rest = mid ++ [last] ∧ (c.secure P D draws x).outcome mid = some (.ok y) ∧
    last.saved = .ok ()

variable {P D c} {d : Discovered} {setupCode : String} {draws : Draws} {x : Progress}
  {past rest answers : List PairAnswer} {y : StoredAccessory × AccessoryHandle D}
  {r : Except HapError (AccessoryHandle D) × HapController}

theorem outcome_after_setUp (hM6 : (c.setUp P setupCode draws d).outcome past = some (.ok x))
    (rest : List PairAnswer) :
    (c.pair P D d setupCode draws).outcome (past ++ rest) =
      ((c.secure P D draws x).endWith (c.keep D)).outcome rest := by
  rw [pair_eq]
  exact Asking.outcome_bind_endWith hM6 _ _ rest

theorem setUp_ip_congr {c c' : HapController} (hkeypair : c.keypair = c'.keypair)
    {accessory accessory' : DiscoveredAccessory} (haddr : accessory.addr = accessory'.addr) :
    c.setUp P setupCode draws (.ip accessory) = c'.setUp P setupCode draws (.ip accessory') := by
  simp only [setUp, hkeypair, haddr]

theorem secure_pairing (h : (c.secure P D draws x).outcome answers = some (.ok y)) :
    y.1.pairing = x.pairing := by
  cases x with
  | ip addr pairing =>
    rcases Asking.outcome_bind_cases h with ⟨e, -, herr⟩ | ⟨ys, zs, session, -, -, hzs⟩
    · cases herr
    · rw [Except.ok.inj (Asking.outcome_pure hzs)]
      rfl
  | ble deviceId pairing s =>
    rcases Asking.outcome_bind_cases h with ⟨e, -, herr⟩ | ⟨ys, zs, accessory, -, -, hzs⟩
    · cases herr
    · rw [Except.ok.inj (Asking.outcome_pure hzs)]
      rfl

theorem keep_cases {x : Except HapError (StoredAccessory × AccessoryHandle D)}
    (h : (c.keep D x).outcome rest = some r) :
    (∃ e, r = (.error e, c)) ∨
    ∃ y last, x = .ok y ∧ rest = [last] ∧ last.saved = .ok () ∧ r = (.ok y.2, c.remember y.1) := by
  cases x with
  | error e => exact .inl ⟨e, (Dialogue.outcome_ret h).symm⟩
  | ok y =>
    cases rest with
    | nil => cases h
    | cons last rest =>
      obtain ⟨rfl, rfl⟩ := Dialogue.outcome_ret_nil h
      cases hsaved : last.saved with
      | error e => exact .inl ⟨.pairing e, rfl⟩
      | ok u => exact .inr ⟨y, last, rfl, rfl, hsaved, rfl⟩

theorem outcome_of_concludes (h : Concludes P D c draws x rest y) :
    ((c.secure P D draws x).endWith (c.keep D)).outcome rest =
      some (.ok y.2, c.remember y.1) := by
  obtain ⟨mid, last, rfl, hmid, hsaved⟩ := h
  refine Asking.outcome_endWith.mpr ⟨mid, [last], .ok y, rfl, hmid, ?_⟩
  exact congrArg (fun saved => some (c.settle D y.1 y.2 saved)) hsaved

theorem secure_cases (h : ((c.secure P D draws x).endWith (c.keep D)).outcome rest = some r) :
    (∃ e, r = (.error e, c)) ∨
    ∃ y, Concludes P D c draws x rest y ∧ r = (.ok y.2, c.remember y.1) := by
  obtain ⟨mid, zs, res, rfl, hmid, hzs⟩ := Asking.outcome_endWith.mp h
  rcases keep_cases hzs with herr | ⟨y, last, rfl, rfl, hsaved, hr⟩
  · exact .inl herr
  · exact .inr ⟨y, ⟨mid, last, rfl, hmid, hsaved⟩, hr⟩

theorem pair_cases (h : (c.pair P D d setupCode draws).outcome answers = some r) :
    (∃ e, r = (.error e, c)) ∨
    ∃ past rest x y, answers = past ++ rest ∧
      (c.setUp P setupCode draws d).outcome past = some (.ok x) ∧
      Concludes P D c draws x rest y ∧ r = (.ok y.2, c.remember y.1) := by
  rw [pair_eq] at h
  obtain ⟨ys, zs, res, rfl, hys, hzs⟩ := Asking.outcome_endWith.mp h
  rcases keep_cases hzs with herr | ⟨y, last, rfl, rfl, hsaved, hr⟩
  · exact .inl herr
  · rcases Asking.outcome_bind_cases hys with ⟨e, -, herr⟩ | ⟨past, mid, x, rfl, hpast, hmid⟩
    · cases herr
    · exact .inr ⟨past, mid ++ [last], x, y, by rw [List.append_assoc], hpast,
        ⟨mid, last, rfl, hmid, hsaved⟩, hr⟩

/-! ## What a failure after M6 leaves -/

/-- The store has this pairing under its identifier. -/
def Persists (c : HapController) (pairing : AccessoryPairing) : Prop :=
  ∃ a, c.store.accessories.get? pairing.pairingId = some a ∧ a.pairing = pairing

/-- Once M6 is verified, `pair` succeeds or leaves the pairing in the store exactly if
what is left of it succeeds, or the pairing was there before. -/
theorem pair_keeps_pairing_iff (P : Primitives) (D : DbParsers) (c : HapController)
    (d : Discovered) (setupCode : String) (draws : Draws) {past : List PairAnswer} {x : Progress}
    (hM6 : (c.setUp P setupCode draws d).outcome past = some (.ok x)) {rest : List PairAnswer}
    {r : Except HapError (AccessoryHandle D) × HapController}
    (hr : (c.pair P D d setupCode draws).outcome (past ++ rest) = some r) :
    ((∃ handle, r.1 = .ok handle) ∨ r.2.Persists x.pairing) ↔
      ((∃ y, Concludes P D c draws x rest y) ∨ c.Persists x.pairing) := by
  rw [outcome_after_setUp hM6] at hr
  constructor
  · intro hkept
    rcases secure_cases hr with ⟨e, rfl⟩ | ⟨y, hy, -⟩
    · rcases hkept with ⟨handle, herr⟩ | hkept
      · cases herr
      · exact .inr hkept
    · exact .inl ⟨y, hy⟩
  · rintro (⟨y, hy⟩ | hkept)
    · rw [outcome_of_concludes hy] at hr
      obtain rfl := Option.some.inj hr
      exact .inl ⟨y.2, rfl⟩
    · rcases secure_cases hr with ⟨e, rfl⟩ | ⟨y, -, rfl⟩
      · exact .inr hkept
      · exact .inl ⟨y.2, rfl⟩

/-- Pairing is all or nothing: a run that fails leaves the controller as it was, and one that
succeeds has verified M6 and adds to the store the pairing of M6 and nothing else. -/
theorem pair_all_or_nothing
    (h : (c.pair P D d setupCode draws).outcome answers = some r) :
    (∃ e, r = (.error e, c)) ∨
    ∃ past rest x handle, answers = past ++ rest ∧
      (c.setUp P setupCode draws d).outcome past = some (.ok x) ∧ r.1 = .ok handle ∧
      r.2.Persists x.pairing ∧ r.2.keypair = c.keypair ∧
      ∀ id, id ≠ x.pairing.pairingId →
        r.2.store.accessories.get? id = c.store.accessories.get? id := by
  rcases pair_cases h with herr | ⟨past, rest, x, y, hanswers, hM6, ⟨mid, last, -, hmid, -⟩, rfl⟩
  · exact .inl herr
  · have hpairing := secure_pairing hmid
    refine .inr ⟨past, rest, x, y.2, hanswers, hM6, rfl, ?_, rfl, ?_⟩
    · rw [← hpairing]
      exact ⟨y.1, (OrderedMap.get?_put y.1 y.1.id).trans (if_pos rfl), rfl⟩
    · intro id hid
      rw [← hpairing] at hid
      exact (OrderedMap.get?_put y.1 id).trans (if_neg hid.symm)

/-! A lamp on the network and a sensor in range, both with the identity of
`sampleSetupM6`, and their answers up to M6. -/

def plainParsers : DbParsers := ⟨Unit, Unit, fun _ => .ok (), fun _ => .ok ()⟩

def lampAddr : SocketAddr := ⟨.v4 (constArr 4 10), 8080⟩

def lamp : Discovered := .ip ⟨"ACCESSORY", lampAddr⟩

def sensor : Discovered := .ble ⟨"peripheral", "aa:bb:cc:dd:ee:ff"⟩

def sampleDraws : Draws := ⟨[1], constArr 32 1⟩

def sampleController (stored : OrderedMap StoredAccessory.id) : HapController :=
  ⟨⟨"controller", constArr 32 7⟩, ⟨none, stored⟩, []⟩

def fine : PairAnswer where
  connected := .ok ()
  response := .ok []
  gattConnected := .ok ()
  link := ⟨1000, .ok 1, .ok [], .done 0 []⟩
  saved := .ok ()

def posted (m : Bytes) : PairAnswer := { fine with response := .ok m }

def readBack (m : Bytes) : PairAnswer :=
  let body := Tlv8Writer.push [] Param.value m
  { fine with link.op := .done 0 ([2, 0, 0] ++ leBytes 2 body.length ++ body) }

def lampSetup : List PairAnswer :=
  [fine, posted PairSetupClient.sampleSetupM2, posted PairSetupClient.sampleSetupM4,
    posted PairSetupClient.sampleSetupM6]

def sensorSetup : List PairAnswer :=
  [fine, fine, fine, fine, readBack PairSetupClient.sampleSetupM2, fine,
    readBack PairSetupClient.sampleSetupM4, fine, readBack PairSetupClient.sampleSetupM6]

def lampVerify : List PairAnswer :=
  [posted (PairVerifyClient.sampleM2 (constArr 32 2)), posted [6, 1, 4]]

def lampPairing : AccessoryPairing := ⟨"accessory", constArr 32 9⟩

theorem lampSetup_outcome (stored : OrderedMap StoredAccessory.id) (id : String) :
    ((sampleController stored).setUp plainPrimitives "12345678" sampleDraws
      (.ip ⟨id, lampAddr⟩)).outcome lampSetup = some (.ok (.ip lampAddr lampPairing)) := by
  have hsame : (sampleController stored).setUp plainPrimitives "12345678" sampleDraws
      (.ip ⟨id, lampAddr⟩) = (sampleController .empty).setUp plainPrimitives "12345678" sampleDraws
        lamp := setUp_ip_congr rfl rfl
  rw [hsame]
  decide +kernel

theorem outcome_after_lampSetup (stored : OrderedMap StoredAccessory.id) (id : String)
    (rest : List PairAnswer) :
    ((sampleController stored).pair plainPrimitives plainParsers (.ip ⟨id, lampAddr⟩) "12345678"
        sampleDraws).outcome (lampSetup ++ rest) =
      (((sampleController stored).secure plainPrimitives plainParsers sampleDraws
        (.ip lampAddr lampPairing)).endWith ((sampleController stored).keep plainParsers)).outcome
          rest :=
  outcome_after_setUp (lampSetup_outcome stored id) rest

theorem pair_keeps_pairing_iff_lamp :
    ∃ r, ((sampleController .empty).pair plainPrimitives plainParsers lamp "12345678"
        sampleDraws).outcome (lampSetup ++ (lampVerify ++ [fine])) = some r ∧
      ((∃ handle, r.1 = .ok handle) ∨ r.2.Persists lampPairing) := by
  have hverify : (((sampleController .empty).secure plainPrimitives plainParsers sampleDraws
      (.ip lampAddr lampPairing)).outcome lampVerify).map (·.toOption.isSome) = some true := by
    decide +kernel
  obtain ⟨res, hres, hok⟩ := Option.map_eq_some_iff.mp hverify
  cases res with
  | error e => cases hok
  | ok y =>
    have hy : Concludes plainPrimitives plainParsers (sampleController .empty) sampleDraws
        (.ip lampAddr lampPairing) (lampVerify ++ [fine]) y := ⟨lampVerify, fine, rfl, hres, rfl⟩
    have hr := (outcome_after_lampSetup .empty "ACCESSORY" (lampVerify ++ [fine])).trans
      (outcome_of_concludes hy)
    exact ⟨_, hr, (pair_keeps_pairing_iff _ _ _ _ _ _ (lampSetup_outcome _ _) hr).mpr (.inl ⟨y, hy⟩)⟩

theorem pair_all_or_nothing_lamp :
    ∃ r, ((sampleController .empty).pair plainPrimitives plainParsers lamp "12345678"
        sampleDraws).outcome (lampSetup ++ (lampVerify ++ [fine])) = some r ∧
      ∃ x : Progress, r.2.Persists x.pairing := by
  refine exists_of_view (fun r => r.1.toOption.isSome) true (by decide +kernel) ?_
  intro r hr hok
  rcases pair_all_or_nothing hr with ⟨e, rfl⟩ | ⟨-, -, x, -, -, -, -, hkept, -⟩
  · cases hok
  · exact ⟨x, hkept⟩

theorem not_kept_of_empty {r : Option (Except HapError (AccessoryHandle D) × HapController)}
    (h : r.map (fun r => (r.1.toOption.isSome, r.2.store.accessories.values)) = some (false, [])) :
    ∃ t, r = some t ∧ ∀ pairing, ¬ ((∃ handle, t.1 = .ok handle) ∨ t.2.Persists pairing) := by
  obtain ⟨t, rfl, hlost⟩ := Option.map_eq_some_iff.mp h
  obtain ⟨herr, hempty⟩ := Prod.mk.inj hlost
  refine ⟨t, rfl, ?_⟩
  rintro pairing (⟨handle, hhandle⟩ | ⟨a, ha, -⟩)
  · rw [hhandle] at herr
    cases herr
  · rw [OrderedMap.get?, hempty] at ha
    cases ha

/-- Over IP the connection closes before Pair Verify is answered; over BLE the link is
lost in the sweep. Neither pairing is kept. -/
theorem pairing_lost_after_setup :
    (∃ x r, ((sampleController .empty).setUp plainPrimitives "12345678" sampleDraws lamp).outcome
        lampSetup = some (.ok x) ∧
      ((sampleController .empty).pair plainPrimitives plainParsers lamp "12345678"
        sampleDraws).outcome
          (lampSetup ++ [{ fine with response := .error .connectionClosed }]) = some r ∧
      ¬ ((∃ handle, r.1 = .ok handle) ∨ r.2.Persists x.pairing)) ∧
    ∃ x r, ((sampleController .empty).setUp plainPrimitives "12345678" sampleDraws sensor).outcome
        sensorSetup = some (.ok x) ∧
      ((sampleController .empty).pair plainPrimitives plainParsers sensor "12345678"
        sampleDraws).outcome
          (sensorSetup ++ [fine, { fine with link.services := .error .disconnected }]) = some r ∧
      ¬ ((∃ handle, r.1 = .ok handle) ∨ r.2.Persists x.pairing) := by
  constructor
  · obtain ⟨t, ht, hlost⟩ := not_kept_of_empty (by decide +kernel :
      ((((sampleController .empty).secure plainPrimitives plainParsers sampleDraws
        (.ip lampAddr lampPairing)).endWith ((sampleController .empty).keep plainParsers)).outcome
          [{ fine with response := .error .connectionClosed }]).map
            (fun r => (r.1.toOption.isSome, r.2.store.accessories.values)) = some (false, []))
    exact ⟨_, t, lampSetup_outcome _ _, (outcome_after_lampSetup _ _ _).trans ht, hlost _⟩
  · have hM6 : (((sampleController .empty).setUp plainPrimitives "12345678" sampleDraws
        sensor).outcome sensorSetup).map (·.toOption.isSome) = some true := by decide +kernel
    obtain ⟨res, hres, hok⟩ := Option.map_eq_some_iff.mp hM6
    obtain ⟨t, ht, hlost⟩ := not_kept_of_empty (by decide +kernel :
      (((sampleController .empty).pair plainPrimitives plainParsers sensor "12345678"
        sampleDraws).outcome
          (sensorSetup ++ [fine, { fine with link.services := .error .disconnected }])).map
            (fun r => (r.1.toOption.isSome, r.2.store.accessories.values)) = some (false, []))
    cases res with
    | error e => cases hok
    | ok x => exact ⟨x, t, hres, ht, hlost _⟩

/-! ## What a pairing leaves alone -/

/-- Every pairing whose identifier is not this one, up to case, is as it was. -/
def Spares (before after : Store) (id : String) : Prop :=
  ∀ a, before.accessories.get? a.id = some a → eqIgnoreAsciiCase a.id id = false →
    after.accessories.get? a.id = some a

theorem spares_savePairing_iff (s : Store) (a : StoredAccessory) (id : String) :
    Spares s (s.savePairing a) id ↔ eqIgnoreAsciiCase a.id id = true ∨
      s.accessories.get? a.id = none ∨ s.accessories.get? a.id = some a := by
  have hput : ∀ k, (s.savePairing a).accessories.get? k =
      if a.id = k then some a else s.accessories.get? k := OrderedMap.get?_put a
  constructor
  · intro hspares
    cases hid : eqIgnoreAsciiCase a.id id with
    | true => exact .inl rfl
    | false =>
      cases hget : s.accessories.get? a.id with
      | none => exact .inr (.inl rfl)
      | some b =>
        have hb : b.id = a.id := OrderedMap.key_of_get? hget
        have := hspares b (by rw [hb, hget]) (by rw [hb, hid])
        rw [hput, if_pos hb.symm] at this
        exact .inr (.inr this.symm)
  · intro hcond b hb hid
    rw [hput]
    by_cases heq : a.id = b.id
    · rw [if_pos heq]
      rw [← heq] at hb hid
      rcases hcond with h | h | h
      · rw [hid] at h
        cases h
      · rw [hb] at h
        cases h
      · exact h.symm.trans hb
    · rw [if_neg heq]
      exact hb

/-- A pairing leaves the others alone exactly if, when it is saved, the identifier in
the accessory's M6 is the advertised one, or is new, or its record stays as it was. -/
theorem pair_spares_iff (P : Primitives) (D : DbParsers) (c : HapController) (d : Discovered)
    (setupCode : String) (draws : Draws) {answers : List PairAnswer}
    {r : Except HapError (AccessoryHandle D) × HapController}
    (hr : (c.pair P D d setupCode draws).outcome answers = some r) :
    Spares c.store r.2.store d.id ↔ ∀ past rest x y, answers = past ++ rest →
      (c.setUp P setupCode draws d).outcome past = some (.ok x) →
      Concludes P D c draws x rest y →
      eqIgnoreAsciiCase x.pairing.pairingId d.id = true ∨
        c.store.accessories.get? x.pairing.pairingId = none ∨
        c.store.accessories.get? x.pairing.pairingId = some y.1 := by
  have hid : ∀ {x rest} {y : StoredAccessory × AccessoryHandle D},
      Concludes P D c draws x rest y → y.1.id = x.pairing.pairingId := by
    rintro x rest y ⟨mid, last, -, hmid, -⟩
    exact congrArg AccessoryPairing.pairingId (secure_pairing hmid)
  constructor
  · rintro hspares past rest x y rfl hM6 hy
    rw [outcome_after_setUp hM6, outcome_of_concludes hy] at hr
    obtain rfl := Option.some.inj hr
    rw [← hid hy]
    exact (spares_savePairing_iff c.store y.1 d.id).mp hspares
  · intro hcond
    rcases pair_cases hr with ⟨e, rfl⟩ | ⟨past, rest, x, y, rfl, hM6, hy, rfl⟩
    · intro a ha _
      exact ha
    · have hy' := hcond past rest x y rfl hM6 hy
      rw [← hid hy] at hy'
      exact (spares_savePairing_iff c.store y.1 d.id).mpr hy'

def storedAs (id : String) : OrderedMap StoredAccessory.id :=
  OrderedMap.empty.put ⟨⟨id, constArr 32 5⟩, .ip lampAddr⟩

theorem pair_spares_iff_lamp :
    ∃ r, ((sampleController (storedAs "other")).pair plainPrimitives plainParsers lamp "12345678"
        sampleDraws).outcome (lampSetup ++ (lampVerify ++ [fine])) = some r ∧
      Spares (sampleController (storedAs "other")).store r.2.store lamp.id := by
  obtain ⟨r, hsecure⟩ := Option.isSome_iff_exists.mp (by decide +kernel :
    (((sampleController (storedAs "other")).secure plainPrimitives plainParsers sampleDraws
      (.ip lampAddr lampPairing)).endWith ((sampleController (storedAs "other")).keep
        plainParsers) |>.outcome (lampVerify ++ [fine])).isSome = true)
  have hr := (outcome_after_lampSetup (storedAs "other") "ACCESSORY" _).trans hsecure
  refine ⟨r, hr, (pair_spares_iff _ _ _ _ _ _ hr).mpr ?_⟩
  intro past rest x y hsplit hM6 _
  have hx := Dialogue.outcome_unique hsplit.symm hM6 (lampSetup_outcome _ _)
  obtain rfl := Except.ok.inj hx
  exact .inl (by decide +kernel)

/-- An accessory that is advertised under one identifier gives another one in its M6,
which is that of an accessory paired before. -/
theorem other_pairing_overwritten :
    ∃ r, ((sampleController (storedAs "accessory")).pair plainPrimitives plainParsers
        (.ip ⟨"intruder", lampAddr⟩) "12345678" sampleDraws).outcome
          (lampSetup ++ (lampVerify ++ [fine])) = some r ∧
      r.2.store.accessories.get? "accessory" = some ⟨lampPairing, .ip lampAddr⟩ ∧
      ¬ Spares (sampleController (storedAs "accessory")).store r.2.store "intruder" := by
  have hrun : ((((sampleController (storedAs "accessory")).secure plainPrimitives plainParsers
      sampleDraws (.ip lampAddr lampPairing)).endWith ((sampleController (storedAs "accessory")).keep
        plainParsers)).outcome (lampVerify ++ [fine])).map
          (·.2.store.accessories.get? "accessory") =
      some (some ⟨lampPairing, .ip lampAddr⟩) := by decide +kernel
  obtain ⟨r, hr, hget⟩ := Option.map_eq_some_iff.mp hrun
  refine ⟨r, (outcome_after_lampSetup _ _ _).trans hr, hget, ?_⟩
  intro hspares
  have hkept := hspares ⟨⟨"accessory", constArr 32 5⟩, .ip lampAddr⟩ (by decide +kernel)
    (by decide +kernel)
  have heq := Option.some.inj (hget.symm.trans hkept)
  exact absurd heq (by decide +kernel)

end HapController
end HapRust.Controller
