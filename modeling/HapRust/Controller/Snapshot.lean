import HapRust.Controller.Calls

/-! The identifiers that `paired` reports are kept apart from the store: each call
changes the one and then the other. One call is in progress at a time; the store
answers it or fails, and the task of a sleepy watch may persist what it has seen
at any point. -/

namespace HapRust.Controller
open Lib Crypto Transport Pairing Ble

def storedIds (s : Store) : List String := s.accessories.values.map StoredAccessory.id

def answered (s : Store) (x : ControllerAnswer) : ControllerCall → Option Store
  | .loadPairings =>
    match x.pairings with
    | .ok all => if all = s.accessories.values then some s else none
    | .error _ => some s
  | .deletePairing id =>
    match x.deleted with
    | .ok () => some (s.deletePairing id)
    | .error _ => some s
  | .pair (.savePairing a) =>
    match x.pair.saved with
    | .ok () => some (s.savePairing a)
    | .error _ => some s
  | _ => some s

def addId (id : String) (ids : List String) : List String :=
  if id ∈ ids then ids else ids ++ [id]

inductive ServesIds : ControllerCall → ControllerAnswer → List String → List String → Prop
  | loaded {x all ids} (h : x.pairings = .ok all) (hids : all.map StoredAccessory.id = ids) :
    ServesIds .loadPairings x ids ids
  | notLoaded {x e ids} (h : x.pairings = .error e) : ServesIds .loadPairings x ids ids
  | deleted {x id ids} (h : x.deleted = .ok ()) :
    ServesIds (.deletePairing id) x ids (ids.filter (· ≠ id))
  | notDeleted {x id e ids} (h : x.deleted = .error e) : ServesIds (.deletePairing id) x ids ids
  | saved {x a ids} (h : x.pair.saved = .ok ()) :
    ServesIds (.pair (.savePairing a)) x ids (addId a.id ids)
  | notSaved {x a e ids} (h : x.pair.saved = .error e) :
    ServesIds (.pair (.savePairing a)) x ids ids
  | elsewhere {q x ids} (hload : q ≠ .loadPairings) (hdelete : ∀ id, q ≠ .deletePairing id)
    (hsave : ∀ a, q ≠ .pair (.savePairing a)) : ServesIds q x ids ids

theorem storedIds_savePairing (s : Store) (a : StoredAccessory) :
    storedIds (s.savePairing a) = addId a.id (storedIds s) :=
  map_putBy a s.accessories.values

theorem storedIds_deletePairing (s : Store) (id : String) :
    storedIds (s.deletePairing id) = (storedIds s).filter (· ≠ id) := by
  change (s.accessories.values.filter (·.id ≠ id)).map StoredAccessory.id = _
  rw [storedIds, List.filter_map]
  rfl

theorem storedIds_saveBroadcastState (s : Store) (id : String) (b : StoredBroadcast) :
    storedIds (s.saveBroadcastState id b) = storedIds s :=
  map_updateBy id (StoredAccessory.id_setBroadcast b) s.accessories.values

theorem servesIds_of_answered {s t : Store} {x : ControllerAnswer} {q : ControllerCall}
    (h : answered s x q = some t) : ServesIds q x (storedIds s) (storedIds t) := by
  cases q with
  | loadPairings =>
    cases hx : x.pairings with
    | ok all =>
      simp only [answered, hx] at h
      obtain ⟨rfl, rfl⟩ := guarded_eq_some.mp h
      exact .loaded hx rfl
    | error e =>
      simp only [answered, hx] at h
      obtain rfl := Option.some.inj h
      exact .notLoaded hx
  | deletePairing id =>
    cases hx : x.deleted with
    | ok u =>
      simp only [answered, hx] at h
      obtain rfl := Option.some.inj h
      rw [storedIds_deletePairing]
      exact .deleted hx
    | error e =>
      simp only [answered, hx] at h
      obtain rfl := Option.some.inj h
      exact .notDeleted hx
  | pair call =>
    cases call with
    | savePairing a =>
      cases hx : x.pair.saved with
      | ok u =>
        simp only [answered, hx] at h
        obtain rfl := Option.some.inj h
        rw [storedIds_savePairing]
        exact .saved hx
      | error e =>
        simp only [answered, hx] at h
        obtain rfl := Option.some.inj h
        exact .notSaved hx
    | connect | post | connectGatt | link =>
      obtain rfl := Option.some.inj h
      exact .elsewhere (by simp) (by simp) (by simp)
  | scan | discover | request =>
    obtain rfl := Option.some.inj h
    exact .elsewhere (by simp) (by simp) (by simp)

/-! ## What leaves the store alone -/

def PairCall.Quiet : PairCall → Prop
  | savePairing _ => False
  | _ => True

def ControllerCall.Quiet : ControllerCall → Prop
  | deletePairing _ => False
  | pair call => call.Quiet
  | _ => True

theorem ServesIds.of_quiet {q : ControllerCall} {x : ControllerAnswer} {ids ids' : List String}
    (hq : q.Quiet) (h : ServesIds q x ids ids') : ids' = ids := by
  cases h with
  | loaded | notLoaded | notDeleted | notSaved | elsewhere => rfl
  | deleted | saved => exact hq.elim

section
variable {α : Type}

theorem asks_overIp (m : PairingM α) : (overIp m).Asks PairCall.Quiet :=
  Asking.asks_embed _ _ _ (fun _ => trivial) m

theorem asks_overBle (m : LinkM α) : (overBle m).Asks PairCall.Quiet :=
  Asking.asks_embed _ _ _ (fun _ => trivial) m

theorem asks_inPairing {m : PairM α} (h : m.Asks PairCall.Quiet) :
    (inPairing m).Asks ControllerCall.Quiet := by
  have hpair : m.Asks fun q => (ControllerCall.pair q).Quiet := h
  exact (Dialogue.asks_translate hpair).bind fun _ => .ret _

theorem asks_ask (call : ControllerCall) (h : call.Quiet)
    {answer : ControllerAnswer → Except HapError α} :
    (ControllerM.ask call answer).Asks ControllerCall.Quiet :=
  .ask h fun _ => .ret _

end

theorem asks_loadStored (id : String) : (loadStored id).Asks ControllerCall.Quiet :=
  asks_ask .loadPairings trivial

theorem asks_dial (addr : SocketAddr) (id : String) : (dial addr id).Asks ControllerCall.Quiet := by
  refine .ask trivial fun x => ?_
  cases hx : x.pair.connected with
  | ok u => exact .ret _
  | error e =>
    change (rediscover id).Asks ControllerCall.Quiet
    refine Asking.asks_bind (asks_ask .discover trivial) fun found => ?_
    exact Asking.asks_bind (Asking.asks_lift _) fun dev =>
      asks_ask (.pair (.connect dev.addr)) trivial

namespace HapController
variable {P : Primitives} {D : DbParsers} {c : HapController} {stored : StoredAccessory}
  {ephemeral : Arr 32} {id : String}

theorem asks_connectAddr (addr : SocketAddr) : (Controller.connect addr).Asks PairCall.Quiet :=
  .ask trivial fun _ => .ret _

theorem asks_connectGatt (peripheralId : String) : (connectGatt peripheralId).Asks PairCall.Quiet :=
  .ask trivial fun _ => .ret _

theorem asks_pairIp {accessory : DiscoveredAccessory} {setupCode : String} {draws : Draws} :
    (c.pairIp P D accessory setupCode draws).Asks PairCall.Quiet := by
  refine Asking.asks_bind (Asking.asks_lift _) fun normalized => ?_
  refine Asking.asks_bind (asks_connectAddr _) fun _ => ?_
  exact Asking.asks_bind (asks_overIp _) fun r => Asking.asks_pure _

theorem asks_pairBle {accessory : DiscoveredBleAccessory} {setupCode : String} {draws : Draws} :
    (c.pairBle P D accessory setupCode draws).Asks PairCall.Quiet := by
  refine Asking.asks_bind (Asking.asks_lift _) fun deviceId => ?_
  refine Asking.asks_bind (asks_connectGatt _) fun _ => ?_
  exact Asking.asks_bind (asks_overBle _) fun _ => Asking.asks_pure _

theorem asks_connectSession : (c.connectSession P stored ephemeral).Asks ControllerCall.Quiet := by
  unfold connectSession
  cases stored.transport with
  | ble deviceId broadcast => exact Asking.asks_lift _
  | ip addr =>
    exact Asking.asks_bind (asks_dial _ _) fun _ => asks_inPairing (asks_overIp _)

theorem asks_connectStored : (c.connectStored P D stored ephemeral).Asks ControllerCall.Quiet := by
  unfold connectStored
  cases stored.transport with
  | ip addr => exact Asking.asks_bind asks_connectSession fun _ => Asking.asks_pure _
  | ble deviceId broadcast =>
    refine Asking.asks_bind (asks_ask .scan trivial) fun scanned => asks_inPairing ?_
    refine Asking.asks_bind (Asking.asks_lift _) fun found => ?_
    refine Asking.asks_bind (asks_connectGatt _) fun _ => ?_
    exact Asking.asks_bind (asks_overBle _) fun _ => Asking.asks_pure _

theorem asks_connect : (c.connect P D id ephemeral).Asks ControllerCall.Quiet :=
  Asking.asks_bind (asks_loadStored id) fun _ => asks_connectStored

theorem asks_removeRemote : (c.removeRemote P D stored ephemeral).Asks ControllerCall.Quiet := by
  unfold removeRemote
  cases stored.transport with
  | ip addr =>
    refine Asking.asks_bind asks_connectSession fun _ => ?_
    exact Asking.asks_bind (asks_ask (.request _) trivial) fun reply => Asking.asks_lift _
  | ble deviceId broadcast =>
    refine Asking.asks_bind asks_connect fun handle => ?_
    cases handle with
    | ip session => exact Asking.asks_lift _
    | ble b => exact asks_inPairing (asks_overBle _)

/-! ## What a call leaves -/

variable {α β : Type} {ids : List String}

def Agrees (d : Dialogue ControllerCall ControllerAnswer (Except CallError α × List String))
    (ids : List String) : Prop :=
  d.Ensures ServesIds (fun r stored => r.2 = stored) ids

theorem agrees_endWith {m : ControllerM β}
    {f : Except CallError β → Dialogue ControllerCall ControllerAnswer (Except CallError α × List String)}
    (hm : m.Asks ControllerCall.Quiet) (hf : ∀ r, Agrees (f r) ids) :
    Agrees (m.endWith f) ids := by
  refine (Dialogue.ensures_of_asks ServesIds.of_quiet hm ids).bind ?_
  rintro r _ rfl
  exact hf r

theorem agrees_delete (h : c.cachedIds = ids) :
    Agrees ((deletePairing id).endWith (c.retain (· == id))) ids := by
  have hask : (deletePairing id).endWith (c.retain (· == id)) =
      .ask (.deletePairing id) fun x =>
        c.retain (· == id) (mapErr .hap (mapErr .pairing x.deleted)) := rfl
  rw [hask]
  refine .ask fun x t hserve => ?_
  cases hserve with
  | deleted hx =>
    have hfilter : c.cachedIds.filter (fun i => !(i == id)) = ids.filter (· ≠ id) := by
      rw [h]
      congr 1
      funext i
      rw [Bool.eq_iff_iff]
      simp
    rw [hx]
    exact .ret hfilter
  | notDeleted hx =>
    rw [hx]
    exact .ret h
  | elsewhere _ hdelete => exact absurd rfl (hdelete id)

theorem agrees_removeStored (h : c.cachedIds = ids) :
    Agrees (c.removeStored P D stored ephemeral) ids := by
  have hsplit : c.removeStored P D stored ephemeral =
      (c.removeRemote P D stored ephemeral).endWith fun removed =>
        Asking.endWith (Asking.andThen (fun _ => deletePairing stored.id) removed)
          (c.retain (· == stored.id)) := Dialogue.bind_assoc _ _ _
  rw [hsplit]
  refine agrees_endWith asks_removeRemote fun removed => ?_
  cases removed with
  | error e => exact .ret h
  | ok u => exact agrees_delete h

/-! ## Looking an accessory up -/

structure LookedUp (id : String) (ids : List String) (r : Except CallError StoredAccessory)
    (stored : List String) : Prop where
  same : stored = ids
  found : ∀ a, r = .ok a → a.id ∈ ids
  unknown : ∀ k, r = .error (.hap (.unknownAccessory k)) →
    ∀ i ∈ ids, eqIgnoreAsciiCase i id = false

theorem mem_of_findStored {all : List StoredAccessory} {a : StoredAccessory}
    (h : findStored all id = .ok a) : a ∈ all := by
  unfold findStored at h
  split at h
  · next b hb =>
    obtain rfl := Except.ok.inj h
    exact List.mem_of_find?_eq_some hb
  · obtain ⟨deviceId, -, hfind⟩ := Option.bind_eq_some_iff.mp (okOr_eq_ok.mp h)
    exact List.mem_of_find?_eq_some hfind

theorem not_mem_of_findStored {all : List StoredAccessory} {e : HapError}
    (h : findStored all id = .error e) : ∀ a ∈ all, eqIgnoreAsciiCase a.id id = false := by
  unfold findStored at h
  split at h
  · cases h
  · next hnone =>
    intro a ha
    simpa using List.find?_eq_none.mp hnone a ha

theorem lookedUp_findStored {all : List StoredAccessory} (hids : all.map StoredAccessory.id = ids) :
    LookedUp id ids (mapErr .hap (findStored all id)) ids where
  same := rfl
  found a ha := by
    rw [← hids]
    exact List.mem_map_of_mem (mem_of_findStored (mapErr_eq_ok.mp ha))
  unknown k hk i hi := by
    rw [← hids] at hi
    obtain ⟨a, ha, rfl⟩ := List.mem_map.mp hi
    cases hfind : findStored all id with
    | ok b =>
      rw [hfind] at hk
      cases hk
    | error e => exact not_mem_of_findStored hfind a ha

theorem ensures_loadStored (id : String) (ids : List String) :
    (loadStored id).Ensures ServesIds (LookedUp id ids) ids := by
  refine .ask fun x t hserve => .ret ?_
  change LookedUp id ids (mapErr .hap (mapErr .pairing x.pairings >>= fun all => findStored all id)) t
  cases hserve with
  | loaded hx hids =>
    rw [hx, mapErr_ok, ok_bind]
    exact lookedUp_findStored hids
  | notLoaded hx =>
    rw [hx]
    refine ⟨rfl, ?_, ?_⟩
    · intro a ha
      cases ha
    · intro k hk
      cases hk
  | elsewhere hload => exact absurd rfl hload

theorem agrees_removePairing (h : c.cachedIds = ids) :
    Agrees (c.removePairing P D id ephemeral) ids := by
  refine agrees_endWith (asks_loadStored id) fun found => ?_
  cases found with
  | error e => exact .ret h
  | ok stored => exact agrees_removeStored h

theorem agrees_forgetPairing (h : c.cachedIds = ids) : Agrees (c.forgetPairing id) ids := by
  refine (ensures_loadStored id ids).bind ?_
  rintro found _ ⟨rfl, -, hunknown⟩
  cases found with
  | ok stored => exact agrees_delete h
  | error e =>
    cases e with
    | unsupportedByTransport operation => exact .ret h
    | hap e =>
      cases e with
      | unknownAccessory k =>
        have hkeep : c.cachedIds.filter (fun i => !eqIgnoreAsciiCase i id) = c.cachedIds := by
          rw [List.filter_eq_self, h]
          intro i hi
          rw [hunknown k rfl i hi]
          rfl
        exact .ret (hkeep.trans h)
      | transport | pairing | ble | invalidSetupCode => exact .ret h

theorem agrees_connect (h : c.cachedIds = ids) :
    Agrees ((c.connect P D id ephemeral).endWith fun r => .ret (r, c.cachedIds)) ids :=
  agrees_endWith asks_connect fun _ => .ret h

theorem agrees_saveState (h : c.cachedIds = ids) (handle : AccessoryHandle D) :
    Agrees ((saveState D handle).endWith fun r => .ret (r, c.cachedIds)) ids := by
  have hsame : (saveState D handle).Ensures ServesIds (fun _ stored => stored = ids) ids := by
    cases handle with
    | ip session => exact .ret rfl
    | ble handle =>
      refine (ensures_loadStored _ ids).bind ?_
      rintro found _ ⟨rfl, hfound, -⟩
      cases found with
      | error e => exact .ret rfl
      | ok stored =>
        have hid : (refreshed D stored handle).id = stored.id := by
          unfold refreshed
          split <;> rfl
        refine .ask fun x t hserve => .ret ?_
        cases hserve with
        | saved hx => rw [addId, hid, if_pos (hfound stored rfl)]
        | notSaved hx => rfl
        | elsewhere _ _ hsave => exact absurd rfl (hsave _)
  refine hsame.bind ?_
  rintro r _ rfl
  exact .ret h

theorem agrees_keep (h : c.cachedIds = ids)
    (r : Except HapError (StoredAccessory × AccessoryHandle D)) :
    Agrees (((c.keep D r).translate ControllerCall.pair ControllerAnswer.pair).bind fun r =>
      .ret (mapErr .hap r.1, r.2.cachedIds)) ids := by
  cases r with
  | error e => exact .ret h
  | ok y =>
    refine .ask fun x t hserve => ?_
    change Agrees (.ret (mapErr CallError.hap (c.settle D y.1 y.2 x.pair.saved).1,
      (c.settle D y.1 y.2 x.pair.saved).2.cachedIds)) t
    cases hserve with
    | saved hx =>
      rw [hx]
      refine .ret ?_
      change (c.remember y.1).cachedIds = _
      rw [remember, h]
      rfl
    | notSaved hx =>
      rw [hx]
      exact .ret h
    | elsewhere _ _ hsave => exact absurd rfl (hsave _)

theorem agrees_pairAny (h : c.cachedIds = ids) (d : Discovered) (setupCode : String)
    (draws : Draws) : Agrees (c.pairAny P D d setupCode draws) ids := by
  have hsplit : ∃ m : PairM (StoredAccessory × AccessoryHandle D), m.Asks PairCall.Quiet ∧
      c.pair P D d setupCode draws = m.endWith (c.keep D) := by
    cases d with
    | ip accessory => exact ⟨_, asks_pairIp, rfl⟩
    | ble accessory => exact ⟨_, asks_pairBle, rfl⟩
  obtain ⟨m, hm, hpair⟩ := hsplit
  have hpairing : m.Asks fun q => (ControllerCall.pair q).Quiet := hm
  have hquiet : (Dialogue.translate ControllerCall.pair ControllerAnswer.pair m).Asks
      ControllerCall.Quiet := Dialogue.asks_translate hpairing
  have htranslate := Dialogue.translate_bind ControllerCall.pair ControllerAnswer.pair m (c.keep D)
  rw [pairAny, hpair, Asking.endWith, htranslate, Dialogue.bind_assoc]
  refine (Dialogue.ensures_of_asks ServesIds.of_quiet hquiet ids).bind ?_
  rintro r _ rfl
  exact agrees_keep h r

def paired (c : HapController) : List String := c.cachedIds

def new (store : Store) (generated : ControllerKeypair) : HapController :=
  match store.controller with
  | some keypair => ⟨keypair, store, storedIds store⟩
  | none => ⟨generated, store.saveController generated, storedIds store⟩

end HapController

/-! ## Whole runs -/

structure ControllerRun where
  controller : HapController
  call : Option (Dialogue ControllerCall ControllerAnswer (List String))

inductive ControllerAction (D : DbParsers) where
  | pair (accessory : Discovered) (setupCode : String) (draws : Draws)
  | connect (accessoryId : String) (ephemeral : Arr 32)
  | removePairing (accessoryId : String) (ephemeral : Arr 32)
  | forgetPairing (accessoryId : String)
  | saveState (handle : AccessoryHandle D)
  | answer (x : ControllerAnswer)
  | returns
  | persist (id : String) (broadcast : StoredBroadcast) (done : Bool)

namespace ControllerRun
variable (P : Primitives) (D : DbParsers)

def new (store : Store) (generated : ControllerKeypair) : ControllerRun :=
  ⟨.new store generated, none⟩

def begin {α : Type} (s : ControllerRun)
    (call : Dialogue ControllerCall ControllerAnswer (Except CallError α × List String)) :
    Option ControllerRun :=
  match s.call with
  | none => some { s with call := some (call.bind fun r => .ret r.2) }
  | some _ => none

def withStore (s : ControllerRun) (store : Store) : ControllerRun :=
  { s with controller := { s.controller with store := store } }

def answer (s : ControllerRun) (x : ControllerAnswer) : Option ControllerRun :=
  match s.call with
  | some (.ask q next) => do
    let store ← answered s.controller.store x q
    return { s.withStore store with call := some (next x) }
  | _ => none

def finish (s : ControllerRun) : Option ControllerRun :=
  match s.call with
  | some (.ret ids) =>
    some { s with controller := { s.controller with cachedIds := ids }, call := none }
  | _ => none

def step (s : ControllerRun) : ControllerAction D → Option ControllerRun
  | .pair accessory setupCode draws => s.begin (s.controller.pairAny P D accessory setupCode draws)
  | .connect id ephemeral => s.begin
      ((s.controller.connect P D id ephemeral).endWith fun r => .ret (r, s.controller.cachedIds))
  | .removePairing id ephemeral => s.begin (s.controller.removePairing P D id ephemeral)
  | .forgetPairing id => s.begin (s.controller.forgetPairing id)
  | .saveState handle => s.begin
      ((HapController.saveState D handle).endWith fun r => .ret (r, s.controller.cachedIds))
  | .answer x => s.answer x
  | .returns => s.finish
  | .persist id broadcast done =>
    some (if done then s.withStore (s.controller.store.saveBroadcastState id broadcast) else s)

def Settles (reported stored : List String) :
    Option (Dialogue ControllerCall ControllerAnswer (List String)) → Prop
  | none => reported = stored
  | some d => d.Ensures ServesIds (fun reported stored => reported = stored) stored

def Inv (s : ControllerRun) : Prop :=
  Settles s.controller.paired (storedIds s.controller.store) s.call

variable {P D} {s t : ControllerRun}

theorem inv_begin {α : Type}
    {call : Dialogue ControllerCall ControllerAnswer (Except CallError α × List String)}
    (hcall : s.controller.cachedIds = storedIds s.controller.store →
      HapController.Agrees call (storedIds s.controller.store)) (h : s.Inv)
    (hstep : s.begin call = some t) : t.Inv := by
  unfold begin at hstep
  cases hidle : s.call with
  | some d =>
    rw [hidle] at hstep
    cases hstep
  | none =>
    rw [Inv, hidle] at h
    rw [hidle] at hstep
    obtain rfl := Option.some.inj hstep
    exact (hcall h).bind fun r stored hr => .ret hr

theorem inv_answer {x : ControllerAnswer} (h : s.Inv) (hstep : s.answer x = some t) : t.Inv := by
  unfold answer at hstep
  split at hstep
  · next q next hcall =>
    obtain ⟨store, hstore, hstep⟩ := Option.bind_eq_some_iff.mp hstep
    obtain rfl := Option.some.inj hstep
    rw [Inv, hcall] at h
    cases h with
    | ask hnext => exact hnext x _ (servesIds_of_answered hstore)
  · cases hstep

theorem inv_finish (h : s.Inv) (hstep : s.finish = some t) : t.Inv := by
  unfold finish at hstep
  split at hstep
  · next ids hcall =>
    obtain rfl := Option.some.inj hstep
    rw [Inv, hcall] at h
    cases h with
    | ret hids => exact hids
  · cases hstep

theorem inv_persist {id : String} {b : StoredBroadcast} {done : Bool} (h : s.Inv)
    (hstep : s.step P D (.persist id b done) = some t) : t.Inv := by
  obtain rfl := Option.some.inj hstep
  cases done with
  | false => exact h
  | true =>
    change Settles s.controller.paired
      (storedIds (s.controller.store.saveBroadcastState id b)) s.call
    rw [storedIds_saveBroadcastState]
    exact h

theorem inv_step {a : ControllerAction D} (h : s.Inv) (hstep : s.step P D a = some t) : t.Inv := by
  cases a with
  | pair accessory setupCode draws =>
    exact inv_begin (fun hids => HapController.agrees_pairAny hids accessory setupCode draws) h hstep
  | connect id ephemeral => exact inv_begin HapController.agrees_connect h hstep
  | removePairing id ephemeral => exact inv_begin HapController.agrees_removePairing h hstep
  | forgetPairing id => exact inv_begin HapController.agrees_forgetPairing h hstep
  | saveState handle =>
    exact inv_begin (fun hids => HapController.agrees_saveState hids handle) h hstep
  | answer x => exact inv_answer h hstep
  | returns => exact inv_finish h hstep
  | persist id b done => exact inv_persist h hstep

theorem inv_new (store : Store) (generated : ControllerKeypair) : (new store generated).Inv := by
  change (HapController.new store generated).paired = storedIds (HapController.new store generated).store
  unfold HapController.new
  split <;> rfl

/-- Whatever calls are made one after the other, whatever comes of each of their steps, and
whatever sleepy watches persist meanwhile: between calls, `paired` reports the identifiers of
the store, in its order. -/
theorem paired_eq_storedIds (P : Primitives) (D : DbParsers) (store : Store)
    (generated : ControllerKeypair) (actions : List (ControllerAction D)) {s : ControllerRun}
    (h : steps (step P D) (new store generated) actions = some s) (hidle : s.call = none) :
    s.controller.paired = storedIds s.controller.store := by
  have hinv := steps_invariant inv_step actions (inv_new store generated) h
  rw [Inv, hidle] at hinv
  exact hinv

def plainAnswer (all : List StoredAccessory) : ControllerAnswer :=
  ⟨.ok all, .ok (), .ok [], .ok [], .ok [], HapController.fine⟩

def lampStore : Store := ⟨none, HapController.storedAs "lamp"⟩

def forgetTwice : List (ControllerAction HapController.plainParsers) :=
  let loaded := plainAnswer lampStore.accessories.values
  [.forgetPairing "LAMP", .answer loaded,
    .answer { loaded with deleted := .error (.store "read-only file system") }, .returns,
    .forgetPairing "LAMP", .answer loaded, .persist "lamp" HapController.oldKey true,
    .answer loaded, .returns]

theorem paired_eq_storedIds_forgotten :
    ∃ s, steps (step plainPrimitives HapController.plainParsers)
        (new lampStore ⟨"controller", constArr 32 7⟩) forgetTwice = some s ∧ s.call = none ∧
      s.controller.paired = [] ∧ s.controller.paired = storedIds s.controller.store := by
  refine exists_of_view (fun s => (s.controller.paired, s.call.isNone)) ([], true)
    (by decide +kernel) ?_
  intro s hs hstate
  obtain ⟨hpaired, hidle⟩ := Prod.mk.inj hstate
  have hcall : s.call = none := Option.isNone_iff_eq_none.mp hidle
  exact ⟨hcall, hpaired, paired_eq_storedIds _ _ _ _ _ hs hcall⟩

end ControllerRun
end HapRust.Controller
