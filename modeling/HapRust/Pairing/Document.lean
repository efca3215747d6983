import HapRust.Lib.OrderedMap
import HapRust.Pairing.Records

/-! The document of the store file, and the store it stands for: a map from
identifiers to accessories in the order of their insertion, and perhaps the
identity of the controller. Every edit of a document is an operation of the map. -/

namespace HapRust.Pairing
open Lib Crypto

structure Document where
  version : Option UInt32
  controller : Option ControllerRecord
  accessories : List AccessoryRecord
  deriving DecidableEq

namespace Document

def default : Document := ⟨none, none, []⟩

def supported (d : Document) : Bool := d.version = none ∨ d.version = some 1 ∨ d.version = some 2

def loadController (d : Document) : Except PairingError (Option ControllerKeypair) :=
  match d.controller with
  | some r => do
    let k ← controllerFromRecord r
    return some k
  | none => .ok none

def loadPairings (d : Document) : Except PairingError (List StoredAccessory) :=
  d.accessories.mapM accessoryFromRecord

def saveController (k : ControllerKeypair) (d : Document) : Document :=
  { d with controller := some (controllerToRecord k) }

def savePairing (a : StoredAccessory) (d : Document) : Document :=
  { d with accessories := putBy AccessoryRecord.id (accessoryToRecord a) d.accessories }

def deletePairing (id : String) (d : Document) : Document :=
  { d with accessories := d.accessories.filter (·.id ≠ id) }

end Document

def AccessoryRecord.isBle (r : AccessoryRecord) : Bool :=
  match r.transport with
  | some (.ble _ _) => true
  | _ => false

def AccessoryRecord.setBroadcast (b : StoredBroadcast) (r : AccessoryRecord) : AccessoryRecord :=
  match r.transport with
  | some (.ble deviceId _) =>
    { r with transport := some (.ble deviceId (some (broadcastToRecord b))) }
  | _ => r

def Document.saveBroadcastState (id : String) (b : StoredBroadcast) (d : Document) :
    Option Document :=
  match d.accessories.find? (·.id = id) with
  | some r =>
    if r.isBle then
      some { d with accessories := updateBy AccessoryRecord.id id (·.setBroadcast b) d.accessories }
    else none
  | none => none

/-! ## The store -/

structure Store where
  controller : Option ControllerKeypair
  accessories : OrderedMap StoredAccessory.id

def StoredAccessory.setBroadcast (b : StoredBroadcast) (a : StoredAccessory) : StoredAccessory :=
  match a.transport with
  | .ble deviceId _ => { a with transport := .ble deviceId (some b) }
  | .ip _ => a

theorem StoredAccessory.id_setBroadcast (b : StoredBroadcast) (a : StoredAccessory) :
    (a.setBroadcast b).id = a.id := by
  unfold setBroadcast
  split <;> rfl

namespace Store

def empty : Store := ⟨none, .empty⟩

def saveController (k : ControllerKeypair) (s : Store) : Store := { s with controller := some k }

def savePairing (a : StoredAccessory) (s : Store) : Store :=
  { s with accessories := s.accessories.put a }

def deletePairing (id : String) (s : Store) : Store :=
  { s with accessories := s.accessories.remove id }

def saveBroadcastState (id : String) (b : StoredBroadcast) (s : Store) : Store :=
  { s with
    accessories := s.accessories.update id (·.setBroadcast b) (StoredAccessory.id_setBroadcast b) }

end Store

/-! ## What a document stands for -/

structure Document.Represents (d : Document) (s : Store) : Prop where
  version : d.supported = true
  controller : d.loadController = .ok s.controller
  accessories : d.loadPairings = .ok s.accessories.values

namespace Document
variable {d : Document} {s : Store}

theorem Represents.upgrade (h : d.Represents s) : { d with version := some 2 }.Represents s :=
  ⟨rfl, h.controller, h.accessories⟩

def Loads (r : AccessoryRecord) (a : StoredAccessory) : Prop := accessoryFromRecord r = .ok a

theorem loads_id (r : AccessoryRecord) (a : StoredAccessory) (h : Loads r a) : r.id = a.id :=
  accessoryFromRecord_id h

theorem Represents.records (h : d.Represents s) :
    List.Forall₂ Loads d.accessories s.accessories.values :=
  mapM_eq_ok.mp h.accessories

theorem Represents.saveController (h : d.Represents s) (k : ControllerKeypair) :
    (d.saveController k).Represents (s.saveController k) where
  version := h.version
  controller := by
    change (do
      let k ← controllerFromRecord (controllerToRecord k)
      return some k) = _
    rw [controllerFromRecord_toRecord]
    rfl
  accessories := h.accessories

theorem Represents.savePairing (h : d.Represents s) (a : StoredAccessory) :
    (d.savePairing a).Represents (s.savePairing a) where
  version := h.version
  controller := h.controller
  accessories := mapM_eq_ok.mpr <| forall₂_putBy loads_id (accessoryFromRecord_toRecord a) h.records

theorem Represents.deletePairing (h : d.Represents s) (id : String) :
    (d.deletePairing id).Represents (s.deletePairing id) where
  version := h.version
  controller := h.controller
  accessories := mapM_eq_ok.mpr <| forall₂_removeBy loads_id id h.records

theorem loads_setBroadcast {r : AccessoryRecord} {a : StoredAccessory} (h : Loads r a)
    (hr : r.isBle = true) (b : StoredBroadcast) :
    Loads (r.setBroadcast b) (a.setBroadcast b) := by
  obtain ⟨ltpk, hltpk, h⟩ := bind_eq_ok.mp h
  obtain ⟨transport, htransport, h⟩ := bind_eq_ok.mp h
  obtain rfl := Except.ok.inj h
  obtain ⟨id, ltpkHex, record, addr⟩ := r
  match record, hr, htransport with
  | some (.ble deviceId broadcast), _, htransport =>
    obtain ⟨device, hdevice, htransport⟩ := bind_eq_ok.mp htransport
    have hble : ∃ old, transport = .ble device old := by
      cases broadcast with
      | none => exact ⟨none, (Except.ok.inj htransport).symm⟩
      | some r =>
        obtain ⟨old, -, htransport⟩ := bind_eq_ok.mp htransport
        exact ⟨some old, (Except.ok.inj htransport).symm⟩
    obtain ⟨old, rfl⟩ := hble
    refine bind_eq_ok.mpr ⟨ltpk, hltpk, bind_eq_ok.mpr ⟨.ble device (some b), ?_, rfl⟩⟩
    refine bind_eq_ok.mpr ⟨device, hdevice, ?_⟩
    exact bind_eq_ok.mpr ⟨b, broadcastFromRecord_toRecord b, rfl⟩

theorem setBroadcast_of_not_isBle {r : AccessoryRecord} {a : StoredAccessory} (h : Loads r a)
    (hr : r.isBle = false) (b : StoredBroadcast) : a.setBroadcast b = a := by
  obtain ⟨ltpk, -, h⟩ := bind_eq_ok.mp h
  obtain ⟨transport, htransport, h⟩ := bind_eq_ok.mp h
  obtain rfl := Except.ok.inj h
  obtain ⟨id, ltpkHex, record, addr⟩ := r
  match record, addr, hr, htransport with
  | some (.ip _), _, _, htransport =>
    obtain rfl := Except.ok.inj htransport
    rfl
  | none, some _, _, htransport =>
    obtain rfl := Except.ok.inj htransport
    rfl

theorem Represents.saveBroadcastState_some (h : d.Represents s) {id : String} {b : StoredBroadcast}
    {d' : Document} (hd : d.saveBroadcastState id b = some d') :
    d'.Represents (s.saveBroadcastState id b) := by
  unfold Document.saveBroadcastState at hd
  cases hfind : d.accessories.find? (·.id = id) with
  | none =>
    rw [hfind] at hd
    cases hd
  | some r =>
    rw [hfind] at hd
    obtain ⟨hble, hd⟩ := Option.ite_none_right_eq_some.mp hd
    obtain rfl := Option.some.inj hd
    refine ⟨h.version, h.controller, mapM_eq_ok.mpr (forall₂_updateBy loads_id id ?_ h.records)⟩
    intro r' hr' a ha
    obtain rfl := Option.some.inj (hfind.symm.trans hr')
    exact loads_setBroadcast ha hble b

theorem Represents.saveBroadcastState_none (h : d.Represents s) {id : String} {b : StoredBroadcast}
    (hd : d.saveBroadcastState id b = none) : s.saveBroadcastState id b = s := by
  have hself : ∀ a, s.accessories.values.find? (·.id = id) = some a → a.setBroadcast b = a := by
    intro a ha
    have hrel := forall₂_find? loads_id id h.records
    rw [ha] at hrel
    unfold Document.saveBroadcastState at hd
    cases hfind : d.accessories.find? (·.id = id) with
    | none =>
      rw [hfind] at hrel
      cases hrel
    | some r =>
      rw [hfind] at hrel hd
      have hble : r.isBle = false := by
        by_contra hble
        rw [Bool.not_eq_false] at hble
        simp only [hble, if_true, reduceCtorEq] at hd
      cases hrel with
      | some hload => exact setBroadcast_of_not_isBle hload hble b
  obtain ⟨controller, values, nodup⟩ := s
  have hvalues := updateBy_eq_self hself
  simp only [Store.saveBroadcastState, OrderedMap.update, hvalues]

end Document
end HapRust.Pairing
