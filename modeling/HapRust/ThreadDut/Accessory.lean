import HapRust.ThreadDut.Pairing
import HapRust.ThreadDut.Pdu

/-! The reference accessory: its pairing record, the exchanges in progress, its
session and its one characteristic, driven by requests to its four resources. -/

namespace HapRust.ThreadDut
open Lib Tlv8 Crypto

inductive ResponseCode where
  | changed
  | badRequest
  | unauthorized
  | notFound
  | internalServerError
  deriving DecidableEq, Repr

structure ReferenceAccessory where
  pairingId : String
  keypair : ControllerKeypair
  setupCode : Option String
  controller : Option ControllerPairing
  setup : Option SetupInProgress
  verify : Option VerifyInProgress
  session : Option AccessorySession
  isOn : Bool
  subscriptions : List UInt16

abbrev Response := ResponseCode × Bytes

namespace ReferenceAccessory
variable (P : Primitives)

def new (pairingId : String) (signing : Arr 32) (setupCode : Option String) : ReferenceAccessory :=
  ⟨pairingId, ⟨pairingId, signing⟩, setupCode, none, none, none, none, false, []⟩

def badRequest : Response := (.badRequest, [])

def messageState (payload : Bytes) : Option UInt8 :=
  match Tlv8Map.parse payload with
  | .error _ => none
  | .ok map => (map.getU8 TlvType.state).toOption.join

def provisionController (a : ReferenceAccessory) (p : ControllerPairing) : ReferenceAccessory :=
  { a with controller := some p }

def pairSetup (a : ReferenceAccessory) (salt : Bytes) (b : Nat) (payload : Bytes) :
    Response × ReferenceAccessory :=
  match a.setupCode with
  | none => ((.notFound, []), a)
  | some setupCode =>
    match messageState payload with
    | some 1 =>
      match handleSetupM1 P setupCode salt b payload with
      | .ok (m2, progress) => ((.changed, m2), { a with setup := some progress })
      | .error _ => (badRequest, a)
    | some 3 =>
      let taken := { a with setup := none }
      match a.setup with
      | some (.awaitingM3 server) =>
        match handleSetupM3 P server payload with
        | .ok (m4, some sessionKey) =>
          ((.changed, m4), { taken with setup := some (.awaitingM5 sessionKey) })
        | .ok (m4, none) => ((.changed, m4), taken)
        | .error _ => (badRequest, taken)
      | _ => (badRequest, taken)
    | some 5 =>
      let taken := { a with setup := none }
      match a.setup with
      | some (.awaitingM5 sessionKey) =>
        match handleSetupM5 P sessionKey a.keypair a.pairingId payload with
        | .ok (m6, some pairing) => ((.changed, m6), taken.provisionController pairing)
        | .ok (m6, none) => ((.changed, m6), taken)
        | .error _ => (badRequest, taken)
      | _ => (badRequest, taken)
    | _ => (badRequest, a)

def pairVerify (a : ReferenceAccessory) (ephemeralSecret : Arr 32) (payload : Bytes) :
    Response × ReferenceAccessory :=
  match messageState payload with
  | some 1 =>
    match handleM1 P a.keypair a.pairingId ephemeralSecret payload with
    | .ok (m2, progress) => ((.changed, m2), { a with verify := some progress })
    | .error _ => (badRequest, a)
  | some 3 =>
    let taken := { a with verify := none }
    match a.verify, a.controller with
    | some progress, some (cid, cltpk) =>
      match handleM3 P progress cid cltpk payload with
      | .ok (m4, some session) => ((.changed, m4), { taken with session := some session })
      | .ok (m4, none) => ((.changed, m4), taken)
      | .error _ => (badRequest, taken)
    | _, _ => (badRequest, taken)
  | _ => (badRequest, a)

def onIid : UInt16 := 9

def syntheticDatabase : Bytes := (List.range 2000).map fun i => UInt8.ofNat (i % 251)

def handleChar (a : ReferenceAccessory) (req : Request) : Bytes × ReferenceAccessory :=
  if req.opcode = 0x09 then (encodeResponse req.tid 0 syntheticDatabase, a)
  else if req.iid ≠ onIid then (encodeResponse req.tid 4 [], a)
  else if req.opcode = 0x03 then
    (encodeResponse req.tid 0 (valueBody [if a.isOn then 1 else 0]), a)
  else if req.opcode = 0x02 then
    match extractValue req.body with
    | .ok value =>
      (encodeResponse req.tid 0 [], { a with isOn := decide (value.headD 0 ≠ 0) })
    | .error _ => (encodeResponse req.tid 1 [], a)
  else if req.opcode = 0x0B then
    (encodeResponse req.tid 0 [], { a with subscriptions := a.subscriptions.insert req.iid })
  else if req.opcode = 0x0C then
    (encodeResponse req.tid 0 [], { a with subscriptions := a.subscriptions.filter (· ≠ req.iid) })
  else (encodeResponse req.tid 1 [], a)

def handleChars (a : ReferenceAccessory) (reqs : List Request) : Bytes × ReferenceAccessory :=
  reqs.foldl (fun (st : Bytes × ReferenceAccessory) req =>
    let (resp, a') := st.2.handleChar req
    (st.1 ++ resp, a')) ([], a)

def securePdu (a : ReferenceAccessory) (payload : Bytes) : Response × ReferenceAccessory :=
  match a.session with
  | none => ((.unauthorized, []), a)
  | some session =>
    match session.openRequest P payload with
    | .error _ => ((.unauthorized, []), a)
    | .ok (plaintext, session') =>
      match decodeRequests plaintext with
      | .error _ => (badRequest, { a with session := some session' })
      | .ok reqs =>
        let (responses, a') := a.handleChars reqs
        match session'.sealResponse P responses with
        | .ok (sealed, session'') => ((.changed, sealed), { a' with session := some session'' })
        | .error _ => ((.internalServerError, []), { a' with session := some session' })

theorem handleChars_frame (a : ReferenceAccessory) (reqs : List Request) : ∃ isOn subscriptions,
    (a.handleChars reqs).2 = { a with isOn := isOn, subscriptions := subscriptions } := by
  have hchar : ∀ (a : ReferenceAccessory) (req : Request), ∃ isOn subscriptions,
      (a.handleChar req).2 = { a with isOn := isOn, subscriptions := subscriptions } := by
    intro a req
    unfold handleChar
    split_ifs
    all_goals first
      | exact ⟨_, _, rfl⟩
      | cases extractValue req.body <;> exact ⟨_, _, rfl⟩
  have hfold : ∀ (st : Bytes × ReferenceAccessory), ∃ isOn subscriptions,
      (reqs.foldl (fun st req =>
        let (resp, a') := st.2.handleChar req
        (st.1 ++ resp, a')) st).2 =
      { st.2 with isOn := isOn, subscriptions := subscriptions } := by
    induction reqs with
    | nil => exact fun st => ⟨_, _, rfl⟩
    | cons req reqs ih =>
      intro st
      obtain ⟨isOn, subscriptions, h⟩ := hchar st.2 req
      obtain ⟨isOn', subscriptions', h'⟩ := ih (st.1 ++ (st.2.handleChar req).1, (st.2.handleChar req).2)
      exact ⟨isOn', subscriptions', h'.trans (by rw [h])⟩
  exact hfold ([], a)

theorem securePdu_frame (a : ReferenceAccessory) (payload : Bytes) :
    ∃ isOn subscriptions session, (session.isSome → a.session.isSome) ∧
      (a.securePdu P payload).2 =
        { a with isOn := isOn, subscriptions := subscriptions, session := session } := by
  unfold securePdu
  split
  · exact ⟨_, _, _, id, rfl⟩
  · next session hsession =>
    have hsome : a.session.isSome := by rw [hsession]; rfl
    split
    · exact ⟨_, _, _, id, rfl⟩
    · split
      · exact ⟨_, _, _, fun _ => hsome, rfl⟩
      · next reqs _ =>
        obtain ⟨isOn, subscriptions, h⟩ := handleChars_frame a reqs
        dsimp only
        rw [h]
        split
        · exact ⟨isOn, subscriptions, _, fun _ => hsome, rfl⟩
        · exact ⟨isOn, subscriptions, _, fun _ => hsome, rfl⟩

inductive Input where
  | identify
  | pairSetup (salt : Bytes) (b : Nat) (payload : Bytes)
  | pairVerify (ephemeralSecret : Arr 32) (payload : Bytes)
  | secure (payload : Bytes)
  | unknown

def handle (a : ReferenceAccessory) : Input → Response × ReferenceAccessory
  | .identify => ((.changed, []), a)
  | .pairSetup salt b payload => a.pairSetup P salt b payload
  | .pairVerify ephemeralSecret payload => a.pairVerify P ephemeralSecret payload
  | .secure payload => a.securePdu P payload
  | .unknown => ((.notFound, []), a)

def after (a : ReferenceAccessory) (i : Input) : ReferenceAccessory := (a.handle P i).2

end ReferenceAccessory
end HapRust.ThreadDut
