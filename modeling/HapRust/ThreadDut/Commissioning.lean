import HapRust.Crypto.Handshake
import HapRust.Thread.Accessory
import HapRust.ThreadDut.Server
import HapRust.ThreadDut.SetupAgreement

/-! Pairing over CoAP, from Pair Setup to the connected accessory, with the reference accessory
at the other end. -/

namespace HapRust.Thread
open Lib Crypto

section
variable {m : Type → Type} [Monad m] [MonadExceptOf ThreadError m] (P : Primitives)
  (post : String → Nat → Bytes → m CoapResponse) (keypair : ControllerKeypair)

def pathPairSetup : String := "1"
def pathPairVerify : String := "2"

def exchangeTlv (path : String) (i : Nat) (out : Bytes) : m Bytes := do
  let response ← post path i out
  liftExcept response.changedPayload

def pairSetup (setupCode : String) (a : Bytes) : m AccessoryPairing := do
  let client ← liftExcept (mapErr ThreadError.crypto (PairSetupClient.newWithPrivate setupCode keypair a))
  let (pairing, _) ← setupLoop P (exchangeTlv post pathPairSetup) (throw (.coap ""))
    (fun e => throw (.crypto e)) 3 client
  pure pairing

def pairVerifyWithClient (client : PairVerifyClient) : m (SessionKeys × Arr 32) := do
  let (keys, client) ← verifyLoop P (exchangeTlv post pathPairVerify) (throw (.coap ""))
    (fun e => throw (.crypto e)) 2 client
  let eventKey ← liftExcept (mapErr ThreadError.crypto (client.eventKey P))
  pure (keys, eventKey)

def verifyAndConnect (pairing : AccessoryPairing) (ephemeral : Arr 32) : m CoapSession := do
  let (keys, eventKey) ← pairVerifyWithClient P post (.newWithEphemeral P keypair pairing ephemeral)
  pure (.new keys eventKey)

def pairWithTransport (setupCode : String) (a : Bytes) (ephemeral : Arr 32) :
    m (CoapSession × AccessoryPairing) := do
  let pairing ← pairSetup P post keypair setupCode a
  let session ← verifyAndConnect P post keypair pairing ephemeral
  pure (session, pairing)

end
end HapRust.Thread

namespace HapRust.ThreadDut
open Lib Crypto Thread

namespace ReferenceAccessory
variable (P : Primitives) (draws : String → Nat → Draws)

abbrev PostM : Type → Type := StateT ReferenceAccessory (Except ThreadError)

def answerPost (path : String) (i : Nat) (out : Bytes) : PostM CoapResponse := fun acc =>
  let ((code, body), acc) := acc.handle P (Server.inputOf (draws path i) path out)
  .ok (⟨(code.byte >>> 5, code.byte &&& 0x1f), body⟩, acc)

variable {P draws} {β σ : Type} {path : String} {i fuel : Nat} {out body : Bytes}
  {acc acc' : ReferenceAccessory} {c c' : σ} {stuck : PostM (β × σ)}
  {handle : σ → Bytes → Except CryptoError (Reaction Bytes β) × σ}
  {refuse : CryptoError → PostM (β × σ)}

section
variable (h : acc.handle P (Server.inputOf (draws path i) path out) = ((.changed, body), acc'))
include h

theorem exchangeTlv_answered :
    exchangeTlv (answerPost P draws) path i out acc = .ok (body, acc') := by
  have hchanged : CoapResponse.changedPayload
    ⟨(ResponseCode.changed.byte >>> 5, ResponseCode.changed.byte &&& 0x1f), body⟩ = .ok body := rfl
  simp only [exchangeTlv, answerPost, bind, StateT.bind, h, Except.bind, hchanged, liftExcept]
  rfl

theorem rounds_send {next : Bytes} (hnext : handle c body = (.ok (.send next), c')) :
    rounds stuck (exchangeTlv (answerPost P draws) path) handle refuse (fuel + 1) i c out acc =
      rounds stuck (exchangeTlv (answerPost P draws) path) handle refuse fuel (i + 1) c' next acc' := by
  rw [rounds]
  simp only [bind, StateT.bind, exchangeTlv_answered h, Except.bind, hnext]

theorem rounds_done {b : β} (hnext : handle c body = (.ok (.done b), c')) :
    rounds stuck (exchangeTlv (answerPost P draws) path) handle refuse (fuel + 1) i c out acc =
      .ok ((b, c'), acc') := by
  rw [rounds]
  simp only [bind, StateT.bind, exchangeTlv_answered h, Except.bind, hnext]
  rfl

end

theorem handle_pairSetup (acc : ReferenceAccessory) (d : Draws) (out : Bytes) :
    acc.handle P (Server.inputOf d pathPairSetup out) = acc.pairSetup P d.salt d.b out := rfl

theorem handle_pairVerify (acc : ReferenceAccessory) (d : Draws) (out : Bytes) :
    acc.handle P (Server.inputOf d pathPairVerify out) = acc.pairVerify P d.ephemeralSecret out :=
  rfl

theorem pairSetup_identity {salt : Bytes} {b : Nat} {payload : Bytes} {response : Response}
    (h : acc.pairSetup P salt b payload = (response, acc')) :
    (acc'.pairingId, acc'.keypair) = (acc.pairingId, acc.keypair) := by
  obtain rfl := congrArg Prod.snd h
  unfold pairSetup
  dsimp only
  repeat' split
  all_goals rfl

variable (draws) in
theorem verifyAndConnect_answered (hP : P.Honest) (hX : P.X25519Commutes)
    {controller : ControllerKeypair} (h : acc.controller = some (controller.id, controller.ltpk P))
    (ephemeral : Arr 32) : ∃ keys eventKey acc',
      verifyAndConnect P (answerPost P draws) controller ⟨acc.pairingId, acc.keypair.ltpk P⟩
        ephemeral acc = .ok (.new keys eventKey, acc') ∧
      acc'.controller = some (controller.id, controller.ltpk P) ∧
      acc'.session = some (.new keys.readKey keys.writeKey eventKey) := by
  have hprovisioned : acc.provisionController (controller.id, controller.ltpk P) = acc := by
    rw [provisionController, ← h]
  obtain ⟨n2, n3, n4, verifier₂, verifier₃, acc₄, k₁, k₂, k₃, k₄, hevent⟩ :=
    pairVerify_exchange hP hX controller acc ephemeral (draws pathPairVerify 0).ephemeralSecret
      (draws pathPairVerify 1).ephemeralSecret rfl rfl
  rw [hprovisioned, ← handle_pairVerify] at k₁
  rw [← handle_pairVerify] at k₃
  refine ⟨?_, ?_, ?_, ?run, ?_, ?_⟩
  case run =>
    simp only [verifyAndConnect, pairVerifyWithClient, verifyLoop, bind, StateT.bind, liftExcept,
      Except.bind]
    rw [rounds_send k₁ (by rw [PairVerifyClient.next, k₂]; rfl),
      rounds_done k₃ (by rw [PairVerifyClient.next, k₄]; rfl)]
    dsimp only
    rw [hevent]
    rfl
  all_goals rfl

end ReferenceAccessory

open ReferenceAccessory in
/-- With one setup code on both sides, pairing over CoAP ends with a connected accessory: the
controller has the identity of the accessory, the accessory that of the controller, and under the
sessions of the two no message of either side is refused by the other while each direction
delivers in order. -/
theorem pairWithTransport_connects (P : Primitives) (hP : P.Honest) (hX : P.X25519Commutes)
    (codeC codeA : String) (hcode : normalizeSetupCode codeC = normalizeSetupCode codeA)
    (controller : ControllerKeypair) (a : Bytes) (ephemeral : Arr 32) (client : PairSetupClient)
    (hclient : PairSetupClient.newWithPrivate codeC controller a = .ok client)
    (acc : ReferenceAccessory) (hacc : acc.setupCode = some codeA) (draws : String → Nat → Draws)
    (server : SrpServer) (hserver : server = SrpServer.withSaltAndPrivate P.sha512 hap3072
      PairSetup.username (asBytes (normalizeSetupCode codeA)) (draws pathPairSetup 0).salt
      (draws pathPairSetup 0).b)
    (hB : server.bPub % hap3072.n ≠ 0)
    (hu : computeU P.sha512 hap3072 client.srp.aPub server.bPub ≠ 0) :
    ∃ keys eventKey acc',
      pairWithTransport P (answerPost P draws) controller codeC a ephemeral acc =
        .ok ((.new keys eventKey, ⟨acc.pairingId, acc.keypair.ltpk P⟩), acc') ∧
      acc'.controller = some (controller.id, controller.ltpk P) ∧
      acc'.session = some (.new keys.readKey keys.writeKey eventKey) ∧
      ∀ acts, ∃ link, (Link.start (.new keys eventKey)
        (.new keys.readKey keys.writeKey eventKey)).run P acts = some link ∧ link.Faithful := by
  obtain ⟨m2, m3, m4, m5, m6, client₂, client₃, client₄, acc₁, acc₂, acc₃, h₁, h₂, h₃, h₄, h₅, h₆,
    hpaired⟩ := pairSetup_exchange hP hcode hclient acc hacc hserver hB hu (draws pathPairSetup 1).salt
      (draws pathPairSetup 2).salt (draws pathPairSetup 1).b (draws pathPairSetup 2).b
  obtain ⟨hid, hkeypair⟩ := Prod.mk.inj
    ((pairSetup_identity h₅).trans ((pairSetup_identity h₃).trans (pairSetup_identity h₁)))
  rw [← handle_pairSetup] at h₁ h₃ h₅
  obtain ⟨keys, eventKey, acc', hverify, hcontroller, hsession⟩ :=
    verifyAndConnect_answered draws hP hX hpaired ephemeral
  rw [hid, hkeypair] at hverify
  refine ⟨keys, eventKey, acc', ?_, hcontroller, hsession, ?_⟩
  · have hpure {α : Type} (x : α) : (pure x : PostM α) = fun acc => .ok (x, acc) := rfl
    simp only [pairWithTransport, Thread.pairSetup, setupLoop, bind, StateT.bind, hclient, mapErr_ok,
      liftExcept, hpure, Except.bind]
    rw [rounds_send h₁ (by rw [PairSetupClient.next, h₂]; rfl),
      rounds_send h₃ (by rw [PairSetupClient.next, h₄]; rfl),
      rounds_done h₅ (by rw [PairSetupClient.next, h₆]; rfl)]
    dsimp only
    rw [hverify]
  · intro acts
    obtain ⟨link, hrun, hinv⟩ := Link.inv_run hP.aead (Link.inv_start _ _) acts
    exact ⟨link, hrun, hinv.faithful⟩

theorem pairWithTransport_connects_sample : ∃ keys eventKey acc',
    pairWithTransport plainPrimitives (ReferenceAccessory.answerPost plainPrimitives fun _ _ =>
        ⟨[1], 2, constArr 32 2⟩) ⟨"controller", constArr 32 7⟩ "12345678" [1] (constArr 32 1)
        sampleSetupAccessory =
      .ok ((.new keys eventKey, ⟨"accessory", constArr 32 9⟩), acc') ∧
    acc'.session = some (.new keys.readKey keys.writeKey eventKey) := by
  obtain ⟨keys, eventKey, acc', hrun, -, hsession, -⟩ := pairWithTransport_connects plainPrimitives
    plainPrimitives_honest plainPrimitives_commutes "12345678" "123-45-678" (by decide +kernel)
    ⟨"controller", constArr 32 7⟩ [1] (constArr 32 1) PairSetupClient.sampleSetup (by decide +kernel)
    sampleSetupAccessory rfl (fun _ _ => ⟨[1], 2, constArr 32 2⟩) _ rfl (by decide +kernel)
    (by decide +kernel)
  exact ⟨keys, eventKey, acc', hrun, hsession⟩

end HapRust.ThreadDut
