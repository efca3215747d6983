import HapRust.Crypto.Accepted
import HapRust.Thread.Link
import HapRust.ThreadDut.Accessory

/-! Pair Verify of the controller against the reference accessory: both finish,
with the same keys, and the sessions built from them understand each other. -/

namespace HapRust.ThreadDut
open Lib Tlv8 Crypto

variable {P : Primitives} {map sub : Tlv8Map}

theorem ReferenceAccessory.messageState_of {payload : Bytes} {n : UInt8}
    (hmap : Tlv8Map.parse payload = .ok map) (h : map.get TlvType.state = some [n]) :
    messageState payload = some n := by
  simp only [messageState, hmap, Tlv8Map.getU8_of_get h]
  rfl

theorem handleM1_ok (keypair : ControllerKeypair) (id : String) (secret : Arr 32) {m1 : Bytes}
    {ctlPub : Arr 32} {sealed : Bytes} (hmap : Tlv8Map.parse m1 = .ok map)
    (hst : map.get TlvType.state = some [1])
    (hpk : map.get TlvType.publicKey = some ctlPub.val)
    (hseal : P.chacha20Poly1305.encrypt
      (P.hkdf (P.x25519 secret ctlPub).val PairVerify.encryptSalt PairVerify.encryptInfo 32)
      (hapNonce PairVerify.nonceM2) []
      (writeTlv (proofItems (asBytes id) (keypair.sign P
        ((P.x25519Public secret).val ++ asBytes id ++ ctlPub.val)))) = some sealed) :
    handleM1 P keypair id secret m1 =
      .ok (writeTlv [(TlvType.state, [2]), (TlvType.publicKey, (P.x25519Public secret).val),
          (TlvType.encryptedData, sealed)],
        ⟨P.x25519Public secret, ctlPub, P.x25519 secret ctlPub,
          P.hkdf (P.x25519 secret ctlPub).val PairVerify.encryptSalt
            PairVerify.encryptInfo 32⟩) := by
  simp only [handleM1, parseMap_eq_ok.mpr hmap, expectState_of_get hst, require_eq_ok.mpr hpk,
    tryIntoArr_val, okOr_some, ok_bind, hkdf32_eq, EphemeralKeypair.fromSecret, EphemeralKeypair.diffieHellman,
    push_nil, push_writeTlv, List.cons_append, List.nil_append]
  rw [sealOr_of hseal]
  simp only [ok_bind, Tlv8Writer.pushU8_eq_push, push_nil, push_writeTlv, List.cons_append,
    List.nil_append]
  rfl

theorem handleM3_ok {progress : VerifyInProgress} {cid : String} {cltpk : Arr 32} {m3 : Bytes}
    {encrypted : Bytes} {signature : Arr 64} (hmap : Tlv8Map.parse m3 = .ok map)
    (hst : map.get TlvType.state = some [3])
    (henc : map.get TlvType.encryptedData = some encrypted)
    (hdec : P.chacha20Poly1305.decrypt progress.pvKey (hapNonce PairVerify.nonceM3) [] encrypted =
      some (writeTlv (proofItems (asBytes cid) signature)))
    (hver : P.ed25519Verify cltpk (progress.controllerEphPub.val ++ asBytes cid ++
      progress.accessoryEphPub.val) signature = true) :
    handleM3 P progress cid cltpk m3 = .ok (writeTlv [(TlvType.state, [4])],
      some (.new (P.hkdf progress.shared.val PairVerify.controlSalt PairVerify.controlReadInfo 32)
        (P.hkdf progress.shared.val PairVerify.controlSalt PairVerify.controlWriteInfo 32)
        (P.hkdf progress.shared.val PairVerify.eventSalt PairVerify.eventReadInfo 32))) := by
  have hsub : Tlv8Map.parse (writeTlv (proofItems (asBytes cid) signature)) =
    .ok ⟨proofItems (asBytes cid) signature⟩ := Tlv8Map.parse_writeTlv rfl
  have hid : (⟨proofItems (asBytes cid) signature⟩ : Tlv8Map).get TlvType.identifier =
    some (asBytes cid) := rfl
  have hsig : (⟨proofItems (asBytes cid) signature⟩ : Tlv8Map).get TlvType.signature =
    some signature.val := rfl
  simp only [handleM3, parseMap_eq_ok.mpr hmap, expectState_of_get hst, require_eq_ok.mpr henc,
    ok_bind, decrypt_eq_ok.mpr hdec, parseMap_eq_ok.mpr hsub, require_eq_ok.mpr hid, hsig, Option.bind_some,
    tryIntoArr_val, ne_eq, not_true_eq_false, hver, false_or, if_false, hkdf32_eq,
    Tlv8Writer.pushU8_eq_push, push_nil]
  rfl

namespace ReferenceAccessory
variable {payload : Bytes}

theorem pairVerify_M1 (a : ReferenceAccessory) (secret : Arr 32) {m2 : Bytes}
    {progress : VerifyInProgress} (hst : messageState payload = some 1)
    (h : handleM1 P a.keypair a.pairingId secret payload = .ok (m2, progress)) :
    a.pairVerify P secret payload = ((.changed, m2), { a with verify := some progress }) := by
  simp only [pairVerify, hst, h]

theorem pairVerify_M3 (a : ReferenceAccessory) (secret : Arr 32) {m4 : Bytes}
    {progress : VerifyInProgress} {cid : String} {cltpk : Arr 32} {session : AccessorySession}
    (hst : messageState payload = some 3) (hverify : a.verify = some progress)
    (hctl : a.controller = some (cid, cltpk))
    (h : handleM3 P progress cid cltpk payload = .ok (m4, some session)) :
    a.pairVerify P secret payload =
      ((.changed, m4), { a with verify := none, session := some session }) := by
  simp only [pairVerify, hst, hverify, hctl, h]

end ReferenceAccessory

/-- Pair Verify runs to its end, with these keys, and leaves the accessory in this state. -/
def Verifies (P : Primitives) (client : PairVerifyClient) (acc : ReferenceAccessory)
    (accSecret accSecret' : Arr 32) (keys : SessionKeys) (eventKey : Arr 32)
    (acc' : ReferenceAccessory) : Prop :=
  ∃ m2 m3 m4 client₂ client₃ acc₁,
    acc.pairVerify P accSecret client.start.1 = ((.changed, m2), acc₁) ∧
    client.start.2.handle P m2 = (.ok (.send m3), client₂) ∧
    acc₁.pairVerify P accSecret' m3 = ((.changed, m4), acc') ∧
    client₂.handle P m4 = (.ok (.done keys), client₃) ∧
    client₃.eventKey P = .ok eventKey

theorem Verifies.unique {client : PairVerifyClient} {acc acc' acc'' : ReferenceAccessory}
    {accSecret accSecret' eventKey eventKey' : Arr 32} {keys keys' : SessionKeys}
    (h : Verifies P client acc accSecret accSecret' keys eventKey acc')
    (h' : Verifies P client acc accSecret accSecret' keys' eventKey' acc'') :
    keys = keys' ∧ eventKey = eventKey' ∧ acc' = acc'' := by
  obtain ⟨m2, m3, m4, client₂, client₃, acc₁, h₁, h₂, h₃, h₄, hevent⟩ := h
  obtain ⟨m2', m3', m4', client₂', client₃', acc₁', h₁', h₂', h₃', h₄', hevent'⟩ := h'
  cases h₁.symm.trans h₁'
  cases h₂.symm.trans h₂'
  cases h₃.symm.trans h₃'
  cases h₄.symm.trans h₄'
  cases hevent.symm.trans hevent'
  exact ⟨rfl, rfl, rfl⟩

theorem pairVerify_exchange (hP : P.Honest) (hX : P.X25519Commutes) (controller : ControllerKeypair)
    (acc0 : ReferenceAccessory) (ctlSecret accSecret accSecret' : Arr 32) {keys : SessionKeys}
    {eventKey : Arr 32}
    (hkeys : keys = PairVerifyClient.sessionKeysOf P (P.x25519 ctlSecret (P.x25519Public accSecret)))
    (heventKey : eventKey = P.hkdf (P.x25519 ctlSecret (P.x25519Public accSecret)).val
      PairVerify.eventSalt PairVerify.eventReadInfo 32) :
    Verifies P (.newWithEphemeral P controller ⟨acc0.pairingId, acc0.keypair.ltpk P⟩ ctlSecret)
      (acc0.provisionController (controller.id, controller.ltpk P)) accSecret accSecret' keys eventKey
      { acc0.provisionController (controller.id, controller.ltpk P) with
        verify := none
        session := some (.new keys.readKey keys.writeKey eventKey) } := by
  subst hkeys heventKey
  set ctlPub := P.x25519Public ctlSecret
  set accPub := P.x25519Public accSecret
  set shared := P.x25519 accSecret ctlPub with hshared
  have hdh : P.x25519 ctlSecret accPub = shared := (hX accSecret ctlSecret).symm
  set pvKey := P.hkdf shared.val PairVerify.encryptSalt PairVerify.encryptInfo 32
  obtain ⟨sealed₂, hseal₂, hopen₂⟩ := hP.aead pvKey (hapNonce PairVerify.nonceM2) []
    (writeTlv (proofItems (asBytes acc0.pairingId) (acc0.keypair.sign P
      (accPub.val ++ asBytes acc0.pairingId ++ ctlPub.val))))
  have hm1 : Tlv8Map.parse (PairVerifyClient.newWithEphemeral P controller
      ⟨acc0.pairingId, acc0.keypair.ltpk P⟩ ctlSecret).start.1 =
        .ok ⟨[(TlvType.state, [1]), (TlvType.publicKey, ctlPub.val)]⟩ := by
    rw [PairVerifyClient.start, Tlv8Writer.pushU8_eq_push, push_nil, push_writeTlv]
    exact Tlv8Map.parse_writeTlv rfl
  have h₁ := ReferenceAccessory.pairVerify_M1
    (acc0.provisionController (controller.id, controller.ltpk P)) accSecret
    (ReferenceAccessory.messageState_of hm1 rfl)
    (handleM1_ok acc0.keypair acc0.pairingId accSecret hm1 rfl rfl hseal₂)
  obtain ⟨sealed₃, hseal₃, hopen₃⟩ := hP.aead pvKey (hapNonce PairVerify.nonceM3) []
    (writeTlv (proofItems (asBytes controller.id) (P.ed25519Sign controller.signing
      (ctlPub.val ++ asBytes controller.id ++ accPub.val))))
  have hm2 : Tlv8Map.parse (writeTlv [(TlvType.state, [2]), (TlvType.publicKey, accPub.val),
    (TlvType.encryptedData, sealed₂)]) = .ok ⟨_⟩ := Tlv8Map.parse_writeTlv rfl
  have hkey : P.hkdf (P.x25519 ctlSecret accPub).val PairVerify.encryptSalt
      PairVerify.encryptInfo 32 = pvKey := by
    rw [hdh]
  rw [← hkey] at hopen₂ hseal₃
  have h₂ := PairVerifyClient.handle_M2_of
    (c := (PairVerifyClient.newWithEphemeral P controller
      ⟨acc0.pairingId, acc0.keypair.ltpk P⟩ ctlSecret).start.2)
    rfl hm2 rfl rfl rfl rfl hopen₂ (Tlv8Map.parse_writeTlv rfl) rfl rfl (hP.ed25519 _ _)
    (PairVerifyClient.buildM3_ok hseal₃)
  have hm3 : Tlv8Map.parse (writeTlv [(TlvType.state, [3]), (TlvType.encryptedData, sealed₃)]) =
    .ok ⟨_⟩ := Tlv8Map.parse_writeTlv rfl
  have h₃ := ReferenceAccessory.pairVerify_M3
    { acc0.provisionController (controller.id, controller.ltpk P) with
      verify := some ⟨accPub, ctlPub, shared, pvKey⟩ } accSecret'
    (ReferenceAccessory.messageState_of hm3 rfl) rfl rfl
    (handleM3_ok hm3 rfl rfl hopen₃ (hP.ed25519 _ _))
  have hm4 : Tlv8Map.parse (writeTlv [(TlvType.state, [4])]) = .ok ⟨_⟩ := Tlv8Map.parse_writeTlv rfl
  have h₄ := PairVerifyClient.handle_M4_of (P := P)
    (c := { (PairVerifyClient.newWithEphemeral P controller
      ⟨acc0.pairingId, acc0.keypair.ltpk P⟩ ctlSecret).start.2 with
        sharedSecret := some (P.x25519 ctlSecret accPub), state := .awaitM4 }) rfl rfl hm4 rfl rfl
  refine ⟨_, _, _, _, _, _, h₁, h₂, ?_, h₄, PairVerifyClient.eventKey_of rfl⟩
  rw [h₃, hdh]
  rfl

/-- Pair Verify between a controller and the accessory it is paired with ends
with one set of keys on both sides, and under these keys no message of either
side is ever refused by the other while each direction delivers in order. -/
theorem pairVerify_agreement (P : Primitives) (hP : P.Honest) (hX : P.X25519Commutes)
    (controller : ControllerKeypair) (acc0 acc : ReferenceAccessory)
    (hacc : acc = acc0.provisionController (controller.id, controller.ltpk P))
    (client : PairVerifyClient) (ctlSecret accSecret accSecret' : Arr 32)
    (hclient : client = .newWithEphemeral P controller ⟨acc.pairingId, acc.keypair.ltpk P⟩
      ctlSecret) :
    ∃ m2 m3 m4 keys eventKey client₂ client₃ acc₁ acc₂,
      acc.pairVerify P accSecret client.start.1 = ((.changed, m2), acc₁) ∧
      client.start.2.handle P m2 = (.ok (.send m3), client₂) ∧
      acc₁.pairVerify P accSecret' m3 = ((.changed, m4), acc₂) ∧
      client₂.handle P m4 = (.ok (.done keys), client₃) ∧
      client₃.eventKey P = .ok eventKey ∧
      acc₂.session = some (.new keys.readKey keys.writeKey eventKey) ∧
      ∀ acts, ∃ link, (Thread.Link.start (.new keys eventKey)
          (.new keys.readKey keys.writeKey eventKey)).run P acts = some link ∧ link.Faithful := by
  subst hacc hclient
  obtain ⟨m2, m3, m4, client₂, client₃, acc₁, h₁, h₂, h₃, h₄, hevent⟩ :=
    pairVerify_exchange hP hX controller acc0 ctlSecret accSecret accSecret' rfl rfl
  refine ⟨m2, m3, m4, _, _, client₂, client₃, acc₁, _, h₁, h₂, h₃, h₄, hevent, rfl, fun acts => ?_⟩
  obtain ⟨link, hrun, hinv⟩ := Thread.Link.inv_run hP.aead (Thread.Link.inv_start _ _) acts
  exact ⟨link, hrun, hinv.faithful⟩

def sampleAccessory : ReferenceAccessory :=
  ⟨"accessory", ⟨"accessory", constArr 32 9⟩, none, none, none, none, none, false, []⟩

theorem pairVerify_agreement_sample :
    ∃ m2 m3 m4 keys eventKey client₂ client₃ acc₁ acc₂,
      (sampleAccessory.provisionController ("controller", constArr 32 7)).pairVerify plainPrimitives
        (constArr 32 2) (PairVerifyClient.newWithEphemeral plainPrimitives
          ⟨"controller", constArr 32 7⟩ ⟨"accessory", constArr 32 9⟩ (constArr 32 1)).start.1 =
        ((.changed, m2), acc₁) ∧
      (PairVerifyClient.newWithEphemeral plainPrimitives ⟨"controller", constArr 32 7⟩
        ⟨"accessory", constArr 32 9⟩ (constArr 32 1)).start.2.handle plainPrimitives m2 =
          (.ok (.send m3), client₂) ∧
      acc₁.pairVerify plainPrimitives (constArr 32 0) m3 = ((.changed, m4), acc₂) ∧
      client₂.handle plainPrimitives m4 = (.ok (.done keys), client₃) ∧
      client₃.eventKey plainPrimitives = .ok eventKey ∧
      acc₂.session = some (.new keys.readKey keys.writeKey eventKey) ∧
      ∀ acts, ∃ link, (Thread.Link.start (.new keys eventKey)
        (.new keys.readKey keys.writeKey eventKey)).run plainPrimitives acts = some link ∧
          link.Faithful :=
  pairVerify_agreement plainPrimitives plainPrimitives_honest plainPrimitives_commutes
    ⟨"controller", constArr 32 7⟩ sampleAccessory _ rfl _ (constArr 32 1) (constArr 32 2)
    (constArr 32 0) rfl

end HapRust.ThreadDut
