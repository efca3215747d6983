import HapRust.ThreadDut.VerifyAgreement

/-! Pair Setup of the controller against the reference accessory, and what the
accessory's pairing record depends on. -/

namespace HapRust.ThreadDut
open Lib Tlv8 Crypto PairSetupClient

variable {P : Primitives} {map : Tlv8Map}

theorem handleSetupM1_ok {setupCode : String} {salt : Bytes} {b : Nat} {m1 : Bytes}
    {server : SrpServer}
    (hserver : server = SrpServer.withSaltAndPrivate P.sha512 hap3072 PairSetup.username
      (asBytes (normalizeSetupCode setupCode)) salt b)
    (hmap : Tlv8Map.parse m1 = .ok map) (hst : map.get TlvType.state = some [1])
    (hmethod : map.get TlvType.method = some [TlvType.methodPairSetup]) :
    handleSetupM1 P setupCode salt b m1 =
      .ok (writeTlv [(TlvType.state, [2]), (TlvType.salt, salt),
        (TlvType.publicKey, server.bPubBytes)], .awaitingM3 server) := by
  subst hserver
  simp only [handleSetupM1, parseMap_eq_ok.mpr hmap, expectState_of_get hst,
    Tlv8Map.getU8_of_get hmethod, mapErr_ok, ok_bind, ensure_of, HapPairSetupSrpServer.new_ok,
    Tlv8Writer.pushU8_eq_push, push_nil, push_writeTlv, List.cons_append, List.nil_append]
  rfl

theorem handleSetupM3_ok {server : SrpServer} {m3 aBytes K M1 M2 : Bytes}
    (hmap : Tlv8Map.parse m3 = .ok map) (hst : map.get TlvType.state = some [3])
    (ha : map.get TlvType.publicKey = some aBytes) (hproof : map.get TlvType.proof = some M1)
    (hK : server.sessionKey P.sha512 (beNat aBytes) = .ok K)
    (hM2 : server.verifyM1ProveM2 P.sha512 (beNat aBytes) K M1 = .ok M2) :
    handleSetupM3 P server m3 =
      .ok (writeTlv [(TlvType.state, [4]), (TlvType.proof, M2)], some K) := by
  simp only [handleSetupM3, parseMap_eq_ok.mpr hmap, expectState_of_get hst, require_eq_ok.mpr ha,
    require_eq_ok.mpr hproof, HapPairSetupSrpServer.sessionKey,
    HapPairSetupSrpServer.verifyM1ProveM2, hK, hM2, ok_bind, Tlv8Writer.pushU8_eq_push, push_nil,
    push_writeTlv, List.cons_append, List.nil_append]
  rfl

theorem handleSetupM5_ok {keypair : ControllerKeypair} {accessoryId controllerId : String}
    {ltpk : Arr 32} {signature : Arr 64} {K m5 encrypted sealed : Bytes}
    (hmap : Tlv8Map.parse m5 = .ok map) (hst : map.get TlvType.state = some [5])
    (henc : map.get TlvType.encryptedData = some encrypted)
    (hdec : P.chacha20Poly1305.decrypt (PairSetup.encKey P K) (hapNonce PairSetup.nonceM5) []
      encrypted = some (writeTlv (identityItems (asBytes controllerId) ltpk signature)))
    (hver : P.ed25519Verify ltpk
      ((PairSetup.iosDeviceX P K).val ++ asBytes controllerId ++ ltpk.val) signature = true)
    (hseal : P.chacha20Poly1305.encrypt (PairSetup.encKey P K) (hapNonce PairSetup.nonceM6) []
      (writeTlv (identityItems (asBytes accessoryId) (keypair.ltpk P) (keypair.sign P
        ((PairSetup.accessoryX P K).val ++ asBytes accessoryId ++ (keypair.ltpk P).val)))) =
          some sealed) :
    handleSetupM5 P K keypair accessoryId m5 =
      .ok (writeTlv [(TlvType.state, [6]), (TlvType.encryptedData, sealed)],
        some (controllerId, ltpk)) := by
  unfold PairSetup.encKey at hdec hseal
  unfold PairSetup.accessoryX at hseal
  unfold PairSetup.iosDeviceX at hver
  have hm6 : buildM6 P K (P.hkdf K PairSetup.encryptSalt PairSetup.encryptInfo 32) keypair
      accessoryId = .ok (writeTlv [(TlvType.state, [6]), (TlvType.encryptedData, sealed)]) := by
    simp only [buildM6, hkdf32_eq, ok_bind, push_nil, push_writeTlv, List.cons_append,
      List.nil_append, sealOr_of hseal, Tlv8Writer.pushU8_eq_push]
    rfl
  simp only [handleSetupM5, parseMap_eq_ok.mpr hmap, expectState_of_get hst,
    require_eq_ok.mpr henc, hkdf32_eq, ok_bind, decrypt_eq_ok.mpr hdec,
    parseMap_eq_ok.mpr (identityItems_parse _ _ _), require_eq_ok.mpr (identityItems_identifier _ _ _),
    identityItems_publicKey, identityItems_signature, Option.bind_some, tryIntoArr_val, hver,
    not_true_eq_false, if_false, fromUtf8_asBytes, hm6]
  rfl

namespace ReferenceAccessory
variable (a : ReferenceAccessory) (salt : Bytes) (b : Nat) {payload : Bytes} {code : String}

theorem pairSetup_M1 {m2 : Bytes} {progress : SetupInProgress} (hcode : a.setupCode = some code)
    (hst : messageState payload = some 1)
    (h : handleSetupM1 P code salt b payload = .ok (m2, progress)) :
    a.pairSetup P salt b payload = ((.changed, m2), { a with setup := some progress }) := by
  simp only [pairSetup, hcode, hst, h]

theorem pairSetup_M3 {m4 K : Bytes} {server : SrpServer} (hcode : a.setupCode = some code)
    (hst : messageState payload = some 3) (hsetup : a.setup = some (.awaitingM3 server))
    (h : handleSetupM3 P server payload = .ok (m4, some K)) :
    a.pairSetup P salt b payload =
      ((.changed, m4), { a with setup := some (.awaitingM5 K) }) := by
  simp only [pairSetup, hcode, hst, hsetup, h]

theorem pairSetup_M5 {m6 K : Bytes} {p : ControllerPairing} (hcode : a.setupCode = some code)
    (hst : messageState payload = some 5) (hsetup : a.setup = some (.awaitingM5 K))
    (h : handleSetupM5 P K a.keypair a.pairingId payload = .ok (m6, some p)) :
    a.pairSetup P salt b payload =
      ((.changed, m6), { a with setup := none, controller := some p }) := by
  simp only [pairSetup, hcode, hst, hsetup, h, provisionController]

end ReferenceAccessory

theorem pairSetup_exchange (hP : P.Honest) {codeC codeA : String}
    (hcode : normalizeSetupCode codeC = normalizeSetupCode codeA) {controller : ControllerKeypair}
    {aBytes : Bytes} {client : PairSetupClient}
    (hclient : newWithPrivate codeC controller aBytes = .ok client) (acc : ReferenceAccessory)
    (hacc : acc.setupCode = some codeA) {salt : Bytes} {b : Nat} {server : SrpServer}
    (hserver : server = SrpServer.withSaltAndPrivate P.sha512 hap3072 PairSetup.username
      (asBytes (normalizeSetupCode codeA)) salt b)
    (hB : server.bPub % hap3072.n ≠ 0)
    (hu : computeU P.sha512 hap3072 client.srp.aPub server.bPub ≠ 0)
    (salt₃ salt₅ : Bytes) (b₃ b₅ : Nat) :
    ∃ m2 m3 m4 m5 m6 client₂ client₃ client₄ acc₁ acc₂ acc₃,
      acc.pairSetup P salt b client.start.1 = ((.changed, m2), acc₁) ∧
      client.start.2.handle P m2 = (.ok (.send m3), client₂) ∧
      acc₁.pairSetup P salt₃ b₃ m3 = ((.changed, m4), acc₂) ∧
      client₂.handle P m4 = (.ok (.send m5), client₃) ∧
      acc₂.pairSetup P salt₅ b₅ m5 = ((.changed, m6), acc₃) ∧
      client₃.handle P m6 = (.ok (.done ⟨acc.pairingId, acc.keypair.ltpk P⟩), client₄) ∧
      acc₃.controller = some (controller.id, controller.ltpk P) := by
  obtain ⟨srp, hsrp, rfl⟩ : ∃ srp, SrpClient.withPrivate hap3072 PairSetup.username (beNat aBytes) =
      .ok srp ∧ client = ⟨normalizeSetupCode codeC, controller, srp, .initial⟩ := by
    simp only [newWithPrivate, hapGroup_ok, ok_bind, bind_eq_ok] at hclient
    obtain ⟨srp, hsrp, hret⟩ := hclient
    exact ⟨srp, hsrp, (Except.ok.inj hret).symm⟩
  rw [hcode]
  obtain ⟨S, hS, hKs⟩ := sessionKey_agree hsrp hserver hB hu
  set K := srp.sessionKey P.sha512 S with hK
  set M1 := srp.proofM1 P.sha512 salt server.bPub K with hM1
  have hBpad : beNat server.bPubBytes = server.bPub := SrpGroup.beNat_pad _ _
  have hApad : beNat srp.aPubBytes = srp.aPub := SrpGroup.beNat_pad _ _
  have hm1 : Tlv8Map.parse (PairSetupClient.start
      ⟨normalizeSetupCode codeA, controller, srp, .initial⟩).1 =
        .ok ⟨[(TlvType.state, [1]), (TlvType.method, [TlvType.methodPairSetup])]⟩ := by
    rw [PairSetupClient.start, Tlv8Writer.pushU8_eq_push, Tlv8Writer.pushU8_eq_push, push_nil,
      push_writeTlv]
    exact Tlv8Map.parse_writeTlv rfl
  have h₁ := acc.pairSetup_M1 salt b hacc (ReferenceAccessory.messageState_of hm1 rfl)
    (handleSetupM1_ok hserver hm1 rfl rfl)
  have hm2 : Tlv8Map.parse (writeTlv [(TlvType.state, [2]), (TlvType.salt, salt),
    (TlvType.publicKey, server.bPubBytes)]) = .ok ⟨_⟩ := Tlv8Map.parse_writeTlv rfl
  have h₂ := (handle_of hm2 rfl).trans (dispatch_M2_of
    (c := ⟨normalizeSetupCode codeA, controller, srp, .awaitingM2⟩) rfl rfl rfl rfl
    (hBpad.symm ▸ hS) hK (hBpad.symm ▸ hM1))
  have hm3 : Tlv8Map.parse (writeTlv [(TlvType.state, [3]), (TlvType.publicKey, srp.aPubBytes),
    (TlvType.proof, M1)]) = .ok ⟨_⟩ := Tlv8Map.parse_writeTlv rfl
  have h₃ := ReferenceAccessory.pairSetup_M3 { acc with setup := some (.awaitingM3 server) }
    salt₃ b₃ hacc (ReferenceAccessory.messageState_of hm3 rfl) rfl
    (handleSetupM3_ok hm3 rfl rfl rfl (hApad.symm ▸ hKs)
      (hApad.symm ▸ verifyM1ProveM2_agree hsrp hserver K))
  obtain ⟨sealed₅, hseal₅, hopen₅⟩ := hP.aead (PairSetup.encKey P K) (hapNonce PairSetup.nonceM5) []
    (writeTlv (identityItems (asBytes controller.id) (controller.ltpk P) (controller.sign P
      ((PairSetup.iosDeviceX P K).val ++ asBytes controller.id ++ (controller.ltpk P).val))))
  have hm4 : Tlv8Map.parse (writeTlv [(TlvType.state, [4]),
    (TlvType.proof, srp.expectedM2 P.sha512 M1 K)]) = .ok ⟨_⟩ := Tlv8Map.parse_writeTlv rfl
  have h₄ := (handle_of hm4 rfl).trans (dispatch_M4_of
    (c := ⟨normalizeSetupCode codeA, controller, srp, .awaitingM4 K M1⟩) rfl rfl rfl hseal₅)
  obtain ⟨sealed₆, hseal₆, hopen₆⟩ := hP.aead (PairSetup.encKey P K) (hapNonce PairSetup.nonceM6) []
    (writeTlv (identityItems (asBytes acc.pairingId) (acc.keypair.ltpk P) (acc.keypair.sign P
      ((PairSetup.accessoryX P K).val ++ asBytes acc.pairingId ++ (acc.keypair.ltpk P).val))))
  have hm5 : Tlv8Map.parse (writeTlv [(TlvType.state, [5]), (TlvType.encryptedData, sealed₅)]) =
    .ok ⟨_⟩ := Tlv8Map.parse_writeTlv rfl
  have h₅ := ReferenceAccessory.pairSetup_M5 { acc with setup := some (.awaitingM5 K) } salt₅ b₅
    hacc (ReferenceAccessory.messageState_of hm5 rfl) rfl
    (handleSetupM5_ok hm5 rfl rfl hopen₅ (hP.ed25519 _ _) hseal₆)
  have hm6 : Tlv8Map.parse (writeTlv [(TlvType.state, [6]), (TlvType.encryptedData, sealed₆)]) =
    .ok ⟨_⟩ := Tlv8Map.parse_writeTlv rfl
  have h₆ := (handle_of hm6 rfl).trans (dispatch_M6_of
    (c := ⟨normalizeSetupCode codeA, controller, srp, .awaitingM6 K⟩)
    (p := ⟨acc.pairingId, acc.keypair.ltpk P⟩) rfl rfl rfl hopen₆ (hP.ed25519 _ _))
  exact ⟨_, _, _, _, _, _, _, _, _, _, _, h₁, h₂, h₃, h₄, h₅, h₆, rfl⟩

/-! ## The pairing record -/

variable (P) in
def VerifiedM5 (K m5 : Bytes) (p : ControllerPairing) : Prop :=
  ∃ map encrypted plaintext sub signature, Tlv8Map.parse m5 = .ok map ∧
    map.get TlvType.encryptedData = some encrypted ∧
    P.chacha20Poly1305.decrypt (PairSetup.encKey P K) (hapNonce PairSetup.nonceM5) [] encrypted =
      some plaintext ∧
    Tlv8Map.parse plaintext = .ok sub ∧ sub.get TlvType.identifier = some (asBytes p.1) ∧
    sub.get TlvType.publicKey = some p.2.val ∧ sub.get TlvType.signature = some signature.val ∧
    P.ed25519Verify p.2 ((PairSetup.iosDeviceX P K).val ++ asBytes p.1 ++ p.2.val) signature = true

theorem handleSetupM5_eq_some {K m5 m6 : Bytes} {keypair : ControllerKeypair} {id : String}
    {p : ControllerPairing} (h : handleSetupM5 P K keypair id m5 = .ok (m6, some p)) :
    VerifiedM5 P K m5 p := by
  simp only [handleSetupM5, bind_eq_ok, hkdf32_eq, Except.ok.injEq, parseMap_eq_ok,
    require_eq_ok] at h
  obtain ⟨map, hmap, -, -, encrypted, henc, -, rfl, h⟩ := h
  cases hdec : decrypt P (P.hkdf K PairSetup.encryptSalt PairSetup.encryptInfo 32)
      (hapNonce PairSetup.nonceM5) [] encrypted with
  | error e => simp [hdec] at h
  | ok plaintext =>
    simp only [hdec, bind_eq_ok, parseMap_eq_ok, require_eq_ok] at h
    obtain ⟨sub, hsub, idBytes, hid, h⟩ := h
    split at h
    · rename_i ltpk signature hltpk hsig
      simp only [ok_bind] at h
      split_ifs at h with hver
      swap
      · simp at h
      split at h
      · simp at h
      · rename_i controllerId hutf
        obtain ⟨m6', -, hret⟩ := bind_eq_ok.mp h
        obtain ⟨-, rfl⟩ : m6' = m6 ∧ (controllerId, ltpk) = p := by simpa using hret
        rw [fromUtf8_eq_some] at hutf
        subst hutf
        exact ⟨map, encrypted, plaintext, sub, signature, hmap, henc, decrypt_eq_ok.mp hdec, hsub,
          hid, bind_tryIntoArr_eq_some.mp hltpk, bind_tryIntoArr_eq_some.mp hsig, hver⟩
    · simp at h

namespace ReferenceAccessory

variable (P) in
def ReachesVerifiedM5 (a : ReferenceAccessory) : Input → Prop
  | .pairSetup _ _ payload => ∃ K p, a.setup = some (.awaitingM5 K) ∧ VerifiedM5 P K payload p
  | _ => False

theorem securePdu_controller (a : ReferenceAccessory) (payload : Bytes) :
    (a.securePdu P payload).2.controller = a.controller := by
  obtain ⟨isOn, subscriptions, session, -, h⟩ := a.securePdu_frame P payload
  rw [h]

theorem pairVerify_controller (a : ReferenceAccessory) (secret : Arr 32) (payload : Bytes) :
    (a.pairVerify P secret payload).2.controller = a.controller := by
  unfold pairVerify
  split
  · split <;> rfl
  · dsimp only
    split
    · split <;> rfl
    · rfl
  · rfl

theorem pairSetup_controller (a : ReferenceAccessory) (salt : Bytes) (b : Nat) (payload : Bytes)
    (h : ¬ ReachesVerifiedM5 P a (.pairSetup salt b payload)) :
    (a.pairSetup P salt b payload).2.controller = a.controller := by
  unfold pairSetup
  split
  · rfl
  · split
    · split <;> rfl
    · dsimp only
      split
      · split <;> rfl
      · rfl
    · dsimp only
      split
      · rename_i K hK
        split
        · rename_i m6 p hm5
          exact absurd ⟨K, p, hK, handleSetupM5_eq_some hm5⟩ h
        · rfl
        · rfl
      · rfl
    · rfl

theorem after_controller (a : ReferenceAccessory) (i : Input) (h : ¬ ReachesVerifiedM5 P a i) :
    (a.after P i).controller = a.controller := by
  cases i with
  | pairSetup salt b payload => exact pairSetup_controller a salt b payload h
  | pairVerify secret payload => exact pairVerify_controller a secret payload
  | secure payload => exact securePdu_controller a payload
  | identify => rfl
  | unknown => rfl

end ReferenceAccessory

/-- With one setup code on both sides, Pair Setup ends with each side holding
the other's identity; and no sequence of requests changes the accessory's
pairing record unless one of them is an M5 that verifies. -/
theorem pairSetup_agreement (P : Primitives) (hP : P.Honest) :
    (∀ (codeC codeA : String) (controller : ControllerKeypair) (aBytes : Bytes)
        (client : PairSetupClient) (acc : ReferenceAccessory) (salt salt₃ salt₅ : Bytes)
        (b b₃ b₅ : Nat) (server : SrpServer),
      normalizeSetupCode codeC = normalizeSetupCode codeA →
      newWithPrivate codeC controller aBytes = .ok client → acc.setupCode = some codeA →
      server = SrpServer.withSaltAndPrivate P.sha512 hap3072 PairSetup.username
        (asBytes (normalizeSetupCode codeA)) salt b →
      server.bPub % hap3072.n ≠ 0 → computeU P.sha512 hap3072 client.srp.aPub server.bPub ≠ 0 →
      ∃ m2 m3 m4 m5 m6 client₂ client₃ client₄ acc₁ acc₂ acc₃,
        acc.pairSetup P salt b client.start.1 = ((.changed, m2), acc₁) ∧
        client.start.2.handle P m2 = (.ok (.send m3), client₂) ∧
        acc₁.pairSetup P salt₃ b₃ m3 = ((.changed, m4), acc₂) ∧
        client₂.handle P m4 = (.ok (.send m5), client₃) ∧
        acc₂.pairSetup P salt₅ b₅ m5 = ((.changed, m6), acc₃) ∧
        client₃.handle P m6 = (.ok (.done ⟨acc.pairingId, acc.keypair.ltpk P⟩), client₄) ∧
        acc₃.controller = some (controller.id, controller.ltpk P)) ∧
    ∀ (acc : ReferenceAccessory) (inputs : List ReferenceAccessory.Input),
      (∀ p i q, inputs = p ++ i :: q →
        ¬ ReferenceAccessory.ReachesVerifiedM5 P (runs (ReferenceAccessory.after P) acc p) i) →
      (runs (ReferenceAccessory.after P) acc inputs).controller = acc.controller := by
  refine ⟨?_, runs_unchanged _ ReferenceAccessory.after_controller⟩
  intro codeC codeA controller aBytes client acc salt salt₃ salt₅ b b₃ b₅ server hcode hclient hacc
    hserver hB hu
  exact pairSetup_exchange hP hcode hclient acc hacc hserver hB hu salt₃ salt₅ b₃ b₅

def sampleSetupAccessory : ReferenceAccessory :=
  { sampleAccessory with setupCode := some "123-45-678" }

theorem pairSetup_agreement_sample :
    (∃ m2 m3 m4 m5 m6 client₂ client₃ client₄ acc₁ acc₂ acc₃,
      sampleSetupAccessory.pairSetup plainPrimitives [1] 2 sampleSetup.start.1 =
        ((.changed, m2), acc₁) ∧
      sampleSetup.start.2.handle plainPrimitives m2 = (.ok (.send m3), client₂) ∧
      acc₁.pairSetup plainPrimitives [] 0 m3 = ((.changed, m4), acc₂) ∧
      client₂.handle plainPrimitives m4 = (.ok (.send m5), client₃) ∧
      acc₂.pairSetup plainPrimitives [] 0 m5 = ((.changed, m6), acc₃) ∧
      client₃.handle plainPrimitives m6 = (.ok (.done ⟨"accessory", constArr 32 9⟩), client₄) ∧
      acc₃.controller = some ("controller", constArr 32 7)) ∧
    (runs (ReferenceAccessory.after plainPrimitives) sampleSetupAccessory
      [.pairSetup [1] 2 sampleSetup.start.1, .identify]).controller = none := by
  refine ⟨(pairSetup_agreement plainPrimitives plainPrimitives_honest).1 "12345678" "123-45-678"
      ⟨"controller", constArr 32 7⟩ [1] sampleSetup sampleSetupAccessory [1] [] [] 2 0 0 _
      (by decide +kernel) (by decide +kernel) rfl rfl (by decide +kernel) (by decide +kernel),
    (pairSetup_agreement plainPrimitives plainPrimitives_honest).2 _ _ ?_⟩
  intro p i q h
  match p, h with
  | [], h =>
    obtain ⟨rfl, -⟩ := List.cons.inj h
    rintro ⟨K, x, hK, -⟩
    simp [sampleSetupAccessory, sampleAccessory] at hK
  | [_], h =>
    obtain ⟨rfl, -⟩ := List.cons.inj (List.cons.inj h).2
    exact id
  | _ :: _ :: _, h => simp at h

end HapRust.ThreadDut
