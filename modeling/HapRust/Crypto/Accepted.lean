import HapRust.Crypto.PairSetupRun
import HapRust.Crypto.PairVerifyRun

/-! Which responses the two clients accept: those of an accessory that follows the protocol. -/

namespace HapRust.Crypto.PairSetupClient
open Lib Tlv8 PairSetup

variable {P : Primitives} {c : PairSetupClient} {response : Bytes} {map sub : Tlv8Map}

theorem handle_of (hmap : Tlv8Map.parse response = .ok map) (herr : map.get TlvType.error = none) :
    c.handle P response = c.dispatch P map := by
  simp only [handle, parseTlv_eq_ok.mpr hmap, checkError, herr]

theorem dispatch_M2_of {salt bBytes K M1 : Bytes} {S : Nat} (hc : c.state = .awaitingM2)
    (hst : map.get TlvType.state = some [2]) (hsalt : map.get TlvType.salt = some salt)
    (hb : map.get TlvType.publicKey = some bBytes)
    (hS : c.srp.premaster P.sha512 salt (asBytes c.password) (beNat bBytes) = .ok S)
    (hK : K = c.srp.sessionKey P.sha512 S)
    (hM1 : M1 = c.srp.proofM1 P.sha512 salt (beNat bBytes) K) :
    c.dispatch P map =
      (.ok (.send (writeTlv [(TlvType.state, [3]), (TlvType.publicKey, c.srp.aPubBytes),
        (TlvType.proof, M1)])), { c with state := .awaitingM4 K M1 }) := by
  subst hM1 hK
  simp only [dispatch, hc, handleM2, expectState, expectStateOr_of_get hst, getOr_eq_ok.mpr hsalt,
    getOr_eq_ok.mpr hb, hS, ok_bind, Tlv8Writer.pushU8_eq_push, push_nil, push_writeTlv,
    List.cons_append, List.nil_append]
  rfl

abbrev identityItems (id : Bytes) (ltpk : Arr 32) (signature : Arr 64) : List Item :=
  [(TlvType.identifier, id), (TlvType.publicKey, ltpk.val), (TlvType.signature, signature.val)]

theorem identityItems_parse (id : Bytes) (ltpk : Arr 32) (signature : Arr 64) :
    Tlv8Map.parse (writeTlv (identityItems id ltpk signature)) =
      .ok ⟨identityItems id ltpk signature⟩ := Tlv8Map.parse_writeTlv rfl

section
variable (id : Bytes) (ltpk : Arr 32) (signature : Arr 64)

theorem identityItems_identifier :
    (⟨identityItems id ltpk signature⟩ : Tlv8Map).get TlvType.identifier = some id := rfl

theorem identityItems_publicKey :
    (⟨identityItems id ltpk signature⟩ : Tlv8Map).get TlvType.publicKey = some ltpk.val := rfl

theorem identityItems_signature :
    (⟨identityItems id ltpk signature⟩ : Tlv8Map).get TlvType.signature = some signature.val := rfl

end

theorem dispatch_M4_of {K M1 sealed : Bytes} (hc : c.state = .awaitingM4 K M1)
    (hst : map.get TlvType.state = some [4])
    (hproof : map.get TlvType.proof = some (c.srp.expectedM2 P.sha512 M1 K))
    (hseal : P.chacha20Poly1305.encrypt (encKey P K) (hapNonce nonceM5) []
      (writeTlv (identityItems (asBytes c.controller.id) (c.controller.ltpk P)
        (c.controller.sign P ((iosDeviceX P K).val ++ asBytes c.controller.id ++
          (c.controller.ltpk P).val)))) = some sealed) :
    c.dispatch P map =
      (.ok (.send (writeTlv [(TlvType.state, [5]), (TlvType.encryptedData, sealed)])),
        { c with state := .awaitingM6 K }) := by
  unfold encKey iosDeviceX at hseal
  simp only [dispatch, hc, handleM4, expectState, expectStateOr_of_get hst, getOr_eq_ok.mpr hproof,
    SrpClient.verifyM2, ensure_of, buildM5, hkdfSha512_32, ok_bind, push_nil, push_writeTlv,
    List.cons_append, List.nil_append, encrypt, hseal, okOr_some, Tlv8Writer.pushU8_eq_push]
  rfl

theorem dispatch_M6_of {K encrypted : Bytes} {p : AccessoryPairing} {signature : Arr 64}
    (hc : c.state = .awaitingM6 K) (hst : map.get TlvType.state = some [6])
    (henc : map.get TlvType.encryptedData = some encrypted)
    (hdec : P.chacha20Poly1305.decrypt (encKey P K) (hapNonce nonceM6) [] encrypted =
      some (writeTlv (identityItems (asBytes p.pairingId) p.ltpk signature)))
    (hver : P.ed25519Verify p.ltpk
      ((accessoryX P K).val ++ asBytes p.pairingId ++ p.ltpk.val) signature = true) :
    c.dispatch P map = (.ok (.done p), { c with state := .done }) := by
  unfold encKey at hdec
  unfold accessoryX at hver
  simp only [dispatch, hc, handleM6, expectState, expectStateOr_of_get hst, readM6,
    getOr_eq_ok.mpr henc, hkdfSha512_32, decrypt_eq_ok.mpr hdec,
    parseTlv_eq_ok.mpr (identityItems_parse _ _ _), ok_bind,
    getOr_eq_ok.mpr (identityItems_identifier _ _ _),
    getOr_eq_ok.mpr (identityItems_publicKey _ _ _),
    getOr_eq_ok.mpr (identityItems_signature _ _ _), tryIntoOr_eq_ok.mpr rfl, fromUtf8_asBytes,
    okOr_some, verifyEd25519_of hver]
  rfl

end HapRust.Crypto.PairSetupClient

namespace HapRust.Crypto
open Lib Tlv8

abbrev proofItems (id : Bytes) (signature : Arr 64) : List Item :=
  [(TlvType.identifier, id), (TlvType.signature, signature.val)]

namespace PairVerifyClient
open PairVerify

variable {P : Primitives} {c : PairVerifyClient}

theorem buildM3_ok {pvKey E : Arr 32} {sealed : Bytes}
    (hseal : P.chacha20Poly1305.encrypt pvKey (hapNonce nonceM3) []
      (writeTlv (proofItems (asBytes c.controllerId)
        (P.ed25519Sign c.signing (c.ephemeral.pub.val ++ asBytes c.controllerId ++ E.val)))) =
          some sealed) :
    c.buildM3 P pvKey c.ephemeral.pub E =
      .ok (writeTlv [(TlvType.state, [3]), (TlvType.encryptedData, sealed)]) := by
  simp only [buildM3, push_nil, push_writeTlv, List.cons_append, List.nil_append,
    encrypt, hseal, okOr_some, ok_bind, Tlv8Writer.pushU8_eq_push]
  rfl

end PairVerifyClient
end HapRust.Crypto
