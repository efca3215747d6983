import HapRust.Crypto.PairSetup
import HapRust.Lib.Run

/-! Pair Setup over whole call sequences: which session key the client holds
in each state, and what it has seen of the accessory when it sends M5 or
finishes. -/

namespace HapRust.Crypto
open Lib Tlv8 PairSetup

def StateIs (m : Bytes) (n : UInt8) : Prop :=
  ∃ map, Tlv8Map.parse m = .ok map ∧ map.get TlvType.state = some [n]

theorem StateIs.unique {m : Bytes} {n n' : UInt8} (h : StateIs m n) (h' : StateIs m n') :
    n = n' := by
  obtain ⟨map, hmap, hn⟩ := h
  obtain ⟨map', hmap', hn'⟩ := h'
  obtain rfl := Except.ok.inj (hmap.symm.trans hmap')
  simpa using hn.symm.trans hn'

inductive PairSetupCall where
  | start
  | handle (response : Bytes)
  deriving DecidableEq

namespace PairSetupClient
variable (P : Primitives)

def KeyFromM2 (c : PairSetupClient) (m2 K M1 : Bytes) : Prop :=
  ∃ map salt bBytes S, Tlv8Map.parse m2 = .ok map ∧ map.get TlvType.salt = some salt ∧
    map.get TlvType.publicKey = some bBytes ∧
    c.srp.premaster P.sha512 salt (asBytes c.password) (beNat bBytes) = .ok S ∧
    K = c.srp.sessionKey P.sha512 S ∧ M1 = c.srp.proofM1 P.sha512 salt (beNat bBytes) K

def ProvesKey (c : PairSetupClient) (m4 K M1 : Bytes) : Prop :=
  ∃ map, Tlv8Map.parse m4 = .ok map ∧
    map.get TlvType.proof = some (P.sha512 (c.srp.aPubBytes ++ M1 ++ K))

/-- The data of an M6 opens under the key of `K`, and contains the pairing's
identifier and key, signed with that key over `AccessoryX(K)` and both. -/
def AuthenticM6 (m6 K : Bytes) (p : AccessoryPairing) : Prop :=
  ∃ map encrypted plaintext sub signature, Tlv8Map.parse m6 = .ok map ∧
    map.get TlvType.encryptedData = some encrypted ∧
    P.chacha20Poly1305.decrypt (encKey P K) (hapNonce nonceM6) [] encrypted = some plaintext ∧
    Tlv8Map.parse plaintext = .ok sub ∧ sub.get TlvType.identifier = some (asBytes p.pairingId) ∧
    sub.get TlvType.publicKey = some p.ltpk.val ∧ sub.get TlvType.signature = some signature.val ∧
    P.ed25519Verify p.ltpk ((accessoryX P K).val ++ asBytes p.pairingId ++ p.ltpk.val) signature =
      true

variable {P} {c c' : PairSetupClient} {map : Tlv8Map} {response : Bytes} {step : PairSetupStep}

theorem handleM2_eq_ok (hmap : Tlv8Map.parse response = .ok map)
    (h : c.handleM2 P map = .ok (step, c')) :
    ∃ K M1 m3, KeyFromM2 P c response K M1 ∧ step = .send m3 ∧ StateIs m3 3 ∧
      c' = { c with state := .awaitingM4 K M1 } := by
  simp only [handleM2, bind_eq_ok, getOr_eq_ok] at h
  obtain ⟨-, -, salt, hsalt, bBytes, hb, S, hS, hret⟩ := h
  obtain ⟨rfl, rfl⟩ := Prod.mk.inj (Except.ok.inj hret)
  refine ⟨_, _, _, ⟨map, salt, bBytes, S, hmap, hsalt, hb, hS, rfl, rfl⟩, rfl, ?_, rfl⟩
  simp only [Tlv8Writer.pushU8_eq_push, push_nil, push_writeTlv, List.cons_append, List.nil_append]
  exact ⟨_, Tlv8Map.parse_writeTlv rfl, rfl⟩

theorem handleM4_eq_ok (hmap : Tlv8Map.parse response = .ok map)
    (h : c.handleM4 P map = .ok (step, c')) :
    ∃ K M1 m5, c.state = .awaitingM4 K M1 ∧ ProvesKey P c response K M1 ∧ step = .send m5 ∧
      c' = { c with state := .awaitingM6 K } := by
  simp only [handleM4, bind_eq_ok] at h
  obtain ⟨-, -, h⟩ := h
  cases hs : c.state with
  | awaitingM4 K M1 =>
    simp only [hs, bind_eq_ok, getOr_eq_ok, SrpClient.verifyM2, ensure_eq_ok] at h
    obtain ⟨proof, hproof, -, rfl, m5, -, hret⟩ := h
    obtain ⟨rfl, rfl⟩ := Prod.mk.inj (Except.ok.inj hret)
    exact ⟨K, M1, m5, rfl, ⟨map, hmap, hproof⟩, rfl, rfl⟩
  | _ => simp [hs] at h

theorem readM6_eq_ok {K : Bytes} (hmap : Tlv8Map.parse response = .ok map)
    (h : readM6 P K map = .ok step) : ∃ p, AuthenticM6 P response K p ∧ step = .done p := by
  simp only [readM6, bind_eq_ok, getOr_eq_ok, hkdfSha512_32, Except.ok.injEq, decrypt_eq_ok,
    parseTlv_eq_ok, tryIntoOr_eq_ok, okOr_eq_ok, fromUtf8_eq_some, verifyEd25519_eq_ok] at h
  obtain ⟨encrypted, henc, -, rfl, plaintext, hpt, sub, hsub, idBytes, hid, ltpkBytes, hltpk,
    sigBytes, hsig, ltpk, rfl, signature, rfl, pairingId, rfl, -, rfl, -, hverify, hret⟩ := h
  exact ⟨⟨pairingId, ltpk⟩, ⟨map, encrypted, plaintext, sub, signature, hmap, henc, hpt, hsub, hid,
    hltpk, hsig, hverify⟩, (Except.ok.inj hret).symm⟩

def Handled (P : Primitives) (c : PairSetupClient) (response : Bytes)
    (r : Except CryptoError PairSetupStep × PairSetupClient) : Prop :=
  (∃ e, r = (.error e, c)) ∨
  (c.state = .awaitingM2 ∧ ∃ K M1 m3, KeyFromM2 P c response K M1 ∧ StateIs m3 3 ∧
    r = (.ok (.send m3), { c with state := .awaitingM4 K M1 })) ∨
  (∃ K M1 m5, c.state = .awaitingM4 K M1 ∧ ProvesKey P c response K M1 ∧
    r = (.ok (.send m5), { c with state := .awaitingM6 K })) ∨
  ∃ K, c.state = .awaitingM6 K ∧
    ((∃ e, r = (.error e, { c with state := .done })) ∨
      ∃ p, AuthenticM6 P response K p ∧ r = (.ok (.done p), { c with state := .done }))

theorem dispatch_cases (P : Primitives) (c : PairSetupClient)
    (hmap : Tlv8Map.parse response = .ok map) : Handled P c response (c.dispatch P map) := by
  unfold dispatch
  cases hs : c.state with
  | initial => exact .inl ⟨_, rfl⟩
  | done => exact .inl ⟨_, rfl⟩
  | awaitingM2 =>
    rcases commit_cases c (c.handleM2 P map) with hh | ⟨step, c', hok, hh⟩
    · exact .inl hh
    · obtain ⟨K, M1, m3, hkey, rfl, hm3, rfl⟩ := handleM2_eq_ok hmap hok
      exact .inr (.inl ⟨hs, K, M1, m3, hkey, hm3, hh⟩)
  | awaitingM4 K M1 =>
    rcases commit_cases c (c.handleM4 P map) with hh | ⟨step, c', hok, hh⟩
    · exact .inl hh
    · obtain ⟨K, M1, m5, hs', hproof, rfl, rfl⟩ := handleM4_eq_ok hmap hok
      exact .inr (.inr (.inl ⟨K, M1, m5, hs', hproof, hh⟩))
  | awaitingM6 K =>
    simp only [handleM6, hs]
    cases expectState map 6 with
    | error e => exact .inl ⟨e, rfl⟩
    | ok u =>
      refine .inr (.inr (.inr ⟨K, hs, ?_⟩))
      cases hread : readM6 P K map with
      | error e => exact .inl ⟨e, by simp only [hread]⟩
      | ok step =>
        obtain ⟨p, hp, rfl⟩ := readM6_eq_ok hmap hread
        exact .inr ⟨p, hp, by simp only [hread]⟩

theorem handle_cases (P : Primitives) (c : PairSetupClient) (response : Bytes) :
    Handled P c response (c.handle P response) := by
  unfold handle
  cases hparse : parseTlv response with
  | error e => exact .inl ⟨e, rfl⟩
  | ok map =>
    have hmap := parseTlv_eq_ok.mp hparse
    cases hcheck : checkError map with
    | error e => exact .inl ⟨e, by simp only [hcheck]⟩
    | ok u =>
      simp only [hcheck]
      exact dispatch_cases P c hmap

/-! ## Runs -/

variable (P) in
def after (c : PairSetupClient) : PairSetupCall → PairSetupClient
  | .start => c.start.2
  | .handle response => (c.handle P response).2

variable (P) in
def AcceptsM2 (c : PairSetupClient) : PairSetupCall → Prop
  | .start => False
  | .handle response => c.state = .awaitingM2 ∧ ∃ m3, (c.handle P response).1 = .ok (.send m3)

variable (P) in
/-- `K` and `M1` come from the M2 most recently accepted in the run from `c0`. -/
def HeldKey (c0 : PairSetupClient) (calls : List PairSetupCall) (K M1 : Bytes) : Prop :=
  ∃ pre m2 post, MostRecent (after P) (AcceptsM2 P) c0 calls pre (.handle m2) post ∧
    KeyFromM2 P c0 m2 K M1

variable (P) in
structure KeyInv (c0 : PairSetupClient) (calls : List PairSetupCall) (c : PairSetupClient) :
    Prop where
  password : c.password = c0.password
  srp : c.srp = c0.srp
  awaitingM4 : ∀ K M1, c.state = .awaitingM4 K M1 → HeldKey P c0 calls K M1
  awaitingM6 : ∀ K, c.state = .awaitingM6 K → ∃ M1, HeldKey P c0 calls K M1

variable {c0 : PairSetupClient} {calls : List PairSetupCall} {k : PairSetupCall} {K M1 : Bytes}

theorem HeldKey.snoc (h : HeldKey P c0 calls K M1)
    (hk : ¬ AcceptsM2 P (runs (after P) c0 calls) k) : HeldKey P c0 (calls ++ [k]) K M1 := by
  obtain ⟨pre, m2, post, hm, hkey⟩ := h
  exact ⟨pre, m2, post ++ [k], hm.snoc hk, hkey⟩

theorem KeyFromM2.congr {m2 : Bytes} (hp : c.password = c0.password) (hs : c.srp = c0.srp)
    (h : KeyFromM2 P c m2 K M1) : KeyFromM2 P c0 m2 K M1 := by
  unfold KeyFromM2 at *
  rwa [hp, hs] at h

theorem KeyInv.keyless (h : KeyInv P c0 calls c) {state : PairSetupState}
    (hstate : state = .awaitingM2 ∨ state = .done) (calls' : List PairSetupCall) :
    KeyInv P c0 calls' { c with state := state } where
  password := h.password
  srp := h.srp
  awaitingM4 K M1 hs := by rcases hstate with rfl | rfl <;> cases hs
  awaitingM6 K hs := by rcases hstate with rfl | rfl <;> cases hs

theorem KeyInv.refused (h : KeyInv P c0 calls c)
    (hk : ¬ AcceptsM2 P (runs (after P) c0 calls) k) : KeyInv P c0 (calls ++ [k]) c where
  password := h.password
  srp := h.srp
  awaitingM4 K M1 hs := (h.awaitingM4 K M1 hs).snoc hk
  awaitingM6 K hs := by
    obtain ⟨M1, hM1⟩ := h.awaitingM6 K hs
    exact ⟨M1, hM1.snoc hk⟩

theorem KeyInv.acceptsM2 {m2 : Bytes} (h : KeyInv P c0 calls c) (hkey : KeyFromM2 P c m2 K M1)
    (hk : AcceptsM2 P (runs (after P) c0 calls) (.handle m2)) :
    KeyInv P c0 (calls ++ [.handle m2]) { c with state := .awaitingM4 K M1 } where
  password := h.password
  srp := h.srp
  awaitingM4 K' M1' hs := by
    obtain ⟨rfl, rfl⟩ := PairSetupState.awaitingM4.inj hs
    exact ⟨calls, m2, [], .now hk, hkey.congr h.password h.srp⟩
  awaitingM6 K' hs := by cases hs

theorem KeyInv.acceptsM4 (h : KeyInv P c0 calls c) (hs : c.state = .awaitingM4 K M1)
    (hk : ¬ AcceptsM2 P (runs (after P) c0 calls) k) :
    KeyInv P c0 (calls ++ [k]) { c with state := .awaitingM6 K } where
  password := h.password
  srp := h.srp
  awaitingM4 K' M1' hs' := by cases hs'
  awaitingM6 K' hs' := by
    obtain rfl := PairSetupState.awaitingM6.inj hs'
    exact ⟨M1, (h.awaitingM4 K M1 hs).snoc hk⟩

theorem keyInv_after (h : KeyInv P c0 calls (runs (after P) c0 calls)) (k : PairSetupCall) :
    KeyInv P c0 (calls ++ [k]) (after P (runs (after P) c0 calls) k) := by
  cases k with
  | start => exact h.keyless (.inl rfl) _
  | handle response =>
    rcases handle_cases P (runs (after P) c0 calls) response with ⟨e, hh⟩ |
      ⟨hs, K, M1, m3, hkey, -, hh⟩ | ⟨K, M1, m5, hs, -, hh⟩ | ⟨K, hs, ⟨e, hh⟩ | ⟨p, -, hh⟩⟩
    · have hno : ¬ AcceptsM2 P (runs (after P) c0 calls) (.handle response) := by
        rintro ⟨-, m3, hm3⟩
        rw [hh] at hm3
        cases hm3
      rw [after, hh]
      exact h.refused hno
    · rw [after, hh]
      exact h.acceptsM2 hkey ⟨hs, m3, by rw [hh]⟩
    · have hno : ¬ AcceptsM2 P (runs (after P) c0 calls) (.handle response) := by
        rintro ⟨hs', -⟩
        rw [hs] at hs'
        cases hs'
      rw [after, hh]
      exact h.acceptsM4 hs hno
    · rw [after, hh]
      exact h.keyless (.inr rfl) _
    · rw [after, hh]
      exact h.keyless (.inr rfl) _

theorem keyInv_runs (P : Primitives) (c0 : PairSetupClient) (h0 : c0.state = .initial)
    (calls : List PairSetupCall) : KeyInv P c0 calls (runs (after P) c0 calls) := by
  induction calls using List.reverseRecOn with
  | nil =>
    refine ⟨rfl, rfl, ?_, ?_⟩
    · intro K M1 hs
      rw [runs_nil, h0] at hs
      cases hs
    · intro K hs
      rw [runs_nil, h0] at hs
      cases hs
  | append_singleton calls k ih =>
    rw [runs_snoc]
    exact keyInv_after ih k

theorem state_of_new {setupCode : String} {controller : ControllerKeypair} {a : Bytes}
    (h : newWithPrivate setupCode controller a = .ok c) : c.state = .initial := by
  simp only [newWithPrivate, bind_eq_ok] at h
  obtain ⟨group, -, srp, -, hret⟩ := h
  rw [← Except.ok.inj hret]

/-- In every run, M5 is only sent in answer to the proof of the held key, and
the client only finishes on an M6 that is authentic under the held key. -/
theorem setup_sound (P : Primitives) (setupCode : String) (controller : ControllerKeypair)
    (a : Bytes) (c0 c : PairSetupClient) (hc0 : newWithPrivate setupCode controller a = .ok c0)
    (calls : List PairSetupCall) (hc : c = runs (after P) c0 calls) (response : Bytes) :
    (∀ m, (c.handle P response).1 = .ok (.send m) → StateIs m 5 →
      ∃ K M1, HeldKey P c0 calls K M1 ∧ ProvesKey P c0 response K M1) ∧
    (∀ p, (c.handle P response).1 = .ok (.done p) →
      ∃ K M1, HeldKey P c0 calls K M1 ∧ AuthenticM6 P response K p) := by
  have hinv := keyInv_runs P c0 (state_of_new hc0) calls
  rw [← hc] at hinv
  rcases handle_cases P c response with ⟨e, hh⟩ | ⟨hs, K, M1, m3, -, hm3, hh⟩ |
    ⟨K, M1, m5, hs, hproof, hh⟩ | ⟨K, hs, ⟨e, hh⟩ | ⟨p, hp, hh⟩⟩
  · simp [hh]
  · refine ⟨?_, by simp [hh]⟩
    intro m hm hm5
    obtain rfl : m3 = m := by simpa [hh] using hm
    have heq : (3 : UInt8) = 5 := hm3.unique hm5
    exact absurd heq (by decide)
  · refine ⟨?_, by simp [hh]⟩
    intro m _ _
    refine ⟨K, M1, hinv.awaitingM4 K M1 hs, ?_⟩
    unfold ProvesKey at *
    rwa [← hinv.srp]
  · simp [hh]
  · refine ⟨by simp [hh], ?_⟩
    intro p' hp'
    obtain rfl : p = p' := by simpa [hh] using hp'
    obtain ⟨M1, hM1⟩ := hinv.awaitingM6 K hs
    exact ⟨K, M1, hM1, hp⟩

/-! A client with the private exponent 1, the answers of an accessory to it
(both proofs and the session key are the byte 2), and the M5 in between. -/

def sampleSetup : PairSetupClient :=
  ⟨"123-45-678", ⟨"controller", constArr 32 7⟩, ⟨hap3072, username, 1, 5⟩, .initial⟩

def sampleSetupM2 : Bytes :=
  writeTlv [(TlvType.state, [2]), (TlvType.salt, [1]), (TlvType.publicKey, [7])]

def sampleSetupM4 : Bytes := writeTlv [(TlvType.state, [4]), (TlvType.proof, [2])]

def sampleSetupM5 : Bytes :=
  writeTlv [(TlvType.state, [5]), (TlvType.encryptedData,
    (encKey plainPrimitives [2]).val ++ (hapNonce nonceM5).val ++ [] ++
      writeTlv [(TlvType.identifier, asBytes "controller"),
        (TlvType.publicKey, (constArr 32 7).val),
        (TlvType.signature, (plainPrimitives.ed25519Sign (constArr 32 7)
          ((iosDeviceX plainPrimitives [2]).val ++ asBytes "controller" ++
            (constArr 32 7).val)).val)])]

def sampleSetupM6 : Bytes :=
  writeTlv [(TlvType.state, [6]), (TlvType.encryptedData,
    (encKey plainPrimitives [2]).val ++ (hapNonce nonceM6).val ++ [] ++
      writeTlv [(TlvType.identifier, asBytes "accessory"), (TlvType.publicKey, (constArr 32 9).val),
        (TlvType.signature, (plainPrimitives.ed25519Sign (constArr 32 9)
          ((accessoryX plainPrimitives [2]).val ++ asBytes "accessory" ++
            (constArr 32 9).val)).val)])]

theorem setup_sound_sample :
    (∃ K M1, HeldKey plainPrimitives sampleSetup [.start, .handle sampleSetupM2] K M1 ∧
      ProvesKey plainPrimitives sampleSetup sampleSetupM4 K M1) ∧
    ∃ K M1, HeldKey plainPrimitives sampleSetup
        [.start, .handle sampleSetupM2, .handle sampleSetupM4] K M1 ∧
      AuthenticM6 plainPrimitives sampleSetupM6 K ⟨"accessory", constArr 32 9⟩ :=
  have hnew : newWithPrivate "12345678" ⟨"controller", constArr 32 7⟩ [1] = .ok sampleSetup := by
    decide +kernel
  ⟨(setup_sound plainPrimitives _ _ _ sampleSetup _ hnew _ rfl sampleSetupM4).1 sampleSetupM5
      (by decide +kernel) ⟨_, Tlv8Map.parse_writeTlv rfl, rfl⟩,
    (setup_sound plainPrimitives _ _ _ sampleSetup _ hnew _ rfl sampleSetupM6).2 _
      (by decide +kernel)⟩

end PairSetupClient
end HapRust.Crypto
