import HapRust.Crypto.Accepted

/-! What a client does after it has returned an error. Pair Setup is over once an M6 has come,
whatever was wrong with it; after any other error, in Pair Verify after all of them, the client
is as it was before and goes on waiting for the same message. -/

namespace HapRust.Crypto
open Lib Tlv8

/-- Every call that follows, up to the next `start`, returns an error. -/
def Refuses {σ α : Type} (handle : σ → Bytes → Except CryptoError α × σ) (c : σ) : Prop :=
  ∀ later, ∀ r ∈ outputs handle c later, Fails r

theorem not_refuses {σ α : Type} {handle : σ → Bytes → Except CryptoError α × σ} {c c' : σ}
    {response : Bytes} {a : α} (h : handle c response = (.ok a, c')) : ¬ Refuses handle c := by
  intro hrefuses
  obtain ⟨e, he⟩ := hrefuses [response] (.ok a) (by simp [outputs, h])
  cases he

namespace PairSetupClient
open PairSetup

variable (P : Primitives)

def IsM6 (response : Bytes) : Prop :=
  ∃ map, parseTlv response = .ok map ∧ checkError map = .ok () ∧ expectState map 6 = .ok ()

/-- After this response the exchange is over. -/
def Settles (c : PairSetupClient) (response : Bytes) : Prop :=
  c.state = .done ∨ (∃ K, c.state = .awaitingM6 K) ∧ IsM6 response

variable {P} {c c0 : PairSetupClient} {response : Bytes}

theorem handle_of_isM6 {K : Bytes} (hc : c.state = .awaitingM6 K) (h : IsM6 response) :
    (c.handle P response).2 = { c with state := .done } := by
  obtain ⟨map, hmap, herr, hstate⟩ := h
  simp only [handle, hmap, herr, dispatch, hc, handleM6, hstate]

theorem handle_of_not_isM6 {K : Bytes} (hc : c.state = .awaitingM6 K) (h : ¬ IsM6 response) :
    (c.handle P response).2 = c := by
  unfold handle
  cases hmap : parseTlv response with
  | error e => rfl
  | ok map =>
    cases herr : checkError map with
    | error e => simp only [herr]
    | ok u =>
      cases hstate : expectState map 6 with
      | error e => simp only [herr, dispatch, hc, handleM6, hstate]
      | ok u => exact absurd ⟨map, hmap, herr, hstate⟩ h

theorem handle_of_done (hc : c.state = .done) :
    Fails (c.handle P response).1 ∧ (c.handle P response).2 = c := by
  rcases handle_cases P c response with ⟨e, hh⟩ | ⟨hs, -⟩ | ⟨K, M1, m5, hs, -⟩ | ⟨K, hs, -⟩
  · rw [hh]
    exact ⟨⟨e, rfl⟩, rfl⟩
  all_goals
    rw [hc] at hs
    cases hs

theorem refuses_of_done (hc : c.state = .done) : Refuses (handle P) c :=
  outputs_of_stuck _ fun _ => handle_of_done hc

theorem refuses_of_settles (h : c.Settles response) :
    Refuses (handle P) (c.handle P response).2 := by
  rcases h with hdone | ⟨⟨K, hK⟩, hM6⟩
  · rw [(handle_of_done hdone).2]
    exact refuses_of_done hdone
  · rw [handle_of_isM6 hK hM6]
    exact refuses_of_done rfl

theorem handle_of_not_settles (hfail : Fails (c.handle P response).1) (h : ¬ c.Settles response) :
    (c.handle P response).2 = c := by
  rcases handle_cases P c response with ⟨e, hh⟩ | ⟨-, K, M1, m3, -, -, hh⟩ |
    ⟨K, M1, m5, -, -, hh⟩ | ⟨K, hs, -⟩
  · rw [hh]
  · obtain ⟨e, he⟩ := hfail
    rw [hh] at he
    cases he
  · obtain ⟨e, he⟩ := hfail
    rw [hh] at he
    cases he
  · exact handle_of_not_isM6 hs fun hM6 => h (.inr ⟨⟨K, hs⟩, hM6⟩)

/-! ## What is still accepted -/

variable (P) in
/-- There is a public key of the accessory with which the exchange can go on. -/
def HasM2 (c : PairSetupClient) : Prop :=
  ∃ b, b % c.srp.group.n ≠ 0 ∧ computeU P.sha512 c.srp.group c.srp.aPub b ≠ 0

theorem accepts_M2 (h : c.HasM2 P) (hc : c.state = .awaitingM2) :
    ∃ r a c', c.handle P r = (.ok a, c') := by
  obtain ⟨b, hb, hu⟩ := h
  have hmap : Tlv8Map.parse (writeTlv [(TlvType.state, [2]), (TlvType.salt, []),
    (TlvType.publicKey, c.srp.group.pad b)]) = .ok ⟨_⟩ := Tlv8Map.parse_writeTlv rfl
  have hpad : beNat (c.srp.group.pad b) = b := SrpGroup.beNat_pad _ _
  obtain ⟨S, hS⟩ : ∃ S, c.srp.premaster P.sha512 [] (asBytes c.password) b = .ok S :=
    ⟨_, SrpClient.premaster_ok P.sha512 hb hu⟩
  rw [← hpad] at hS
  exact ⟨_, _, _, (handle_of hmap rfl).trans (dispatch_M2_of hc rfl rfl rfl hS rfl rfl)⟩

theorem accepts_M4 (hP : P.Honest) {K M1 : Bytes} (hc : c.state = .awaitingM4 K M1) :
    ∃ r a c', c.handle P r = (.ok a, c') := by
  have hmap : Tlv8Map.parse (writeTlv [(TlvType.state, [4]),
    (TlvType.proof, c.srp.expectedM2 P.sha512 M1 K)]) = .ok ⟨_⟩ := Tlv8Map.parse_writeTlv rfl
  obtain ⟨sealed, hseal, -⟩ := hP.aead (encKey P K) (hapNonce nonceM5) []
    (writeTlv (identityItems (asBytes c.controller.id) (c.controller.ltpk P) (c.controller.sign P
      ((iosDeviceX P K).val ++ asBytes c.controller.id ++ (c.controller.ltpk P).val))))
  exact ⟨_, _, _, (handle_of hmap rfl).trans (dispatch_M4_of hc rfl rfl hseal)⟩

theorem accepts_M6 (hP : P.Honest) {K : Bytes} (hc : c.state = .awaitingM6 K) :
    ∃ r a c', c.handle P r = (.ok a, c') := by
  let p : AccessoryPairing := ⟨"", c.controller.ltpk P⟩
  obtain ⟨sealed, -, hopen⟩ := hP.aead (encKey P K) (hapNonce nonceM6) []
    (writeTlv (identityItems (asBytes p.pairingId) p.ltpk (c.controller.sign P
      ((accessoryX P K).val ++ asBytes p.pairingId ++ p.ltpk.val))))
  have hmap : Tlv8Map.parse (writeTlv [(TlvType.state, [6]), (TlvType.encryptedData, sealed)]) =
    .ok ⟨_⟩ := Tlv8Map.parse_writeTlv rfl
  exact ⟨_, _, _, (handle_of hmap rfl).trans
    (dispatch_M6_of hc rfl rfl hopen (hP.ed25519 c.controller.signing _))⟩

theorem not_refuses_of_live (hP : P.Honest) (hM2 : c.HasM2 P) (hinit : c.state ≠ .initial)
    (hdone : c.state ≠ .done) : ¬ Refuses (handle P) c := by
  have haccepts : ∃ r a c', c.handle P r = (.ok a, c') := by
    cases hc : c.state with
    | initial => exact absurd hc hinit
    | awaitingM2 => exact accepts_M2 hM2 hc
    | awaitingM4 K M1 => exact accepts_M4 hP hc
    | awaitingM6 K => exact accepts_M6 hP hc
    | done => exact absurd hc hdone
  obtain ⟨r, a, c', h⟩ := haccepts
  exact not_refuses h

/-! ## Runs -/

theorem after_ne_initial (c : PairSetupClient) (k : PairSetupCall)
    (h : k = .start ∨ c.state ≠ .initial) : (after P c k).state ≠ .initial := by
  cases k with
  | start => exact PairSetupState.noConfusion
  | handle r =>
    have hc := h.resolve_left PairSetupCall.noConfusion
    rcases handle_cases P c r with ⟨e, hh⟩ | ⟨-, K, M1, m3, -, -, hh⟩ | ⟨K, M1, m5, -, -, hh⟩ |
      ⟨K, -, ⟨e, hh⟩ | ⟨p, -, hh⟩⟩ <;> rw [after, hh]
    · exact hc
    all_goals exact PairSetupState.noConfusion

theorem state_of_started {calls : List PairSetupCall} (h : .start ∈ calls) :
    (runs (after P) c0 calls).state ≠ .initial := by
  induction calls using List.reverseRecOn with
  | nil => cases h
  | append_singleton calls k ih =>
    rw [runs_snoc]
    apply after_ne_initial
    rcases List.mem_append.mp h with h | h
    · exact .inr (ih h)
    · exact .inl (List.mem_singleton.mp h).symm

theorem refuses_iff (hP : P.Honest) (h0 : c0.state = .initial) (hM2 : c0.HasM2 P)
    {calls : List PairSetupCall} (hstart : .start ∈ calls) (hc : c = runs (after P) c0 calls)
    (hfail : Fails (c.handle P response).1) :
    Refuses (handle P) (c.handle P response).2 ↔ c.Settles response := by
  have hinv := keyInv_runs P c0 h0 calls
  have hinit : (runs (after P) c0 calls).state ≠ .initial := state_of_started hstart
  rw [← hc] at hinv hinit
  constructor
  · intro hrefuses
    by_contra hsettles
    rw [handle_of_not_settles hfail hsettles] at hrefuses
    have hM2' : c.HasM2 P := by
      unfold HasM2
      rw [hinv.srp]
      exact hM2
    exact not_refuses_of_live hP hM2' hinit (fun hdone => hsettles (.inl hdone)) hrefuses
  · exact refuses_of_settles

end PairSetupClient

namespace PairVerifyClient
open PairVerify

variable {P : Primitives} {c c0 : PairVerifyClient} {response : Bytes}

theorem handle_of_fails (hfail : Fails (c.handle P response).1) : (c.handle P response).2 = c := by
  obtain ⟨e, he⟩ := hfail
  rcases handle_cases P c response with ⟨e', hh⟩ | ⟨-, E, m3, -, hh⟩ | ⟨-, shared, -, hh⟩
  · rw [hh]
  all_goals
    rw [hh] at he
    cases he

theorem fails_of_done (hc : c.state = .done) : Fails (c.handle P response).1 := by
  rcases handle_cases P c response with ⟨e, hh⟩ | ⟨hs, -⟩ | ⟨hs, -⟩
  · rw [hh]
    exact ⟨e, rfl⟩
  all_goals
    rw [hc] at hs
    cases hs

theorem refuses_of_done (hc : c.state = .done) : Refuses (handle P) c :=
  outputs_of_stuck _ fun _ => ⟨fails_of_done hc, handle_of_fails (fails_of_done hc)⟩

structure Started (c : PairVerifyClient) : Prop where
  init : c.state ≠ .init
  secret : c.state = .awaitM4 → ∃ shared, c.sharedSecret = some shared

theorem started_after (c : PairVerifyClient) (k : PairVerifyCall) (h : k = .start ∨ c.Started) :
    (after P c k).Started := by
  cases k with
  | start => exact ⟨PairVerifyState.noConfusion, PairVerifyState.noConfusion⟩
  | handle r =>
    have hc := h.resolve_left PairVerifyCall.noConfusion
    rcases handle_cases P c r with ⟨e, hh⟩ | ⟨-, E, m3, -, hh⟩ | ⟨-, shared, hshared, hh⟩ <;>
      rw [after, hh]
    · exact hc
    · exact ⟨PairVerifyState.noConfusion, fun _ => ⟨_, rfl⟩⟩
    · exact ⟨PairVerifyState.noConfusion, fun _ => ⟨shared, hshared⟩⟩

theorem started_of_mem {calls : List PairVerifyCall} (h : .start ∈ calls) :
    (runs (after P) c0 calls).Started := by
  induction calls using List.reverseRecOn with
  | nil => cases h
  | append_singleton calls k ih =>
    rw [runs_snoc]
    apply started_after
    rcases List.mem_append.mp h with h | h
    · exact .inr (ih h)
    · exact .inl (List.mem_singleton.mp h).symm

theorem accepts_M2 (hP : P.Honest) {seed : Arr 32} (hseed : c.accessory.ltpk = P.ed25519Public seed)
    (hc : c.state = .awaitM2) : ∃ r a c', c.handle P r = (.ok a, c') := by
  let E := c.ephemeral.pub
  let signature := P.ed25519Sign seed
    (E.val ++ asBytes c.accessory.pairingId ++ c.ephemeral.pub.val)
  obtain ⟨encrypted, -, hopen⟩ := hP.aead
    (P.hkdf (c.secretWith P E).val encryptSalt encryptInfo 32) (hapNonce nonceM2) []
    (writeTlv (proofItems (asBytes c.accessory.pairingId) signature))
  obtain ⟨m3, hm3, -⟩ := hP.aead
    (P.hkdf (c.secretWith P E).val encryptSalt encryptInfo 32) (hapNonce nonceM3) []
    (writeTlv (proofItems (asBytes c.controllerId) (P.ed25519Sign c.signing
      (c.ephemeral.pub.val ++ asBytes c.controllerId ++ E.val))))
  have hmap : Tlv8Map.parse (writeTlv [(TlvType.state, [2]), (TlvType.publicKey, E.val),
    (TlvType.encryptedData, encrypted)]) = .ok ⟨_⟩ := Tlv8Map.parse_writeTlv rfl
  have hsub : Tlv8Map.parse (writeTlv (proofItems (asBytes c.accessory.pairingId) signature)) =
    .ok ⟨_⟩ := Tlv8Map.parse_writeTlv rfl
  have hverify : P.ed25519Verify c.accessory.ltpk
      (E.val ++ asBytes c.accessory.pairingId ++ c.ephemeral.pub.val) signature = true := by
    rw [hseed]
    exact hP.ed25519 seed _
  exact ⟨_, _, _, handle_M2_of hc hmap rfl rfl rfl rfl hopen hsub rfl rfl hverify (buildM3_ok hm3)⟩

theorem accepts_M4 {shared : Arr 32} (hshared : c.sharedSecret = some shared)
    (hc : c.state = .awaitM4) : ∃ r a c', c.handle P r = (.ok a, c') := by
  have hmap : Tlv8Map.parse (writeTlv [(TlvType.state, [4])]) = .ok ⟨_⟩ :=
    Tlv8Map.parse_writeTlv rfl
  exact ⟨_, _, _, handle_M4_of hc hshared hmap rfl rfl⟩

theorem refuses_iff (hP : P.Honest) (h0 : c0.sharedSecret = none) {seed : Arr 32}
    (hseed : c0.accessory.ltpk = P.ed25519Public seed) {calls : List PairVerifyCall}
    (hstart : .start ∈ calls) (hc : c = runs (after P) c0 calls)
    (hfail : Fails (c.handle P response).1) :
    Refuses (handle P) (c.handle P response).2 ↔ c.state = .done := by
  have hinv := secretFrom_runs P c0 h0 calls
  have hstarted : (runs (after P) c0 calls).Started := started_of_mem hstart
  rw [← hc] at hinv hstarted
  rw [handle_of_fails hfail]
  constructor
  · intro hrefuses
    by_contra hdone
    have haccepts : ∃ r a c', c.handle P r = (.ok a, c') := by
      cases hs : c.state with
      | init => exact absurd hs hstarted.init
      | awaitM2 => exact accepts_M2 hP (hinv.accessory ▸ hseed) hs
      | awaitM4 =>
        obtain ⟨shared, hshared⟩ := hstarted.secret hs
        exact accepts_M4 hshared hs
      | done => exact absurd hs hdone
    obtain ⟨r, a, c', h⟩ := haccepts
    exact not_refuses h hrefuses
  · exact refuses_of_done

end PairVerifyClient

/-! ## Both machines -/

/-- After an error a client refuses all further input if and only if it was done before, or,
in Pair Setup, the response was read as the M6 that it awaited. -/
theorem refuses_after_error_iff (P : Primitives) (hP : P.Honest) :
    (∀ setupCode controller a c0, PairSetupClient.newWithPrivate setupCode controller a = .ok c0 →
      c0.HasM2 P → ∀ calls response c, .start ∈ calls →
      c = runs (PairSetupClient.after P) c0 calls → Fails (c.handle P response).1 →
      (Refuses (PairSetupClient.handle P) (c.handle P response).2 ↔ c.Settles response)) ∧
    ∀ controller accessory ephemeral seed, accessory.ltpk = P.ed25519Public seed →
      ∀ calls response c, .start ∈ calls →
      c = runs (PairVerifyClient.after P)
        (PairVerifyClient.newWithEphemeral P controller accessory ephemeral) calls →
      Fails (c.handle P response).1 →
      (Refuses (PairVerifyClient.handle P) (c.handle P response).2 ↔ c.state = .done) := by
  refine ⟨?_, ?_⟩
  · intro setupCode controller a c0 hc0 hM2 calls response c hstart hc hfail
    exact PairSetupClient.refuses_iff hP (PairSetupClient.state_of_new hc0) hM2 hstart hc hfail
  · intro controller accessory ephemeral seed hseed calls response c hstart hc hfail
    exact PairVerifyClient.refuses_iff hP rfl hseed hstart hc hfail

theorem refuses_after_error_iff_sample :
    (∃ c, c = runs (PairSetupClient.after plainPrimitives) PairSetupClient.sampleSetup
        [.start, .handle PairSetupClient.sampleSetupM2, .handle PairSetupClient.sampleSetupM4] ∧
      Fails (c.handle plainPrimitives [6, 1, 6]).1 ∧
      Refuses (PairSetupClient.handle plainPrimitives) (c.handle plainPrimitives [6, 1, 6]).2) ∧
    ∃ c, c = runs (PairVerifyClient.after plainPrimitives) PairVerifyClient.sampleClient
        [.start, .handle (PairVerifyClient.sampleM2 (constArr 32 2)), .handle [6, 1, 4]] ∧
      Fails (c.handle plainPrimitives [6, 1, 4]).1 ∧
      Refuses (PairVerifyClient.handle plainPrimitives) (c.handle plainPrimitives [6, 1, 4]).2 := by
  have hnew : PairSetupClient.newWithPrivate "12345678" ⟨"controller", constArr 32 7⟩ [1] =
      .ok PairSetupClient.sampleSetup := by decide +kernel
  have hM2 : PairSetupClient.sampleSetup.HasM2 plainPrimitives :=
    ⟨7, by decide +kernel, by decide +kernel⟩
  obtain ⟨hsetup, hverify⟩ := refuses_after_error_iff plainPrimitives plainPrimitives_honest
  refine ⟨⟨_, rfl, ?_⟩, ⟨_, rfl, ?_⟩⟩
  · refine ⟨?fails, (hsetup _ _ _ _ hnew hM2 _ _ _ (by decide) rfl ?fails).mpr (.inr ?_)⟩
    case fails => decide +kernel
    exact ⟨⟨[2], by decide +kernel⟩, ⟨⟨[(6, [6])]⟩, by decide, by decide, by decide⟩⟩
  · refine ⟨?fails, (hverify _ _ _ (constArr 32 9) rfl _ _ _ (by decide) rfl ?fails).mpr ?_⟩
    case fails => decide +kernel
    decide +kernel

/-- Both clients refuse an empty response, and then take an M2 as if nothing had happened. -/
theorem accepts_after_error :
    PairSetupClient.newWithPrivate "12345678" ⟨"controller", constArr 32 7⟩ [1] =
      .ok PairSetupClient.sampleSetup ∧
    (Fails ((runs (PairSetupClient.after plainPrimitives) PairSetupClient.sampleSetup
        [.start]).handle plainPrimitives []).1 ∧
      ¬ Fails ((runs (PairSetupClient.after plainPrimitives) PairSetupClient.sampleSetup
        [.start, .handle []]).handle plainPrimitives PairSetupClient.sampleSetupM2).1) ∧
    Fails ((runs (PairVerifyClient.after plainPrimitives) PairVerifyClient.sampleClient
        [.start]).handle plainPrimitives []).1 ∧
      ¬ Fails ((runs (PairVerifyClient.after plainPrimitives) PairVerifyClient.sampleClient
        [.start, .handle []]).handle plainPrimitives
          (PairVerifyClient.sampleM2 (constArr 32 2))).1 := by
  decide +kernel

end HapRust.Crypto
