import HapRust.Crypto.PairVerify
import HapRust.Tlv8.RoundTrip

/-! Pair Verify over whole call sequences. A client keeps its shared secret
across failed and restarted exchanges; the invariant says which M2 that secret
came from. -/

namespace HapRust.Crypto
open Lib Tlv8 PairVerify

inductive PairVerifyCall where
  | start
  | handle (response : Bytes)
  deriving DecidableEq

namespace PairVerifyClient
variable (P : Primitives)

def after (c : PairVerifyClient) : PairVerifyCall → PairVerifyClient
  | .start => c.start.2
  | .handle response => (c.handle P response).2

def Accepts (c : PairVerifyClient) : PairVerifyCall → Prop
  | .start => False
  | .handle response => ∃ m3, (c.handle P response).1 = .ok (.send m3)

structure SecretFrom (c0 : PairVerifyClient) (calls : List PairVerifyCall)
    (c : PairVerifyClient) : Prop where
  accessory : c.accessory = c0.accessory
  ephemeral : c.ephemeral = c0.ephemeral
  secret : ∀ shared, c.sharedSecret = some shared → ∃ pre response post E,
    MostRecent (after P) (Accepts P) c0 calls pre (.handle response) post ∧
      AuthenticM2 P c0 response E ∧ shared = c0.secretWith P E

variable {P} {c0 c : PairVerifyClient} {calls : List PairVerifyCall}

theorem AuthenticM2.congr {response : Bytes} {E : Arr 32} (ha : c.accessory = c0.accessory)
    (he : c.ephemeral = c0.ephemeral) (h : AuthenticM2 P c response E) :
    AuthenticM2 P c0 response E := by
  unfold AuthenticM2 secretWith at *
  rwa [ha, he] at h

theorem SecretFrom.keep {k : PairVerifyCall} {c' : PairVerifyClient}
    (h : SecretFrom P c0 calls (runs (after P) c0 calls))
    (ha : c'.accessory = (runs (after P) c0 calls).accessory)
    (he : c'.ephemeral = (runs (after P) c0 calls).ephemeral)
    (hs : c'.sharedSecret = (runs (after P) c0 calls).sharedSecret)
    (hk : ¬ Accepts P (runs (after P) c0 calls) k) :
    SecretFrom P c0 (calls ++ [k]) c' where
  accessory := ha.trans h.accessory
  ephemeral := he.trans h.ephemeral
  secret shared hshared := by
    obtain ⟨pre, response, post, E, hm, hE, rfl⟩ := h.secret shared (hs.symm.trans hshared)
    exact ⟨pre, response, post ++ [k], E, hm.snoc hk, hE, rfl⟩

theorem SecretFrom.accept {m2 m3 : Bytes} {E : Arr 32}
    (h : SecretFrom P c0 calls (runs (after P) c0 calls))
    (hE : AuthenticM2 P (runs (after P) c0 calls) m2 E)
    (hsend : ((runs (after P) c0 calls).handle P m2).1 = .ok (.send m3)) :
    SecretFrom P c0 (calls ++ [.handle m2]) { runs (after P) c0 calls with
      sharedSecret := some ((runs (after P) c0 calls).secretWith P E), state := .awaitM4 } where
  accessory := h.accessory
  ephemeral := h.ephemeral
  secret shared hshared := by
    have hnow : Accepts P (runs (after P) c0 calls) (.handle m2) := ⟨m3, hsend⟩
    refine ⟨calls, m2, [], E, .now hnow, hE.congr h.accessory h.ephemeral, ?_⟩
    rw [← Option.some.inj hshared, secretWith, secretWith, h.ephemeral]

theorem secretFrom_after (h : SecretFrom P c0 calls (runs (after P) c0 calls))
    (k : PairVerifyCall) :
    SecretFrom P c0 (calls ++ [k]) (after P (runs (after P) c0 calls) k) := by
  cases k with
  | start => exact h.keep rfl rfl rfl id
  | handle response =>
    rcases handle_cases P (runs (after P) c0 calls) response with
      ⟨e, hh⟩ | ⟨-, E, m3, hE, hh⟩ | ⟨-, shared, -, hh⟩
    · rw [after, hh]
      refine h.keep rfl rfl rfl ?_
      rintro ⟨m3, hm3⟩
      rw [hh] at hm3
      cases hm3
    · rw [after, hh]
      exact h.accept hE (congrArg Prod.fst hh)
    · rw [after, hh]
      refine h.keep rfl rfl rfl ?_
      rintro ⟨m3, hm3⟩
      rw [hh] at hm3
      cases hm3

theorem secretFrom_runs (P : Primitives) (c0 : PairVerifyClient) (h0 : c0.sharedSecret = none)
    (calls : List PairVerifyCall) : SecretFrom P c0 calls (runs (after P) c0 calls) := by
  induction calls using List.reverseRecOn with
  | nil =>
    refine ⟨rfl, rfl, ?_⟩
    intro shared hshared
    rw [runs_nil, h0] at hshared
    cases hshared
  | append_singleton calls k ih =>
    rw [runs_snoc]
    exact secretFrom_after ih k

/-- Whatever calls came before, keys are only handed out after an authentic M2,
and every key is derived from the secret of the last M2 the client accepted. -/
theorem done_keys_from_accepted_M2 (P : Primitives) (controller : ControllerKeypair)
    (accessory : AccessoryPairing) (ephemeralSecret : Arr 32) (calls : List PairVerifyCall)
    (response : Bytes) (keys : SessionKeys) (c0 c c' : PairVerifyClient)
    (hc0 : c0 = newWithEphemeral P controller accessory ephemeralSecret)
    (hc : c = runs (after P) c0 calls)
    (hdone : c.handle P response = (.ok (.done keys), c')) :
    ∃ pre m2 post E,
      MostRecent (after P) (Accepts P) c0 calls pre (.handle m2) post ∧
      AuthenticM2 P c0 m2 E ∧ keys = sessionKeysOf P (c0.secretWith P E) ∧
      c'.eventKey P = .ok (P.hkdf (c0.secretWith P E).val eventSalt eventReadInfo 32) ∧
      ∀ ltpk, c'.broadcastKey P ltpk =
        .ok (P.hkdf (c0.secretWith P E).val ltpk broadcastInfo 32) := by
  have hinv := secretFrom_runs P c0 (by rw [hc0]; rfl) calls
  rw [← hc] at hinv
  rcases handle_cases P c response with ⟨e, hh⟩ | ⟨-, E, m3, -, hh⟩ | ⟨-, shared, hshared, hh⟩
  · simp [hdone] at hh
  · simp [hdone] at hh
  · rw [hdone] at hh
    obtain ⟨hkeys, rfl⟩ := Prod.mk.inj hh
    obtain ⟨pre, m2, post, E, hm, hE, rfl⟩ := hinv.secret shared hshared
    have hkeys' : keys = sessionKeysOf P (c0.secretWith P E) := by simpa using hkeys
    exact ⟨pre, m2, post, E, hm, hE, hkeys', eventKey_of hshared, broadcastKey_of hshared⟩

/-! A controller and an accessory over `plainPrimitives`, and the M2 the
accessory would send for the ephemeral key `e`. -/

def sampleClient : PairVerifyClient :=
  newWithEphemeral plainPrimitives ⟨"controller", constArr 32 7⟩ ⟨"accessory", constArr 32 9⟩
    (constArr 32 1)

def sampleItems (e : Arr 32) : List Item :=
  [(TlvType.identifier, asBytes "accessory"),
    (TlvType.signature, (plainPrimitives.ed25519Sign (constArr 32 9)
      (e.val ++ asBytes "accessory" ++ sampleClient.ephemeral.pub.val)).val)]

def sampleM2 (e : Arr 32) : Bytes :=
  let key := plainPrimitives.hkdf (sampleClient.secretWith plainPrimitives e).val encryptSalt
    encryptInfo 32
  writeTlv [(TlvType.state, [2]), (TlvType.publicKey, e.val),
    (TlvType.encryptedData,
      key.val ++ (hapNonce nonceM2).val ++ [] ++ writeTlv (sampleItems e))]

theorem sampleM2_authentic (e : Arr 32) :
    AuthenticM2 plainPrimitives sampleClient (sampleM2 e) e :=
  ⟨⟨[_, _, _]⟩, _, writeTlv (sampleItems e), ⟨sampleItems e⟩, _,
    Tlv8Map.parse_writeTlv rfl, rfl, rfl,
    plainPrimitives_honest.aead.decrypt_of_encrypt rfl,
    Tlv8Map.parse_writeTlv rfl, rfl, rfl,
    plainPrimitives_honest.ed25519 _ _⟩

def sampleDone (e : Arr 32) : PairVerifyClient :=
  { sampleClient with
    sharedSecret := some (sampleClient.secretWith plainPrimitives e), state := .done }

/-- An authentic M2 received while M4 is awaited is refused, and the keys are
those of the M2 accepted before it. -/
theorem done_keys_not_from_last_received_M2 :
    AuthenticM2 plainPrimitives sampleClient (sampleM2 (constArr 32 3)) (constArr 32 3) ∧
    (runs (after plainPrimitives) sampleClient
      [.start, .handle (sampleM2 (constArr 32 2)), .handle (sampleM2 (constArr 32 3))]).handle
        plainPrimitives [6, 1, 4] =
      (.ok (.done (sessionKeysOf plainPrimitives
        (sampleClient.secretWith plainPrimitives (constArr 32 2)))), sampleDone (constArr 32 2)) ∧
    sessionKeysOf plainPrimitives (sampleClient.secretWith plainPrimitives (constArr 32 2)) ≠
      sessionKeysOf plainPrimitives (sampleClient.secretWith plainPrimitives (constArr 32 3)) :=
  ⟨sampleM2_authentic _, by decide +kernel, by decide +kernel⟩

theorem done_keys_from_accepted_M2_sample :
    ∃ pre m2 post E,
      MostRecent (after plainPrimitives) (Accepts plainPrimitives) sampleClient
        [.start, .handle (sampleM2 (constArr 32 2))] pre (.handle m2) post ∧
      AuthenticM2 plainPrimitives sampleClient m2 E ∧
      sessionKeysOf plainPrimitives (sampleClient.secretWith plainPrimitives (constArr 32 2)) =
        sessionKeysOf plainPrimitives (sampleClient.secretWith plainPrimitives E) ∧
      (sampleDone (constArr 32 2)).eventKey plainPrimitives = .ok (plainPrimitives.hkdf
        (sampleClient.secretWith plainPrimitives E).val eventSalt eventReadInfo 32) ∧
      ∀ ltpk, (sampleDone (constArr 32 2)).broadcastKey plainPrimitives ltpk =
        .ok (plainPrimitives.hkdf (sampleClient.secretWith plainPrimitives E).val ltpk
          broadcastInfo 32) :=
  done_keys_from_accepted_M2 plainPrimitives _ _ _ _ [6, 1, 4] _ sampleClient _ _ rfl rfl
    (by decide +kernel)

end PairVerifyClient
end HapRust.Crypto
