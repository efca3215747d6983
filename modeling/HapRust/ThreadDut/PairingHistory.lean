import HapRust.ThreadDut.SetupAgreement

/-! Where the reference accessory's pairing record and its session come from, in
every sequence of requests and calls of `provision_controller`. -/

namespace HapRust.ThreadDut
open Lib Tlv8 Crypto

variable {P : Primitives}

/-! ## What a message proves -/

theorem handleSetupM1_progress {code : String} {salt : Bytes} {b : Nat} {m1 m2 : Bytes}
    {progress : SetupInProgress} (h : handleSetupM1 P code salt b m1 = .ok (m2, progress)) :
    ∃ server, progress = .awaitingM3 server := by
  simp only [handleSetupM1, bind_eq_ok] at h
  obtain ⟨map, -, -, -, method, -, h⟩ := h
  cases method with
  | none =>
    obtain ⟨server, -, h⟩ := bind_eq_ok.mp h
    exact ⟨server, (Prod.mk.inj (Except.ok.inj h)).2.symm⟩
  | some m =>
    obtain ⟨-, -, h⟩ := bind_eq_ok.mp h
    obtain ⟨server, -, h⟩ := bind_eq_ok.mp h
    exact ⟨server, (Prod.mk.inj (Except.ok.inj h)).2.symm⟩

variable (P) in
/-- The SRP proof of an M3 verifies, and `key` is the session key. -/
def VerifiedM3 (server : SrpServer) (m3 key : Bytes) : Prop :=
  ∃ map aPub m1 m2, Tlv8Map.parse m3 = .ok map ∧ map.get TlvType.publicKey = some aPub ∧
    map.get TlvType.proof = some m1 ∧ HapPairSetupSrpServer.sessionKey P server aPub = .ok key ∧
    HapPairSetupSrpServer.verifyM1ProveM2 P server aPub m1 = .ok m2

theorem handleSetupM3_eq_some {server : SrpServer} {m3 m4 key : Bytes}
    (h : handleSetupM3 P server m3 = .ok (m4, some key)) : VerifiedM3 P server m3 key := by
  simp only [handleSetupM3, bind_eq_ok, parseMap_eq_ok, require_eq_ok] at h
  obtain ⟨map, hmap, -, -, aPub, ha, m1, hm1, h⟩ := h
  cases hkey : HapPairSetupSrpServer.sessionKey P server aPub with
  | error e => simp [hkey] at h
  | ok K =>
    cases hproof : HapPairSetupSrpServer.verifyM1ProveM2 P server aPub m1 with
    | error e => simp [hkey, hproof] at h
    | ok m2 =>
      simp only [hkey, hproof] at h
      obtain ⟨-, hK⟩ := Prod.mk.inj (Except.ok.inj h)
      obtain rfl := Option.some.inj hK
      exact ⟨map, aPub, m1, m2, hmap, ha, hm1, hkey, hproof⟩

variable (P) in
def BegunM1 (secret : Arr 32) (m1 : Bytes) (progress : VerifyInProgress) : Prop :=
  ∃ map, Tlv8Map.parse m1 = .ok map ∧
    map.get TlvType.publicKey = some progress.controllerEphPub.val ∧
    progress.accessoryEphPub = P.x25519Public secret

theorem handleM1_eq_ok {keypair : ControllerKeypair} {id : String} {secret : Arr 32} {m1 m2 : Bytes}
    {progress : VerifyInProgress} (h : handleM1 P keypair id secret m1 = .ok (m2, progress)) :
    BegunM1 P secret m1 progress := by
  simp only [handleM1, bind_eq_ok, parseMap_eq_ok, require_eq_ok, okOr_eq_ok] at h
  obtain ⟨map, hmap, -, -, bytes, hbytes, eph, heph, key, -, sealed, -, h⟩ := h
  obtain ⟨-, rfl⟩ := Prod.mk.inj (Except.ok.inj h)
  refine ⟨map, hmap, ?_, rfl⟩
  exact bind_tryIntoArr_eq_some.mp (by rw [hbytes]; exact heph)

variable (P) in
def SignedM3 (progress : VerifyInProgress) (controller : ControllerPairing) (m3 : Bytes) : Prop :=
  ∃ map encrypted plaintext sub signature, Tlv8Map.parse m3 = .ok map ∧
    map.get TlvType.encryptedData = some encrypted ∧
    P.chacha20Poly1305.decrypt progress.pvKey (hapNonce PairVerify.nonceM3) [] encrypted =
      some plaintext ∧
    Tlv8Map.parse plaintext = .ok sub ∧
    sub.get TlvType.identifier = some (asBytes controller.1) ∧
    sub.get TlvType.signature = some signature.val ∧
    P.ed25519Verify controller.2 (progress.controllerEphPub.val ++ asBytes controller.1 ++
      progress.accessoryEphPub.val) signature = true

theorem handleM3_eq_some {progress : VerifyInProgress} {cid : String} {cltpk : Arr 32}
    {m3 m4 : Bytes} {session : AccessorySession}
    (h : handleM3 P progress cid cltpk m3 = .ok (m4, some session)) :
    SignedM3 P progress (cid, cltpk) m3 := by
  simp only [handleM3, bind_eq_ok, parseMap_eq_ok, require_eq_ok] at h
  obtain ⟨map, hmap, -, -, encrypted, henc, h⟩ := h
  cases hdec : decrypt P progress.pvKey (hapNonce PairVerify.nonceM3) [] encrypted with
  | error e => simp [hdec] at h
  | ok plaintext =>
    simp only [hdec, bind_eq_ok, parseMap_eq_ok, require_eq_ok] at h
    obtain ⟨sub, hsub, identifier, hid, h⟩ := h
    split at h
    · simp at h
    · next signature hsig =>
      split_ifs at h with hbad
      · simp at h
      · obtain ⟨hcid, hver⟩ := not_or.mp hbad
        obtain rfl := not_not.mp hcid
        exact ⟨map, encrypted, plaintext, sub, signature, hmap, henc, decrypt_eq_ok.mp hdec, hsub,
          hid, bind_tryIntoArr_eq_some.mp hsig, not_not.mp hver⟩

namespace ReferenceAccessory
variable {a a' : ReferenceAccessory}

/-! ## What a request can do -/

/-- A message of Pair Setup that proves something: an M3 or M5. -/
def IsProof (payload : Bytes) : Prop := messageState payload = some 3 ∨ messageState payload = some 5

variable (P) in
def BeginsSetup (a : ReferenceAccessory) (salt : Bytes) (b : Nat) (m1 : Bytes) (server : SrpServer) :
    Prop :=
  ∃ code m2, a.setupCode = some code ∧ messageState m1 = some 1 ∧
    handleSetupM1 P code salt b m1 = .ok (m2, .awaitingM3 server)

variable (P) in
inductive SetupEffect (a : ReferenceAccessory) (salt : Bytes) (b : Nat) (payload : Bytes) :
    ReferenceAccessory → Prop
  | refuse (h : a.setupCode = none ∨ ¬ IsProof payload)
      (hno : ∀ server, ¬ BeginsSetup P a salt b payload server) : SetupEffect a salt b payload a
  | start {server : SrpServer} (h : BeginsSetup P a salt b payload server) :
      SetupEffect a salt b payload { a with setup := some (.awaitingM3 server) }
  | fail : SetupEffect a salt b payload { a with setup := none }
  | prove {server : SrpServer} {key : Bytes} (hstate : messageState payload = some 3)
      (hsetup : a.setup = some (.awaitingM3 server)) (h : VerifiedM3 P server payload key) :
      SetupEffect a salt b payload { a with setup := some (.awaitingM5 key) }
  | complete {key : Bytes} {p : ControllerPairing} (hstate : messageState payload = some 5)
      (hsetup : a.setup = some (.awaitingM5 key)) (h : VerifiedM5 P key payload p) :
      SetupEffect a salt b payload { a with setup := none, controller := some p }

theorem setupEffect (P : Primitives) (a : ReferenceAccessory) (salt : Bytes) (b : Nat)
    (payload : Bytes) : SetupEffect P a salt b payload (a.pairSetup P salt b payload).2 := by
  unfold pairSetup
  split
  · next hcode =>
    refine .refuse (.inl hcode) ?_
    rintro server ⟨code, m2, hcode', -⟩
    rw [hcode] at hcode'
    cases hcode'
  · next code hcode =>
    split
    · next hstate =>
      split
      · next m2 progress hm1 =>
        obtain ⟨server, rfl⟩ := handleSetupM1_progress hm1
        exact .start ⟨code, m2, hcode, hstate, hm1⟩
      · next e hm1 =>
        refine .refuse (.inr ?_) ?_
        · unfold IsProof
          rw [hstate]
          decide
        · rintro server ⟨code', m2, hcode', -, hm1'⟩
          rw [hcode] at hcode'
          obtain rfl := Option.some.inj hcode'
          rw [hm1] at hm1'
          cases hm1'
    · next hstate =>
      dsimp only
      split
      · next server hsetup =>
        split
        · next m4 key hm3 => exact .prove hstate hsetup (handleSetupM3_eq_some hm3)
        · exact .fail
        · exact .fail
      · exact .fail
    · next hstate =>
      dsimp only
      split
      · next key hsetup =>
        split
        · next m6 p hm5 => exact .complete hstate hsetup (handleSetupM5_eq_some hm5)
        · exact .fail
        · exact .fail
      · exact .fail
    · next hone hthree hfive =>
      refine .refuse (.inr (not_or.mpr ⟨hthree, hfive⟩)) ?_
      rintro server ⟨code', m2, -, hstate, -⟩
      exact hone hstate

variable (P) in
def BeginsVerify (a : ReferenceAccessory) (secret : Arr 32) (m1 : Bytes)
    (progress : VerifyInProgress) : Prop :=
  messageState m1 = some 1 ∧ ∃ m2, handleM1 P a.keypair a.pairingId secret m1 = .ok (m2, progress)

variable (P) in
inductive VerifyEffect (a : ReferenceAccessory) (secret : Arr 32) (payload : Bytes) :
    ReferenceAccessory → Prop
  | refuse (hno : ∀ progress, ¬ BeginsVerify P a secret payload progress) :
      VerifyEffect a secret payload a
  | start {progress : VerifyInProgress} (h : BeginsVerify P a secret payload progress) :
      VerifyEffect a secret payload { a with verify := some progress }
  | fail : VerifyEffect a secret payload { a with verify := none }
  | establish {progress : VerifyInProgress} {controller : ControllerPairing}
      {session : AccessorySession} (hstate : messageState payload = some 3)
      (hverify : a.verify = some progress) (hcontroller : a.controller = some controller)
      (h : SignedM3 P progress controller payload) :
      VerifyEffect a secret payload { a with verify := none, session := some session }

theorem verifyEffect (P : Primitives) (a : ReferenceAccessory) (secret : Arr 32) (payload : Bytes) :
    VerifyEffect P a secret payload (a.pairVerify P secret payload).2 := by
  unfold pairVerify
  split
  · next hstate =>
    split
    · next m2 progress hm1 => exact .start ⟨hstate, m2, hm1⟩
    · next e hm1 =>
      refine .refuse ?_
      rintro progress ⟨-, m2, hm1'⟩
      rw [hm1] at hm1'
      cases hm1'
  · next hstate =>
    dsimp only
    split
    · next progress cid cltpk hverify hcontroller =>
      split
      · next m4 session hm3 => exact .establish hstate hverify hcontroller (handleM3_eq_some hm3)
      · exact .fail
      · exact .fail
    · exact .fail
  · next hone hthree => exact .refuse fun progress h => hone h.1

/-! ## Histories -/

inductive Action where
  | provision (p : ControllerPairing)
  | request (i : Input)

variable (P) in
def act (a : ReferenceAccessory) : Action → ReferenceAccessory
  | .provision p => a.provisionController p
  | .request i => a.after P i

variable (P) in
def StartsSetup (a : ReferenceAccessory) : Action → Prop
  | .request (.pairSetup salt b payload) => ∃ server, BeginsSetup P a salt b payload server
  | _ => False

variable (P) in
def StartsVerify (a : ReferenceAccessory) : Action → Prop
  | .request (.pairVerify secret payload) => ∃ progress, BeginsVerify P a secret payload progress
  | _ => False

def Proves : Action → Prop
  | .request (.pairSetup _ _ payload) => IsProof payload
  | _ => False

section
variable (P) (a₀ : ReferenceAccessory) (actions : List Action)

def Open (server : SrpServer) : Prop :=
  ∃ pre salt b m1 post, MostRecent (act P) (StartsSetup P) a₀ actions pre
      (.request (.pairSetup salt b m1)) post ∧
    BeginsSetup P (runs (act P) a₀ pre) salt b m1 server ∧ ∀ x ∈ post, ¬ Proves x

def Proven (key : Bytes) : Prop :=
  ∃ pre salt b m1 server mid salt' b' m3 post, MostRecent (act P) (StartsSetup P) a₀ actions pre
      (.request (.pairSetup salt b m1)) (mid ++ .request (.pairSetup salt' b' m3) :: post) ∧
    BeginsSetup P (runs (act P) a₀ pre) salt b m1 server ∧ VerifiedM3 P server m3 key ∧
    ∀ x ∈ mid ++ post, ¬ Proves x

def Begun (progress : VerifyInProgress) : Prop :=
  ∃ pre secret m1 post, MostRecent (act P) (StartsVerify P) a₀ actions pre
      (.request (.pairVerify secret m1)) post ∧ BegunM1 P secret m1 progress

/-- The record was set by `provision_controller`, or by an M5 that verified under a proven
session key. -/
def Recorded (p : ControllerPairing) : Prop :=
  ∃ pre x post, actions = pre ++ x :: post ∧
    (∀ later, later <+: post → (runs (act P) a₀ (pre ++ x :: later)).controller = some p) ∧
    (x = .provision p ∨ ∃ salt b m5 key, x = .request (.pairSetup salt b m5) ∧
      Proven P a₀ pre key ∧ VerifiedM5 P key m5 p)

/-- An M3 of Pair Verify carried a signature of the controller recorded then, over the ephemeral
keys of the latest M1. -/
def Established : Prop :=
  ∃ pre secret m3 post progress controller,
    actions = pre ++ .request (.pairVerify secret m3) :: post ∧
    (runs (act P) a₀ pre).controller = some controller ∧ Begun P a₀ pre progress ∧
    SignedM3 P progress controller m3

end

variable {a₀ : ReferenceAccessory} {actions : List Action} {x : Action} {key : Bytes}
  {p : ControllerPairing} {server : SrpServer} {progress : VerifyInProgress}

theorem Open.snoc (h : Open P a₀ actions server)
    (hstart : ¬ StartsSetup P (runs (act P) a₀ actions) x) (hproves : ¬ Proves x) :
    Open P a₀ (actions ++ [x]) server := by
  obtain ⟨pre, salt, b, m1, post, hrecent, hbegins, hpost⟩ := h
  refine ⟨pre, salt, b, m1, post ++ [x], hrecent.snoc hstart, hbegins, ?_⟩
  intro y hy
  rcases List.mem_append.mp hy with hy | hy
  · exact hpost y hy
  · rwa [List.mem_singleton.mp hy]

theorem Open.prove {salt m3 : Bytes} {b : Nat} (h : Open P a₀ actions server)
    (hstart : ¬ StartsSetup P (runs (act P) a₀ actions) (.request (.pairSetup salt b m3)))
    (hkey : VerifiedM3 P server m3 key) :
    Proven P a₀ (actions ++ [.request (.pairSetup salt b m3)]) key := by
  obtain ⟨pre, salt₁, b₁, m1, post, hrecent, hbegins, hpost⟩ := h
  refine ⟨pre, salt₁, b₁, m1, server, post, salt, b, m3, [], hrecent.snoc hstart, hbegins, hkey, ?_⟩
  rwa [List.append_nil]

theorem Proven.snoc (h : Proven P a₀ actions key)
    (hstart : ¬ StartsSetup P (runs (act P) a₀ actions) x) (hproves : ¬ Proves x) :
    Proven P a₀ (actions ++ [x]) key := by
  obtain ⟨pre, salt, b, m1, server, mid, salt', b', m3, post, hrecent, hbegins, hkey, hpost⟩ := h
  refine ⟨pre, salt, b, m1, server, mid, salt', b', m3, post ++ [x], ?_, hbegins, hkey, ?_⟩
  · rw [← List.cons_append, ← List.append_assoc]
    exact hrecent.snoc hstart
  · intro y hy
    rw [← List.append_assoc] at hy
    rcases List.mem_append.mp hy with hy | hy
    · exact hpost y hy
    · rwa [List.mem_singleton.mp hy]

theorem Begun.snoc (h : Begun P a₀ actions progress)
    (hstart : ¬ StartsVerify P (runs (act P) a₀ actions) x) :
    Begun P a₀ (actions ++ [x]) progress := by
  obtain ⟨pre, secret, m1, post, hrecent, hm1⟩ := h
  exact ⟨pre, secret, m1, post ++ [x], hrecent.snoc hstart, hm1⟩

theorem Recorded.snoc (h : Recorded P a₀ actions p)
    (hkeep : (runs (act P) a₀ (actions ++ [x])).controller = some p) :
    Recorded P a₀ (actions ++ [x]) p := by
  obtain ⟨pre, y, post, rfl, hpost, hy⟩ := h
  rw [List.append_assoc, List.cons_append] at hkeep ⊢
  refine ⟨pre, y, post ++ [x], rfl, ?_, hy⟩
  intro later hlater
  rcases List.prefix_concat_iff.mp hlater with rfl | hlater
  · exact hkeep
  · exact hpost later hlater

theorem Recorded.now (hset : (act P (runs (act P) a₀ actions) x).controller = some p)
    (hx : x = .provision p ∨ ∃ salt b m5 key, x = .request (.pairSetup salt b m5) ∧
      Proven P a₀ actions key ∧ VerifiedM5 P key m5 p) : Recorded P a₀ (actions ++ [x]) p := by
  refine ⟨actions, x, [], rfl, ?_, hx⟩
  intro later hlater
  rwa [List.prefix_nil.mp hlater, runs_snoc]

theorem Established.snoc (h : Established P a₀ actions) : Established P a₀ (actions ++ [x]) := by
  obtain ⟨pre, secret, m3, post, progress, controller, rfl, hrest⟩ := h
  exact ⟨pre, secret, m3, post ++ [x], progress, controller, by simp, hrest⟩

variable (P) in
structure Inv (a₀ : ReferenceAccessory) (actions : List Action) (a : ReferenceAccessory) : Prop where
  disabled : a.setupCode = none → a.setup = none
  awaitingM3 : ∀ {server}, a.setup = some (.awaitingM3 server) → Open P a₀ actions server
  awaitingM5 : ∀ {key}, a.setup = some (.awaitingM5 key) → Proven P a₀ actions key
  verify : ∀ {progress}, a.verify = some progress → Begun P a₀ actions progress
  controller : ∀ {p}, a.controller = some p → Recorded P a₀ actions p
  session : a.session.isSome → Established P a₀ actions

theorem Inv.same (h : Inv P a₀ actions a) (hstep : runs (act P) a₀ (actions ++ [x]) = a')
    (hcontroller : a'.controller = a.controller) (hp : a'.controller = some p) :
    Recorded P a₀ (actions ++ [x]) p :=
  (h.controller (hcontroller.symm.trans hp)).snoc (hstep.symm ▸ hp)

theorem Inv.keep (h : Inv P a₀ actions a) (hstart : ¬ StartsSetup P (runs (act P) a₀ actions) x)
    (hproves : ¬ Proves x) (hcode : a'.setupCode = a.setupCode) (hsetup : a'.setup = a.setup)
    (hverify : ∀ {progress}, a'.verify = some progress → Begun P a₀ (actions ++ [x]) progress)
    (hcontroller : ∀ {p}, a'.controller = some p → Recorded P a₀ (actions ++ [x]) p)
    (hsession : a'.session.isSome → Established P a₀ (actions ++ [x])) :
    Inv P a₀ (actions ++ [x]) a' where
  disabled hnone := hsetup.trans (h.disabled (hcode.symm.trans hnone))
  awaitingM3 hs := (h.awaitingM3 (hsetup.symm.trans hs)).snoc hstart hproves
  awaitingM5 hs := (h.awaitingM5 (hsetup.symm.trans hs)).snoc hstart hproves
  verify := hverify
  controller := hcontroller
  session := hsession

theorem inv_pairVerify {secret : Arr 32} {payload : Bytes} (ha : runs (act P) a₀ actions = a)
    (h : Inv P a₀ actions a) :
    Inv P a₀ (actions ++ [.request (.pairVerify secret payload)]) (a.pairVerify P secret payload).2 := by
  have hstep : runs (act P) a₀ (actions ++ [.request (.pairVerify secret payload)]) =
      (a.pairVerify P secret payload).2 := by
    rw [runs_snoc, ha]
    rfl
  have heffect := verifyEffect P a secret payload
  generalize (a.pairVerify P secret payload).2 = a' at hstep heffect
  cases heffect with
  | refuse hno =>
    refine h.keep id id rfl rfl ?_ (h.same hstep rfl) fun hs => (h.session hs).snoc
    intro progress hp
    refine (h.verify hp).snoc ?_
    rintro ⟨progress', hbegins⟩
    exact hno progress' (ha ▸ hbegins)
  | @start progress hbegins =>
    refine h.keep id id rfl rfl ?_ (h.same hstep rfl) fun hs => (h.session hs).snoc
    intro progress' hp
    obtain rfl := Option.some.inj hp
    have hnow : StartsVerify P (runs (act P) a₀ actions) (.request (.pairVerify secret payload)) :=
      ⟨progress, ha ▸ hbegins⟩
    obtain ⟨-, m2, hm1⟩ := hbegins
    exact ⟨actions, secret, payload, [], .now hnow, handleM1_eq_ok hm1⟩
  | fail =>
    exact h.keep id id rfl rfl nofun (h.same hstep rfl)
      fun hs => (h.session hs).snoc
  | @establish progress controller session hstate hverify hcontroller hsigned =>
    refine h.keep id id rfl rfl nofun (h.same hstep rfl) fun _ => ?_
    exact ⟨actions, secret, payload, [], progress, controller, rfl, ha ▸ hcontroller,
      h.verify hverify, hsigned⟩

theorem not_startsSetup {salt payload : Bytes} {b : Nat} {n : UInt8} (hn : n ≠ 1)
    (hstate : messageState payload = some n) :
    ¬ StartsSetup P a (.request (.pairSetup salt b payload)) := by
  rintro ⟨server, code, m2, -, hone, -⟩
  rw [hstate] at hone
  exact hn (Option.some.inj hone)

theorem inv_pairSetup {salt payload : Bytes} {b : Nat} (ha : runs (act P) a₀ actions = a)
    (h : Inv P a₀ actions a) :
    Inv P a₀ (actions ++ [.request (.pairSetup salt b payload)]) (a.pairSetup P salt b payload).2 := by
  have hstep : runs (act P) a₀ (actions ++ [.request (.pairSetup salt b payload)]) =
      (a.pairSetup P salt b payload).2 := by
    rw [runs_snoc, ha]
    rfl
  have heffect := setupEffect P a salt b payload
  generalize (a.pairSetup P salt b payload).2 = a' at hstep heffect
  have hverify : ∀ {progress}, a.verify = some progress →
      Begun P a₀ (actions ++ [.request (.pairSetup salt b payload)]) progress :=
    fun hp => (h.verify hp).snoc id
  have hsession : a.session.isSome →
      Established P a₀ (actions ++ [.request (.pairSetup salt b payload)]) :=
    fun hs => (h.session hs).snoc
  cases heffect with
  | refuse hrefuse hno =>
    have hstart : ¬ StartsSetup P (runs (act P) a₀ actions) (.request (.pairSetup salt b payload)) := by
      rintro ⟨server, hbegins⟩
      exact hno server (ha ▸ hbegins)
    rcases hrefuse with hcode | hproof
    · have hnone := h.disabled hcode
      refine ⟨h.disabled, ?_, ?_, hverify, h.same hstep rfl, hsession⟩
      · intro server hs
        rw [hnone] at hs
        cases hs
      · intro key hs
        rw [hnone] at hs
        cases hs
    · exact h.keep hstart hproof rfl rfl hverify (h.same hstep rfl) hsession
  | @start server hbegins =>
    refine ⟨?_, ?_, nofun, hverify, h.same hstep rfl, hsession⟩
    · intro hnone
      obtain ⟨code, m2, hcode, -⟩ := hbegins
      cases hcode.symm.trans hnone
    · intro server' hs
      obtain rfl := SetupInProgress.awaitingM3.inj (Option.some.inj hs)
      exact ⟨actions, salt, b, payload, [], .now ⟨server, ha ▸ hbegins⟩, ha ▸ hbegins,
        nofun⟩
  | fail =>
    exact ⟨fun _ => rfl, nofun, nofun, hverify, h.same hstep rfl,
      hsession⟩
  | @prove server key hstate hsetup hkey =>
    refine ⟨?_, nofun, ?_, hverify, h.same hstep rfl, hsession⟩
    · intro hnone
      cases (h.disabled hnone).symm.trans hsetup
    · intro key' hs
      obtain rfl := SetupInProgress.awaitingM5.inj (Option.some.inj hs)
      exact (h.awaitingM3 hsetup).prove (not_startsSetup (by decide) hstate) hkey
  | @complete key p hstate hsetup hm5 =>
    refine ⟨fun _ => rfl, nofun, nofun, hverify, ?_, hsession⟩
    intro p' hp
    obtain rfl := Option.some.inj hp
    refine .now ?_ (.inr ⟨salt, b, payload, key, rfl, h.awaitingM5 hsetup, hm5⟩)
    rw [← runs_snoc (act P), hstep]

theorem inv_act (ha : runs (act P) a₀ actions = a) (h : Inv P a₀ actions a) (x : Action) :
    Inv P a₀ (actions ++ [x]) (act P a x) := by
  have hstep : runs (act P) a₀ (actions ++ [x]) = act P a x := by rw [runs_snoc, ha]
  have hverify {x : Action} (hx : ¬ StartsVerify P (runs (act P) a₀ actions) x) {progress}
      (hp : a.verify = some progress) : Begun P a₀ (actions ++ [x]) progress :=
    (h.verify hp).snoc hx
  cases x with
  | provision p =>
    refine h.keep id id rfl rfl (hverify id) ?_ fun hs => (h.session hs).snoc
    intro p' hp
    obtain rfl := Option.some.inj hp
    exact .now rfl (.inl rfl)
  | request i =>
    cases i with
    | pairSetup => exact inv_pairSetup ha h
    | pairVerify => exact inv_pairVerify ha h
    | secure payload =>
      obtain ⟨isOn, subscriptions, session, hsome, hframe⟩ := a.securePdu_frame P payload
      have hresult : act P a (.request (.secure payload)) = _ := hframe
      rw [hresult] at hstep ⊢
      exact h.keep id id rfl rfl (hverify id) (h.same hstep rfl) fun hs => (h.session (hsome hs)).snoc
    | identify | unknown =>
      exact h.keep id id rfl rfl (hverify id) (h.same hstep rfl) fun hs => (h.session hs).snoc

theorem inv_runs (pairingId : String) (signing : Arr 32) (code : Option String)
    (actions : List Action) :
    Inv P (new pairingId signing code) actions
      (runs (act P) (new pairingId signing code) actions) := by
  induction actions using List.reverseRecOn with
  | nil => exact ⟨fun _ => rfl, nofun, nofun, nofun, nofun, nofun⟩
  | append_singleton actions x ih =>
    rw [runs_snoc]
    exact inv_act rfl ih x

/-- In every reachable state, the record was set by `provision_controller` or by the M5 of an
exchange whose M3 verified; a session was established by a signed M3; and after an M3 or M5
that fails or comes out of order, no exchange is left. -/
theorem pairing_history (P : Primitives) (pairingId : String) (signing : Arr 32)
    (code : Option String) (actions : List Action) (a₀ a : ReferenceAccessory)
    (ha₀ : a₀ = new pairingId signing code) (ha : a = runs (act P) a₀ actions) :
    (∀ p, a.controller = some p → Recorded P a₀ actions p) ∧
    (a.session.isSome → Established P a₀ actions) ∧
    ∀ salt b payload, IsProof payload →
      (∀ server key, messageState payload = some 3 → a.setup = some (.awaitingM3 server) →
        ¬ VerifiedM3 P server payload key) →
      (a.pairSetup P salt b payload).2.setup = none := by
  have hinv : Inv P a₀ actions a := by
    rw [ha, ha₀]
    exact inv_runs pairingId signing code actions
  refine ⟨fun p => hinv.controller, hinv.session, ?_⟩
  intro salt b payload hproof hfails
  have heffect := setupEffect P a salt b payload
  generalize (a.pairSetup P salt b payload).2 = a' at heffect
  cases heffect with
  | refuse hrefuse hno =>
    rcases hrefuse with hcode | hother
    · exact hinv.disabled hcode
    · exact absurd hproof hother
  | start hbegins =>
    obtain ⟨code', m2, -, hstate, -⟩ := hbegins
    rcases hproof with hproof | hproof <;> cases hstate.symm.trans hproof
  | fail => rfl
  | @prove server key hstate hsetup hkey => exact absurd hkey (hfails server key hstate hsetup)
  | complete => rfl

def setupM3 : Bytes :=
  writeTlv [(TlvType.state, [3]), (TlvType.publicKey, PairSetupClient.sampleSetup.srp.aPubBytes),
    (TlvType.proof, [2])]

def verifyM1 : Bytes :=
  writeTlv [(TlvType.state, [1]), (TlvType.publicKey, (constArr 32 1).val)]

def verifyM3 : Bytes :=
  let key := plainPrimitives.hkdf (plainPrimitives.x25519 (constArr 32 2) (constArr 32 1)).val
    PairVerify.encryptSalt PairVerify.encryptInfo 32
  writeTlv [(TlvType.state, [3]), (TlvType.encryptedData,
    key.val ++ (hapNonce PairVerify.nonceM3).val ++ [] ++
      writeTlv (proofItems (asBytes "controller") (plainPrimitives.ed25519Sign (constArr 32 7)
        ((constArr 32 1).val ++ asBytes "controller" ++ (constArr 32 2).val))))]

def pairedRun : List Action :=
  [.request (.pairSetup [1] 2 PairSetupClient.sampleSetup.start.1),
    .request (.pairSetup [] 0 setupM3), .request (.pairSetup [] 0 PairSetupClient.sampleSetupM5),
    .request (.pairVerify (constArr 32 2) verifyM1), .request (.pairVerify (constArr 32 0) verifyM3)]

theorem pairing_history_sample : ∃ a₀ a, a₀ = new "accessory" (constArr 32 9) (some "123-45-678") ∧
    a = runs (act plainPrimitives) a₀ pairedRun ∧
    Recorded plainPrimitives a₀ pairedRun ("controller", constArr 32 7) ∧
    Established plainPrimitives a₀ pairedRun ∧
    (a.pairSetup plainPrimitives [] 0 setupM3).2.setup = none := by
  have hrun : (runs (act plainPrimitives) (new "accessory" (constArr 32 9) (some "123-45-678"))
        pairedRun).controller = some ("controller", constArr 32 7) ∧
      (runs (act plainPrimitives) (new "accessory" (constArr 32 9) (some "123-45-678"))
        pairedRun).session.isSome ∧
      (runs (act plainPrimitives) (new "accessory" (constArr 32 9) (some "123-45-678"))
        pairedRun).setup = none := by decide +kernel
  obtain ⟨hcontroller, hsession, hsetup⟩ := hrun
  obtain ⟨hrecord, hestablished, hproofs⟩ := pairing_history plainPrimitives "accessory"
    (constArr 32 9) (some "123-45-678") pairedRun _ _ rfl rfl
  refine ⟨_, _, rfl, rfl, hrecord _ hcontroller, hestablished hsession, ?_⟩
  refine hproofs [] 0 setupM3 (.inl (by decide +kernel)) ?_
  intro server key _ hawaiting
  cases hsetup.symm.trans hawaiting

end ReferenceAccessory
end HapRust.ThreadDut
