import HapRust.Crypto.Primitives
import HapRust.Lib.ModArith

/-! SRP-6a, both sides, over an arbitrary group and an arbitrary hash `H`. -/

namespace HapRust.Crypto
open Lib

structure SrpGroup where
  n : Nat
  g : Nat
  nLen : Nat
  n_ne_zero : n ≠ 0
  nLen_eq : nLen = (n.log2 + 1 + 7) / 8
  deriving DecidableEq

def SrpGroup.ofModulus (n g : Nat) (h : n ≠ 0) : SrpGroup := ⟨n, g, (n.log2 + 1 + 7) / 8, h, rfl⟩

def SrpGroup.new (nBe gBe : Bytes) : Except CryptoError SrpGroup :=
  if h : beNat nBe = 0 then .error (.srpBadParameters "group modulus N is zero")
  else .ok (.ofModulus (beNat nBe) (beNat gBe) h)

theorem SrpGroup.new_ok {nBe : Bytes} (gBe : Bytes) (h : beNat nBe ≠ 0) :
    SrpGroup.new nBe gBe = .ok (.ofModulus (beNat nBe) (beNat gBe) h) := dif_neg h

def hapN3072 : Bytes := [
  0xFF, 0xFF, 0xFF, 0xFF, 0xFF, 0xFF, 0xFF, 0xFF, 0xC9, 0x0F, 0xDA, 0xA2, 0x21, 0x68, 0xC2, 0x34,
  0xC4, 0xC6, 0x62, 0x8B, 0x80, 0xDC, 0x1C, 0xD1, 0x29, 0x02, 0x4E, 0x08, 0x8A, 0x67, 0xCC, 0x74,
  0x02, 0x0B, 0xBE, 0xA6, 0x3B, 0x13, 0x9B, 0x22, 0x51, 0x4A, 0x08, 0x79, 0x8E, 0x34, 0x04, 0xDD,
  0xEF, 0x95, 0x19, 0xB3, 0xCD, 0x3A, 0x43, 0x1B, 0x30, 0x2B, 0x0A, 0x6D, 0xF2, 0x5F, 0x14, 0x37,
  0x4F, 0xE1, 0x35, 0x6D, 0x6D, 0x51, 0xC2, 0x45, 0xE4, 0x85, 0xB5, 0x76, 0x62, 0x5E, 0x7E, 0xC6,
  0xF4, 0x4C, 0x42, 0xE9, 0xA6, 0x37, 0xED, 0x6B, 0x0B, 0xFF, 0x5C, 0xB6, 0xF4, 0x06, 0xB7, 0xED,
  0xEE, 0x38, 0x6B, 0xFB, 0x5A, 0x89, 0x9F, 0xA5, 0xAE, 0x9F, 0x24, 0x11, 0x7C, 0x4B, 0x1F, 0xE6,
  0x49, 0x28, 0x66, 0x51, 0xEC, 0xE4, 0x5B, 0x3D, 0xC2, 0x00, 0x7C, 0xB8, 0xA1, 0x63, 0xBF, 0x05,
  0x98, 0xDA, 0x48, 0x36, 0x1C, 0x55, 0xD3, 0x9A, 0x69, 0x16, 0x3F, 0xA8, 0xFD, 0x24, 0xCF, 0x5F,
  0x83, 0x65, 0x5D, 0x23, 0xDC, 0xA3, 0xAD, 0x96, 0x1C, 0x62, 0xF3, 0x56, 0x20, 0x85, 0x52, 0xBB,
  0x9E, 0xD5, 0x29, 0x07, 0x70, 0x96, 0x96, 0x6D, 0x67, 0x0C, 0x35, 0x4E, 0x4A, 0xBC, 0x98, 0x04,
  0xF1, 0x74, 0x6C, 0x08, 0xCA, 0x18, 0x21, 0x7C, 0x32, 0x90, 0x5E, 0x46, 0x2E, 0x36, 0xCE, 0x3B,
  0xE3, 0x9E, 0x77, 0x2C, 0x18, 0x0E, 0x86, 0x03, 0x9B, 0x27, 0x83, 0xA2, 0xEC, 0x07, 0xA2, 0x8F,
  0xB5, 0xC5, 0x5D, 0xF0, 0x6F, 0x4C, 0x52, 0xC9, 0xDE, 0x2B, 0xCB, 0xF6, 0x95, 0x58, 0x17, 0x18,
  0x39, 0x95, 0x49, 0x7C, 0xEA, 0x95, 0x6A, 0xE5, 0x15, 0xD2, 0x26, 0x18, 0x98, 0xFA, 0x05, 0x10,
  0x15, 0x72, 0x8E, 0x5A, 0x8A, 0xAA, 0xC4, 0x2D, 0xAD, 0x33, 0x17, 0x0D, 0x04, 0x50, 0x7A, 0x33,
  0xA8, 0x55, 0x21, 0xAB, 0xDF, 0x1C, 0xBA, 0x64, 0xEC, 0xFB, 0x85, 0x04, 0x58, 0xDB, 0xEF, 0x0A,
  0x8A, 0xEA, 0x71, 0x57, 0x5D, 0x06, 0x0C, 0x7D, 0xB3, 0x97, 0x0F, 0x85, 0xA6, 0xE1, 0xE4, 0xC7,
  0xAB, 0xF5, 0xAE, 0x8C, 0xDB, 0x09, 0x33, 0xD7, 0x1E, 0x8C, 0x94, 0xE0, 0x4A, 0x25, 0x61, 0x9D,
  0xCE, 0xE3, 0xD2, 0x26, 0x1A, 0xD2, 0xEE, 0x6B, 0xF1, 0x2F, 0xFA, 0x06, 0xD9, 0x8A, 0x08, 0x64,
  0xD8, 0x76, 0x02, 0x73, 0x3E, 0xC8, 0x6A, 0x64, 0x52, 0x1F, 0x2B, 0x18, 0x17, 0x7B, 0x20, 0x0C,
  0xBB, 0xE1, 0x17, 0x57, 0x7A, 0x61, 0x5D, 0x6C, 0x77, 0x09, 0x88, 0xC0, 0xBA, 0xD9, 0x46, 0xE2,
  0x08, 0xE2, 0x4F, 0xA0, 0x74, 0xE5, 0xAB, 0x31, 0x43, 0xDB, 0x5B, 0xFC, 0xE0, 0xFD, 0x10, 0x8E,
  0x4B, 0x82, 0xD1, 0x20, 0xA9, 0x3A, 0xD2, 0xCA, 0xFF, 0xFF, 0xFF, 0xFF, 0xFF, 0xFF, 0xFF, 0xFF]

def hapGroup : Except CryptoError SrpGroup := SrpGroup.new hapN3072 [5]

theorem hapN3072_ne_zero : beNat hapN3072 ≠ 0 := by decide +kernel

def hap3072 : SrpGroup := .ofModulus (beNat hapN3072) (beNat [5]) hapN3072_ne_zero

theorem hapGroup_ok : hapGroup = .ok hap3072 := SrpGroup.new_ok [5] hapN3072_ne_zero

def SrpGroup.pad (group : SrpGroup) (value : Nat) : Bytes := padLeft group.nLen (beBytes value)

@[simp] theorem SrpGroup.beNat_pad (group : SrpGroup) (value : Nat) :
    beNat (group.pad value) = value := by
  rw [SrpGroup.pad, beNat_padLeft, beNat_beBytes]

variable (H : Bytes → Bytes)

def computeK (group : SrpGroup) : Nat := beNat (H (beBytes group.n ++ group.pad group.g))

def computeX (salt username password : Bytes) : Nat :=
  beNat (H (salt ++ H (username ++ [58] ++ password)))

def computeV (group : SrpGroup) (x : Nat) : Nat := modpow group.g x group.n

def computeU (group : SrpGroup) (aPub bPub : Nat) : Nat :=
  beNat (H (group.pad aPub ++ group.pad bPub))

def computeB (group : SrpGroup) (k v bPriv : Nat) : Nat :=
  (k * v % group.n + modpow group.g bPriv group.n) % group.n

def proofM1 (group : SrpGroup) (username salt : Bytes) (aPub bPub : Nat) (sessionKey : Bytes) :
    Bytes :=
  let hXor := List.zipWith (· ^^^ ·) (H (beBytes group.n)) (H (beBytes group.g))
  H (hXor ++ H username ++ salt ++ group.pad aPub ++ group.pad bPub ++ sessionKey)

def proofM2 (group : SrpGroup) (aPub : Nat) (m1 sessionKey : Bytes) : Bytes :=
  H (group.pad aPub ++ m1 ++ sessionKey)

structure SrpServer where
  group : SrpGroup
  username : Bytes
  salt : Bytes
  v : Nat
  b : Nat
  bPub : Nat
  deriving DecidableEq

namespace SrpServer

def withSaltAndPrivate (group : SrpGroup) (username password salt : Bytes) (b : Nat) : SrpServer :=
  let v := computeV group (computeX H salt username password)
  ⟨group, username, salt, v, b, computeB group (computeK H group) v b⟩

def bPubBytes (s : SrpServer) : Bytes := s.group.pad s.bPub

def sessionKey (s : SrpServer) (aPub : Nat) : Except CryptoError Bytes := do
  ensure (aPub % s.group.n ≠ 0) (.srpBadParameters "client public A is zero mod N")
  let u := computeU H s.group aPub s.bPub
  ensure (u ≠ 0) .srpProofMismatch
  let vu := modpow s.v u s.group.n
  let base := aPub * vu % s.group.n
  let premaster := modpow base s.b s.group.n
  return H (s.group.pad premaster)

def verifyM1ProveM2 (s : SrpServer) (aPub : Nat) (sessionKey receivedM1 : Bytes) :
    Except CryptoError Bytes := do
  ensure (proofM1 H s.group s.username s.salt aPub s.bPub sessionKey = receivedM1)
    .srpProofMismatch
  return proofM2 H s.group aPub receivedM1 sessionKey

theorem sessionKey_ok {s : SrpServer} {aPub : Nat} (hA : aPub % s.group.n ≠ 0)
    (hu : computeU H s.group aPub s.bPub ≠ 0) :
    s.sessionKey H aPub = .ok (H (s.group.pad (modpow
      (aPub * modpow s.v (computeU H s.group aPub s.bPub) s.group.n % s.group.n) s.b
        s.group.n))) := by
  simp only [sessionKey, ensure_of hA, ensure_of hu, ok_bind]
  rfl

end SrpServer

structure SrpClient where
  group : SrpGroup
  username : Bytes
  a : Nat
  aPub : Nat
  deriving DecidableEq

namespace SrpClient

def withPrivate (group : SrpGroup) (username : Bytes) (a : Nat) : Except CryptoError SrpClient := do
  let aPub := modpow group.g a group.n
  ensure (aPub % group.n ≠ 0) (.srpBadParameters "client public A is zero mod N")
  return ⟨group, username, a, aPub⟩

def aPubBytes (c : SrpClient) : Bytes := c.group.pad c.aPub

def premaster (c : SrpClient) (salt password : Bytes) (bPub : Nat) : Except CryptoError Nat := do
  ensure (bPub % c.group.n ≠ 0) (.srpBadParameters "server public B is zero mod N")
  let k := computeK H c.group
  let x := computeX H salt c.username password
  let u := computeU H c.group c.aPub bPub
  ensure (u ≠ 0) .srpProofMismatch
  let gx := modpow c.group.g x c.group.n
  let kgx := k * gx % c.group.n
  return modpow (modsub bPub kgx c.group.n) (c.a + u * x) c.group.n

def sessionKey (c : SrpClient) (premaster : Nat) : Bytes := H (c.group.pad premaster)

def proofM1 (c : SrpClient) (salt : Bytes) (bPub : Nat) (sessionKey : Bytes) : Bytes :=
  Crypto.proofM1 H c.group c.username salt c.aPub bPub sessionKey

def expectedM2 (c : SrpClient) (m1 sessionKey : Bytes) : Bytes :=
  proofM2 H c.group c.aPub m1 sessionKey

def verifyM2 (c : SrpClient) (m1 sessionKey received : Bytes) : Except CryptoError Unit :=
  ensure (c.expectedM2 H m1 sessionKey = received) .srpProofMismatch

theorem withPrivate_eq_ok {group : SrpGroup} {username : Bytes} {a : Nat} {c : SrpClient}
    (h : withPrivate group username a = .ok c) :
    c = ⟨group, username, a, modpow group.g a group.n⟩ ∧ c.aPub % group.n ≠ 0 := by
  simp only [withPrivate, bind_eq_ok, ensure_eq_ok] at h
  obtain ⟨_, hA, hc⟩ := h
  obtain rfl := (Except.ok.inj hc).symm
  exact ⟨rfl, hA⟩

theorem premaster_ok {c : SrpClient} {salt password : Bytes} {bPub : Nat}
    (hB : bPub % c.group.n ≠ 0) (hu : computeU H c.group c.aPub bPub ≠ 0) :
    c.premaster H salt password bPub = .ok (modpow
      (modsub bPub (computeK H c.group * modpow c.group.g (computeX H salt c.username password)
        c.group.n % c.group.n) c.group.n)
      (c.a + computeU H c.group c.aPub bPub * computeX H salt c.username password) c.group.n) := by
  simp only [premaster, ensure_of hB, ensure_of hu, ok_bind]
  rfl

end SrpClient

/-! ## Agreement -/

section Agreement
variable (group : SrpGroup) (a b u x : Nat)

theorem clientBase_modEq (k : Nat) :
    modsub (computeB group k (computeV group x) b) (k * modpow group.g x group.n % group.n)
      group.n ≡ group.g ^ b [MOD group.n] := by
  have hpos : 0 < group.n := Nat.pos_of_ne_zero group.n_ne_zero
  refine modsub_modEq (Nat.mod_lt _ hpos).le ?_
  exact (Nat.mod_modEq _ _).trans ((modpow_modEq _ _ _).add_left _)

theorem serverBase_modEq :
    modpow group.g a group.n * modpow (computeV group x) u group.n % group.n ≡
      group.g ^ (a + u * x) [MOD group.n] := by
  have hv : modpow (computeV group x) u group.n ≡ group.g ^ (u * x) [MOD group.n] := by
    rw [computeV, modpow_of_modEq_pow u (modpow_modEq group.g x group.n), mul_comm u x]
    exact Nat.mod_modEq _ _
  rw [pow_add]
  exact (Nat.mod_modEq _ _).trans ((modpow_modEq _ _ _).mul hv)

theorem premaster_agree (k : Nat) :
    modpow (modsub (computeB group k (computeV group x) b)
        (k * modpow group.g x group.n % group.n) group.n) (a + u * x) group.n =
      modpow (modpow group.g a group.n * modpow (computeV group x) u group.n % group.n) b
        group.n := by
  rw [modpow_of_modEq_pow _ (clientBase_modEq group b x k),
    modpow_of_modEq_pow _ (serverBase_modEq group a u x), mul_comm b]

end Agreement

section Exchange
variable {H} {group : SrpGroup} {username password salt : Bytes} {a b : Nat} {client : SrpClient}

theorem sessionKey_agree (hclient : SrpClient.withPrivate group username a = .ok client)
    {server : SrpServer}
    (hserver : server = SrpServer.withSaltAndPrivate H group username password salt b)
    (hB : server.bPub % group.n ≠ 0) (hu : computeU H group client.aPub server.bPub ≠ 0) :
    ∃ S, client.premaster H salt password server.bPub = .ok S ∧
      server.sessionKey H client.aPub = .ok (client.sessionKey H S) := by
  obtain ⟨rfl, hA⟩ := SrpClient.withPrivate_eq_ok hclient
  subst hserver
  refine ⟨_, SrpClient.premaster_ok H hB hu, ?_⟩
  rw [SrpServer.sessionKey_ok H hA hu]
  exact congrArg (fun S => Except.ok (H (group.pad S))) (premaster_agree group a b _ _ _).symm

theorem verifyM1ProveM2_agree (hclient : SrpClient.withPrivate group username a = .ok client)
    {server : SrpServer}
    (hserver : server = SrpServer.withSaltAndPrivate H group username password salt b)
    (key : Bytes) :
    server.verifyM1ProveM2 H client.aPub key (client.proofM1 H salt server.bPub key) =
      .ok (client.expectedM2 H (client.proofM1 H salt server.bPub key) key) := by
  obtain ⟨rfl, -⟩ := SrpClient.withPrivate_eq_ok hclient
  subst hserver
  simp only [SrpServer.verifyM1ProveM2, SrpClient.proofM1, SrpServer.withSaltAndPrivate, ensure,
    if_true, ok_bind]
  rfl

end Exchange

/-- A full exchange over the wire encodings: equal keys, and both proofs accepted. -/
theorem srp_agreement (group : SrpGroup) (username password salt : Bytes) (a b : Nat)
    (client : SrpClient) (server : SrpServer)
    (hclient : SrpClient.withPrivate group username a = .ok client)
    (hserver : server = SrpServer.withSaltAndPrivate H group username password salt b)
    (hB : server.bPub % group.n ≠ 0) (hu : computeU H group client.aPub server.bPub ≠ 0) :
    ∃ S K M2, client.premaster H server.salt password (beNat server.bPubBytes) = .ok S ∧
      client.sessionKey H S = K ∧ server.sessionKey H (beNat client.aPubBytes) = .ok K ∧
      server.verifyM1ProveM2 H (beNat client.aPubBytes) K
        (client.proofM1 H server.salt (beNat server.bPubBytes) K) = .ok M2 ∧
      client.verifyM2 H (client.proofM1 H server.salt (beNat server.bPubBytes) K) K M2 =
        .ok () := by
  have hsalt : server.salt = salt := by rw [hserver]; rfl
  obtain ⟨S, hS, hK⟩ := sessionKey_agree hclient hserver hB hu
  simp only [SrpClient.aPubBytes, SrpServer.bPubBytes, SrpGroup.beNat_pad, hsalt]
  refine ⟨S, _, _, hS, rfl, hK, verifyM1ProveM2_agree hclient hserver _, ?_⟩
  exact ensure_eq_ok.mpr rfl

theorem srp_agreement_seven :
    ∃ (client : SrpClient) (server : SrpServer) (S : Nat) (K M2 : Bytes),
      client.premaster (fun m => [m.sum + 3]) server.salt [4] (beNat server.bPubBytes) = .ok S ∧
      client.sessionKey (fun m => [m.sum + 3]) S = K ∧
      server.sessionKey (fun m => [m.sum + 3]) (beNat client.aPubBytes) = .ok K ∧
      server.verifyM1ProveM2 (fun m => [m.sum + 3]) (beNat client.aPubBytes) K
        (client.proofM1 (fun m => [m.sum + 3]) server.salt (beNat server.bPubBytes) K) = .ok M2 ∧
      client.verifyM2 (fun m => [m.sum + 3])
        (client.proofM1 (fun m => [m.sum + 3]) server.salt (beNat server.bPubBytes) K) K M2 =
          .ok () :=
  ⟨_, _, srp_agreement (fun m => [m.sum + 3]) ⟨7, 3, 1, by decide, by decide⟩ [1] [4] [9] 2 5
    ⟨⟨7, 3, 1, by decide, by decide⟩, [1], 2, 2⟩ _ (by decide +kernel) rfl (by decide +kernel)
    (by decide +kernel)⟩

end HapRust.Crypto
