import HapRust.Lib.Aead
import HapRust.Lib.Text
import HapRust.Tlv8.Reader
import Mathlib.Data.UInt

/-! The primitives the pairing code takes from other crates, as a parameter of
the model, with the thin wrappers the repository puts around them. -/

namespace HapRust.Crypto
open Lib Tlv8

inductive CryptoError where
  | srpBadParameters (msg : String)
  | srpProofMismatch
  | encoding (msg : String)
  | tlv (e : Tlv8Error)
  | kdf (msg : String)
  | aead
  | signature
  deriving DecidableEq, Repr

structure Primitives where
  sha512 : Bytes → Bytes
  hkdf : Bytes → Bytes → Bytes → (n : Nat) → Arr n
  chacha20Poly1305 : Aead
  x25519Public : Arr 32 → Arr 32
  x25519 : Arr 32 → Arr 32 → Arr 32
  ed25519Public : Arr 32 → Arr 32
  ed25519Sign : Arr 32 → Bytes → Arr 64
  ed25519Verify : Arr 32 → Bytes → Arr 64 → Bool

/-- What honest parties may rely on. -/
structure Primitives.Honest (P : Primitives) : Prop where
  aead : P.chacha20Poly1305.Inverts
  ed25519 : ∀ seed msg, P.ed25519Verify (P.ed25519Public seed) msg (P.ed25519Sign seed msg) = true

/-- Both ends of a Diffie-Hellman exchange compute the same secret. -/
def Primitives.X25519Commutes (P : Primitives) : Prop :=
  ∀ a b, P.x25519 a (P.x25519Public b) = P.x25519 b (P.x25519Public a)

variable (P : Primitives)

def hkdfSha512 (ikm salt info : Bytes) (n : Nat) : Except CryptoError (Arr n) :=
  if n ≤ 255 * 64 then .ok (P.hkdf ikm salt info n)
  else .error (.kdf "requested output length exceeds 255 * HashLen")

@[simp] theorem hkdfSha512_32 (ikm salt info : Bytes) :
    hkdfSha512 P ikm salt info 32 = .ok (P.hkdf ikm salt info 32) := if_pos (by decide)

def hapNonce (label : Bytes) : Arr 12 :=
  ⟨List.replicate 4 0 ++ label.take 8 ++ List.replicate (8 - (label.take 8).length) 0, by
    simp only [List.length_append, List.length_replicate, List.length_take]; omega⟩

def encrypt (key : Arr 32) (nonce : Arr 12) (aad plaintext : Bytes) : Except CryptoError Bytes :=
  okOr (P.chacha20Poly1305.encrypt key nonce aad plaintext) .aead

def decrypt (key : Arr 32) (nonce : Arr 12) (aad ciphertext : Bytes) : Except CryptoError Bytes :=
  okOr (P.chacha20Poly1305.decrypt key nonce aad ciphertext) .aead

def verifyEd25519 (ltpk : Arr 32) (msg : Bytes) (sig : Arr 64) : Except CryptoError Unit :=
  ensure (P.ed25519Verify ltpk msg sig = true) .signature

structure ControllerKeypair where
  id : String
  signing : Arr 32
  deriving DecidableEq

def ControllerKeypair.ltpk (c : ControllerKeypair) : Arr 32 := P.ed25519Public c.signing

def ControllerKeypair.sign (c : ControllerKeypair) (msg : Bytes) : Arr 64 :=
  P.ed25519Sign c.signing msg

structure EphemeralKeypair where
  secret : Arr 32
  pub : Arr 32
  deriving DecidableEq

def EphemeralKeypair.fromSecret (scalar : Arr 32) : EphemeralKeypair :=
  ⟨scalar, P.x25519Public scalar⟩

def EphemeralKeypair.diffieHellman (e : EphemeralKeypair) (peer : Arr 32) : Arr 32 :=
  P.x25519 e.secret peer

structure AccessoryPairing where
  pairingId : String
  ltpk : Arr 32
  deriving DecidableEq

/-! ## TLV types and states of the pairing messages -/

namespace TlvType
def method : UInt8 := 0x00
def identifier : UInt8 := 0x01
def salt : UInt8 := 0x02
def publicKey : UInt8 := 0x03
def proof : UInt8 := 0x04
def encryptedData : UInt8 := 0x05
def state : UInt8 := 0x06
def error : UInt8 := 0x07
def signature : UInt8 := 0x0A
def methodPairSetup : UInt8 := 0x00
end TlvType

def parseTlv (bytes : Bytes) : Except CryptoError Tlv8Map := mapErr .tlv (Tlv8Map.parse bytes)

def expectStateOr (err : CryptoError) (map : Tlv8Map) (expected : UInt8) :
    Except CryptoError Unit := do
  match ← mapErr .tlv (map.getU8 TlvType.state) with
  | none => return ()
  | some s => ensure (s = expected) err

def getOr (map : Tlv8Map) (ty : UInt8) (msg : String) : Except CryptoError Bytes :=
  okOr (map.get ty) (.encoding msg)

def tryIntoOr (n : Nat) (b : Bytes) (msg : String) : Except CryptoError (Arr n) :=
  okOr (tryIntoArr n b) (.encoding msg)

section
variable {P}

theorem parseTlv_eq_ok {bytes : Bytes} {map : Tlv8Map} :
    parseTlv bytes = .ok map ↔ Tlv8Map.parse bytes = .ok map := mapErr_eq_ok

theorem expectStateOr_of_get {err : CryptoError} {map : Tlv8Map} {n : UInt8}
    (h : map.get TlvType.state = some [n]) : expectStateOr err map n = .ok () := by
  simp only [expectStateOr, Tlv8Map.getU8_of_get h, mapErr_ok, ok_bind, ensure_of]

theorem getOr_eq_ok {map : Tlv8Map} {ty : UInt8} {msg : String} {b : Bytes} :
    getOr map ty msg = .ok b ↔ map.get ty = some b := okOr_eq_ok

theorem tryIntoOr_eq_ok {n : Nat} {b : Bytes} {msg : String} {a : Arr n} :
    tryIntoOr n b msg = .ok a ↔ b = a.val := okOr_eq_ok.trans tryIntoArr_eq_some

theorem decrypt_eq_ok {key : Arr 32} {nonce : Arr 12} {aad c m : Bytes} :
    decrypt P key nonce aad c = .ok m ↔ P.chacha20Poly1305.decrypt key nonce aad c = some m :=
  okOr_eq_ok

theorem verifyEd25519_eq_ok {ltpk : Arr 32} {msg : Bytes} {sig : Arr 64} {u : Unit} :
    verifyEd25519 P ltpk msg sig = .ok u ↔ P.ed25519Verify ltpk msg sig = true := ensure_eq_ok

theorem verifyEd25519_of {ltpk : Arr 32} {msg : Bytes} {sig : Arr 64}
    (h : P.ed25519Verify ltpk msg sig = true) : verifyEd25519 P ltpk msg sig = .ok () :=
  ensure_of h

end

/-- Primitives that keep nothing secret but check what they are given; every
law the proofs assume holds of them. -/
def plainPrimitives : Primitives where
  sha512 m := [m.sum % 2 + 1]
  hkdf ikm salt info n := ⟨([ikm.sum, salt.sum, info.sum] ++ List.replicate n 0).take n, by
    simp only [List.length_take, List.length_append, List.length_replicate]; omega⟩
  chacha20Poly1305 :=
    { encrypt := fun key nonce aad m => some (key.val ++ nonce.val ++ aad ++ m)
      decrypt := fun key nonce aad c =>
        if key.val ++ nonce.val ++ aad <+: c then some (c.drop (44 + aad.length)) else none }
  x25519Public s := s
  x25519 a b := ⟨List.zipWith (· + ·) a.val b.val, by simp [a.property, b.property]⟩
  ed25519Public s := s
  ed25519Sign s m := ⟨s.val ++ (m ++ List.replicate 32 0).take 32, by simp [s.property]⟩
  ed25519Verify k m sig := sig.val = k.val ++ (m ++ List.replicate 32 0).take 32

theorem plainPrimitives_honest : plainPrimitives.Honest where
  aead key nonce aad m := by
    refine ⟨_, rfl, ?_⟩
    have hlen : (key.val ++ nonce.val ++ aad).length = 44 + aad.length := by
      simp only [List.length_append, key.property, nonce.property]
    simp only [plainPrimitives, List.prefix_append, if_true, ← hlen, List.drop_left]
  ed25519 _ _ := decide_eq_true rfl

theorem plainPrimitives_commutes : plainPrimitives.X25519Commutes := by
  intro a b
  apply Subtype.ext
  exact List.zipWith_comm_of_comm fun x y => UInt8.add_comm x y

def taggedPrimitives : Primitives :=
  { plainPrimitives with chacha20Poly1305 := loggedAead fun _ _ _ => True }

theorem taggedPrimitives_honest : taggedPrimitives.Honest where
  aead key nonce aad m := by
    have hideal := loggedAead_idealOn (fun _ _ _ => True) key
    exact ⟨_, rfl, hideal.opens.mpr ⟨trivial, rfl⟩⟩
  ed25519 := plainPrimitives_honest.ed25519

theorem taggedPrimitives_tagged : taggedPrimitives.chacha20Poly1305.Tagged := by
  intro key nonce aad m c hc
  rw [← Option.some.inj hc, List.length_append, List.length_replicate]

end HapRust.Crypto
