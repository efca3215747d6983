import HapRust.Crypto.Primitives
import HapRust.Lib.Keystream

/-! The cipher of broadcasts. It is ChaCha20-Poly1305 put together from its two components,
since only the first four bytes of the tag are sent: the first block of the keystream gives the
one-time key of the MAC, the rest of it hides the plaintext. -/

namespace HapRust.Crypto
open Lib

/-- A keystream for each key and nonce, and a tag for each one-time key and input. -/
structure Components where
  chacha20 : Arr 32 → Arr 12 → Nat → UInt8
  poly1305 : Arr 32 → Bytes → Arr 16

/-! ## The input of the MAC -/

def padLoop (d : Bytes) : Bytes :=
  if d.length % 16 ≠ 0 then padLoop (d ++ [0]) else d
termination_by (16 - d.length % 16) % 16
decreasing_by
  rw [List.length_append, List.length_singleton]
  omega

def macData (aad ciphertext : Bytes) : Bytes :=
  let d := padLoop aad
  let d := padLoop (d ++ ciphertext)
  d ++ leBytes 8 aad.length ++ leBytes 8 ciphertext.length

theorem padLoop_eq (d : Bytes) : padLoop d = padTo 16 d := by
  fun_induction padLoop d with
  | case1 d hrest ih =>
    have hzeros : (16 - d.length % 16) % 16 = (16 - (d.length + 1) % 16) % 16 + 1 := by omega
    rw [ih, padTo, padTo, List.length_append, List.length_singleton, hzeros, List.append_assoc]
    rfl
  | case2 d hrest =>
    exact (padTo_of_dvd (Nat.dvd_of_mod_eq_zero (not_not.mp hrest))).symm

theorem macData_eq (aad ciphertext : Bytes) :
    macData aad ciphertext = padTo 16 aad ++ padTo 16 ciphertext ++
      (leBytes 8 aad.length ++ leBytes 8 ciphertext.length) := by
  have haad : 16 ∣ (padTo 16 aad).length := dvd_length_padTo (by decide) aad
  rw [macData, padLoop_eq, padLoop_eq, padTo_append haad, List.append_assoc]

theorem dvd_length_macData (aad ciphertext : Bytes) : 16 ∣ (macData aad ciphertext).length := by
  have haad : 16 ∣ (padTo 16 aad).length := dvd_length_padTo (by decide) aad
  have hciphertext : 16 ∣ (padTo 16 ciphertext).length := dvd_length_padTo (by decide) ciphertext
  rw [macData_eq, List.length_append, List.length_append, List.length_append, leBytes_length,
    leBytes_length]
  exact Nat.dvd_add (Nat.dvd_add haad hciphertext) (Nat.dvd_refl 16)

theorem mod_eq_of_leBytes {v v' : Nat} (h : leBytes 8 v = leBytes 8 v') :
    v % 2 ^ 64 = v' % 2 ^ 64 := by
  have hnat := congrArg leNat h
  rwa [leNat_leBytes, leNat_leBytes] at hnat

theorem macData_inj {aad aad' ciphertext ciphertext' : Bytes} (haad : aad.length < 2 ^ 64)
    (haad' : aad'.length < 2 ^ 64) (h : macData aad ciphertext = macData aad' ciphertext') :
    aad = aad' ∧ ciphertext = ciphertext' := by
  rw [macData_eq, macData_eq] at h
  obtain ⟨hpadded, hlengths⟩ := List.append_inj' h (by simp)
  obtain ⟨hfirst, hsecond⟩ := List.append_inj hlengths (by simp)
  have hsame : aad.length = aad'.length := by
    have hmod := mod_eq_of_leBytes hfirst
    rwa [Nat.mod_eq_of_lt haad, Nat.mod_eq_of_lt haad'] at hmod
  have hfront : (padTo 16 aad).length = (padTo 16 aad').length := by
    rw [length_padTo, length_padTo, hsame]
  obtain ⟨hpadAad, hpadCiphertext⟩ := List.append_inj hpadded hfront
  have hback := congrArg List.length hpadCiphertext
  have hsame' : ciphertext.length = ciphertext'.length := by
    have hmod := mod_eq_of_leBytes hsecond
    have hlt := length_lt_of_padTo (by decide) hback
    have hlt' := length_lt_of_padTo (by decide) hback.symm
    omega
  exact ⟨padTo_inj hsame hpadAad, padTo_inj hsame' hpadCiphertext⟩

def macInput (advertisingId : Arr 6) (ciphertext : Bytes) : Bytes :=
  padTo 16 (macData advertisingId.val ciphertext)

theorem macInput_eq (advertisingId : Arr 6) (ciphertext : Bytes) :
    macInput advertisingId ciphertext = macData advertisingId.val ciphertext :=
  padTo_of_dvd (dvd_length_macData _ _)

theorem macInput_inj {id id' : Arr 6} {ciphertext ciphertext' : Bytes}
    (h : macInput id ciphertext = macInput id' ciphertext') :
    id = id' ∧ ciphertext = ciphertext' := by
  have hlt : ∀ id : Arr 6, id.val.length < 2 ^ 64 := by
    intro id
    rw [id.property]
    decide
  rw [macInput_eq, macInput_eq] at h
  obtain ⟨hid, hciphertext⟩ := macData_inj (hlt id) (hlt id') h
  exact ⟨Subtype.ext hid, hciphertext⟩

/-! ## Sealing and opening -/

def poly1305Key (cipher : StreamCipher) : Arr 32 × StreamCipher :=
  (⟨(cipher.applyKeystream (List.replicate 64 0)).1.take 32, by
      rw [List.length_take, StreamCipher.length_applyKeystream, List.length_replicate]
      rfl⟩,
    (cipher.applyKeystream (List.replicate 64 0)).2)

structure BroadcastKey where
  bytes : Arr 32
  deriving DecidableEq

section
variable (C : Components) (key : BroadcastKey) (gsn : UInt16)

def broadcastNonce : Arr 12 :=
  ⟨List.replicate 4 0 ++ leBytes 8 gsn.toNat, by
    rw [List.length_append, List.length_replicate, leBytes_length]⟩

def BroadcastKey.start : Arr 32 × StreamCipher :=
  poly1305Key ⟨C.chacha20 key.bytes (broadcastNonce gsn), 0⟩

def tag4 (polyKey : Arr 32) (advertisingId : Arr 6) (ciphertext : Bytes) : Bytes :=
  (C.poly1305 polyKey (macInput advertisingId ciphertext)).val.take 4

def BroadcastKey.seal (plaintext : Bytes) (advertisingId : Arr 6) : Bytes :=
  let (polyKey, cipher) := key.start C gsn
  let (ciphertext, _) := cipher.applyKeystream plaintext
  ciphertext ++ tag4 C polyKey advertisingId ciphertext

def BroadcastKey.open (combinedText : Bytes) (advertisingId : Arr 6) : Except CryptoError Bytes :=
  if combinedText.length < 4 then
    .error .aead
  else
    let ciphertext := combinedText.take (combinedText.length - 4)
    let tag := combinedText.drop (combinedText.length - 4)
    let (polyKey, cipher) := key.start C gsn
    if tag4 C polyKey advertisingId ciphertext = tag then
      .ok (cipher.applyKeystream ciphertext).1
    else
      .error .aead

def BroadcastKey.ciphertext (plaintext : Bytes) : Bytes :=
  ((key.start C gsn).2.applyKeystream plaintext).1

variable {C key gsn} {plaintext combinedText : Bytes} {id : Arr 6}

theorem length_tag4 (polyKey : Arr 32) (id : Arr 6) (ciphertext : Bytes) :
    (tag4 C polyKey id ciphertext).length = 4 := by
  rw [tag4, List.length_take, (C.poly1305 polyKey _).property]
  rfl

theorem seal_eq : key.seal C gsn plaintext id = key.ciphertext C gsn plaintext ++
    tag4 C (key.start C gsn).1 id (key.ciphertext C gsn plaintext) := rfl

theorem open_append (ciphertext tag : Bytes) (htag : tag.length = 4) :
    key.open C gsn (ciphertext ++ tag) id =
      if tag4 C (key.start C gsn).1 id ciphertext = tag then
        .ok (key.ciphertext C gsn ciphertext)
      else
        .error .aead := by
  have hlength : (ciphertext ++ tag).length - 4 = ciphertext.length := by
    rw [List.length_append, htag, Nat.add_sub_cancel]
  have hlong : ¬(ciphertext ++ tag).length < 4 := by
    rw [List.length_append]
    omega
  rw [BroadcastKey.open, if_neg hlong, hlength, List.take_left, List.drop_left]
  rfl

theorem open_eq_ok_iff :
    key.open C gsn combinedText id = .ok plaintext ↔
      combinedText = key.seal C gsn plaintext id := by
  constructor
  · intro hopen
    by_cases hshort : combinedText.length < 4
    · rw [BroadcastKey.open, if_pos hshort] at hopen
      cases hopen
    · obtain ⟨ciphertext, tag, htag, rfl⟩ :
          ∃ ciphertext tag, tag.length = 4 ∧ combinedText = ciphertext ++ tag := by
        refine ⟨_, combinedText.drop (combinedText.length - 4), ?_,
          (List.take_append_drop _ _).symm⟩
        rw [List.length_drop]
        omega
      rw [open_append ciphertext tag htag] at hopen
      split at hopen
      next hsame =>
        cases hopen
        have hback : key.ciphertext C gsn (key.ciphertext C gsn ciphertext) = ciphertext :=
          StreamCipher.applyKeystream_applyKeystream _ _
        rw [seal_eq, hback, hsame]
      next => cases hopen
  · rintro rfl
    rw [seal_eq, open_append _ _ (length_tag4 _ _ _), if_pos rfl]
    exact congrArg Except.ok (StreamCipher.applyKeystream_applyKeystream _ _)

/-- A broadcast is decrypted to what has been encrypted, and the input of its MAC determines it:
the input is made of whole blocks, to which `update_padded` adds nothing, and under one key and
GSN two broadcasts with the same input agree in the advertising id and in all that is sent. The
GSN is no part of the input: it enters through the nonce. -/
theorem broadcast_seal_open (C : Components) (key : BroadcastKey) (gsn : UInt16) (plaintext : Bytes)
    (id : Arr 6) :
    key.open C gsn (key.seal C gsn plaintext id) id = .ok plaintext ∧
      (Function.Injective fun broadcast : Arr 6 × Bytes => macData broadcast.1.val broadcast.2) ∧
      (∀ aad ciphertext, 16 ∣ (macData aad ciphertext).length) ∧
      (∀ (id' : Arr 6) ciphertext ciphertext',
        macInput id ciphertext = macInput id' ciphertext' → id = id' ∧ ciphertext = ciphertext') ∧
      ∀ (id' : Arr 6) plaintext',
        macInput id (key.ciphertext C gsn plaintext) =
            macInput id' (key.ciphertext C gsn plaintext') →
          id = id' ∧ plaintext = plaintext' ∧
            key.seal C gsn plaintext id = key.seal C gsn plaintext' id' := by
  refine ⟨open_eq_ok_iff.mpr rfl, ?_, dvd_length_macData, ?_, ?_⟩
  · intro broadcast broadcast' h
    have hinput : macInput broadcast.1 broadcast.2 = macInput broadcast'.1 broadcast'.2 := by
      rw [macInput_eq, macInput_eq]
      exact h
    obtain ⟨hid, hciphertext⟩ := macInput_inj hinput
    exact Prod.ext hid hciphertext
  · intro id' ciphertext ciphertext' h
    exact macInput_inj h
  · intro id' plaintext' h
    obtain ⟨rfl, hciphertext⟩ := macInput_inj h
    obtain rfl := StreamCipher.applyKeystream_inj _ hciphertext
    exact ⟨rfl, rfl, rfl⟩

end
end HapRust.Crypto
