import HapRust.Crypto.Primitives
import HapRust.Lib.Framing
import HapRust.Lib.SealedChannel

/-! The secure record layer: a block of at most 1024 bytes becomes a two-byte
length, which is also the associated data, the ciphertext and a 16-byte tag. -/

namespace HapRust.Transport
open Lib Crypto

inductive TransportError where
  | io
  | malformedHttp (msg : String)
  | unsupportedEncoding (coding : String)
  | invalidFrameLength (len : Nat)
  | decrypt
  | connectionClosed
  | sessionClosed
  | noResponse
  deriving DecidableEq, Repr

def maxBlock : Nat := 1024
def tagLen : Nat := 16
def lenPrefix : Nat := 2

def frameLen (declared : Nat) : Nat := lenPrefix + declared + tagLen

variable (P : Primitives) (key : Arr 32)

def encryptFrame (counter : UInt64) (block : Bytes) : Except TransportError Bytes × UInt64 :=
  if block.length > maxBlock then (.error (.invalidFrameLength block.length), counter)
  else
    let aad := leBytes 2 block.length
    match encrypt P key (counterNonce counter) aad block with
    | .error _ => (.error (.invalidFrameLength block.length), counter)
    | .ok ciphertextAndTag => (.ok (aad ++ ciphertextAndTag), counter + 1)

def decryptFrame (counter : UInt64) (buf : Bytes) :
    Except TransportError (Option Bytes) × UInt64 :=
  if buf.length < lenPrefix then (.ok none, counter)
  else
    let declared := leNat (buf.take lenPrefix)
    if declared > maxBlock then (.error (.invalidFrameLength declared), counter)
    else
      let total := lenPrefix + declared + tagLen
      if buf.length < total then (.ok none, counter)
      else
        let aad := buf.take lenPrefix
        let ciphertextAndTag := (buf.take total).drop lenPrefix
        match decrypt P key (counterNonce counter) aad ciphertextAndTag with
        | .error _ => (.error .decrypt, counter)
        | .ok plaintext => (.ok (some plaintext), counter + 1)

theorem decryptFrame_frame (counter : UInt64) {len ciphertextAndTag : Bytes} (x : Bytes)
    (hlen : len.length = lenPrefix) (hdecl : leNat len ≤ maxBlock)
    (hct : ciphertextAndTag.length = leNat len + tagLen) :
    decryptFrame P key counter (len ++ ciphertextAndTag ++ x) =
      match decrypt P key (counterNonce counter) len ciphertextAndTag with
      | .error _ => (.error .decrypt, counter)
      | .ok plaintext => (.ok (some plaintext), counter + 1) := by
  have hpre : (len ++ ciphertextAndTag ++ x).take lenPrefix = len := by
    rw [List.append_assoc, List.take_left' hlen]
  have htotal : (len ++ ciphertextAndTag).length = lenPrefix + leNat len + tagLen := by
    rw [List.length_append, hlen, hct, Nat.add_assoc]
  have hbody : ((len ++ ciphertextAndTag ++ x).take (lenPrefix + leNat len + tagLen)).drop lenPrefix
      = ciphertextAndTag := by
    rw [List.take_left' htotal, List.drop_left' hlen]
  have hbuf : lenPrefix + leNat len + tagLen ≤ (len ++ ciphertextAndTag ++ x).length := by
    rw [← htotal]
    exact (List.prefix_append _ x).length_le
  rw [decryptFrame, if_neg (by omega)]
  simp only [hpre, hbody]
  rw [if_neg (Nat.not_lt.mpr hdecl), if_neg (Nat.not_lt.mpr hbuf)]

theorem decryptFrame_counter (counter : UInt64) (buf : Bytes)
    (h : ∀ block, (decryptFrame P key counter buf).1 ≠ .ok (some block)) :
    (decryptFrame P key counter buf).2 = counter := by
  unfold decryptFrame at h ⊢
  dsimp only at h ⊢
  split_ifs at h ⊢ with hlen hdecl htotal
  · rfl
  · rfl
  · rfl
  · cases hdec : decrypt P key (counterNonce counter) (buf.take lenPrefix)
        ((buf.take (lenPrefix + leNat (buf.take lenPrefix) + tagLen)).drop lenPrefix) with
    | error e => rfl
    | ok block =>
      rw [hdec] at h
      exact absurd rfl (h block)

theorem decryptFrame_eq_some {counter counter' : UInt64} {buf block : Bytes}
    (h : decryptFrame P key counter buf = (.ok (some block), counter')) :
    ∃ len ciphertextAndTag rest, buf = len ++ ciphertextAndTag ++ rest ∧
      len.length = lenPrefix ∧ leNat len ≤ maxBlock ∧
      ciphertextAndTag.length = leNat len + tagLen ∧ counter' = counter + 1 ∧
      P.chacha20Poly1305.decrypt key (counterNonce counter) len ciphertextAndTag = some block := by
  unfold decryptFrame at h
  dsimp only at h
  split_ifs at h with hlen hdecl htotal
  · simp at h
  · simp at h
  · simp at h
  · cases hdec : decrypt P key (counterNonce counter) (buf.take lenPrefix)
        ((buf.take (lenPrefix + leNat (buf.take lenPrefix) + tagLen)).drop lenPrefix) with
    | error e =>
      rw [hdec] at h
      simp at h
    | ok plaintext =>
      rw [hdec] at h
      simp only [Prod.mk.injEq, Except.ok.injEq, Option.some.injEq] at h
      obtain ⟨rfl, rfl⟩ := h
      exact ⟨_, _, _, (take_append_slice_append_drop buf (by omega)).symm,
        List.length_take_of_le (Nat.le_of_not_lt hlen), Nat.le_of_not_lt hdecl, by
          rw [List.length_drop, List.length_take_of_le (Nat.le_of_not_lt htotal)]
          omega, rfl, decrypt_eq_ok.mp hdec⟩

theorem decryptFrame_append {counter : UInt64} {buf : Bytes} (x : Bytes)
    (h : (decryptFrame P key counter buf).1 ≠ .ok none) :
    decryptFrame P key counter (buf ++ x) = decryptFrame P key counter buf := by
  have hlen : ¬ buf.length < lenPrefix := by
    intro hlt
    rw [decryptFrame, if_pos hlt] at h
    exact h rfl
  have hlen' : ¬ (buf ++ x).length < lenPrefix := by rw [List.length_append]; omega
  have htake : ∀ {k}, k ≤ buf.length → (buf ++ x).take k = buf.take k :=
    List.take_append_of_le_length
  rw [decryptFrame, if_neg hlen] at h
  rw [decryptFrame, decryptFrame, if_neg hlen, if_neg hlen', htake (Nat.le_of_not_lt hlen)]
  dsimp only at h ⊢
  by_cases hdecl : leNat (buf.take lenPrefix) > maxBlock
  · rw [if_pos hdecl, if_pos hdecl]
  · rw [if_neg hdecl] at h
    have htotal : ¬ buf.length < lenPrefix + leNat (buf.take lenPrefix) + tagLen := by
      intro hlt
      rw [if_pos hlt] at h
      exact h rfl
    have htotal' : ¬ (buf ++ x).length < lenPrefix + leNat (buf.take lenPrefix) + tagLen := by
      rw [List.length_append]; omega
    rw [if_neg hdecl, if_neg hdecl, if_neg htotal, if_neg htotal', htake (Nat.le_of_not_lt htotal)]

def frameNext (counter : UInt64) (buf : Bytes) : Next UInt64 TransportError Bytes UInt8 :=
  match decryptFrame P key counter buf with
  | (.ok (some block), counter') => .item block counter' (buf.drop (frameLen block.length))
  | (.ok none, _) => .more
  | (.error e, _) => .fail e

theorem frameNext_eq_item {counter counter' : UInt64} {buf block rest : Bytes}
    (h : frameNext P key counter buf = .item block counter' rest) :
    decryptFrame P key counter buf = (.ok (some block), counter') ∧
      rest = buf.drop (frameLen block.length) := by
  unfold frameNext at h
  split at h
  · next hd =>
    obtain ⟨rfl, rfl, rfl⟩ := Next.item.inj h
    exact ⟨hd, rfl⟩
  · cases h
  · cases h

theorem frameNext_eq_fail {counter : UInt64} {buf : Bytes} {e : TransportError}
    (h : frameNext P key counter buf = .fail e) :
    (decryptFrame P key counter buf).1 = .error e := by
  unfold frameNext at h
  split at h
  · cases h
  · cases h
  · next hd =>
    obtain rfl := Next.fail.inj h
    rw [hd]

def frameDecoder : Decoder UInt64 TransportError Bytes UInt8 where
  next := frameNext P key
  shrinks {counter buf block counter' rest} h := by
    obtain ⟨hd, rfl⟩ := frameNext_eq_item P key h
    obtain ⟨len, ct, rest, rfl, hlen, -⟩ := decryptFrame_eq_some P key hd
    simp only [frameLen, lenPrefix, tagLen, List.length_drop, List.length_append] at hlen ⊢
    omega

end HapRust.Transport
