import HapRust.Lib.Bytes

/-! Authenticated encryption as a parameter: a 32-byte key, a 12-byte nonce,
associated data, and a message. -/

namespace HapRust.Lib

structure Aead where
  encrypt : Arr 32 → Arr 12 → Bytes → Bytes → Option Bytes
  decrypt : Arr 32 → Arr 12 → Bytes → Bytes → Option Bytes

def Aead.Inverts (A : Aead) : Prop :=
  ∀ key nonce aad msg, ∃ c, A.encrypt key nonce aad msg = some c ∧
    A.decrypt key nonce aad c = some msg

theorem Aead.Inverts.decrypt_of_encrypt {A : Aead} (h : A.Inverts) {key : Arr 32} {nonce : Arr 12}
    {aad msg c : Bytes} (hc : A.encrypt key nonce aad msg = some c) :
    A.decrypt key nonce aad c = some msg := by
  obtain ⟨c', he, hd⟩ := h key nonce aad msg
  obtain rfl : c = c' := Option.some.inj (hc.symm.trans he)
  exact hd

/-- A ciphertext is as long as its message and a tag. -/
def Aead.Tagged (A : Aead) : Prop :=
  ∀ {key nonce aad msg c}, A.encrypt key nonce aad msg = some c → c.length = msg.length + 16

/-- The ideal cipher under one key: what has been sealed is the log, and a
ciphertext opens exactly when it is the seal of a logged message. -/
structure Aead.IdealOn (A : Aead) (key : Arr 32) (log : Arr 12 → Bytes → Bytes → Prop) : Prop where
  seals : ∀ {nonce aad msg}, log nonce aad msg →
    ∃ c, A.encrypt key nonce aad msg = some c ∧ c.length = msg.length + 16
  opens : ∀ {nonce aad c msg}, A.decrypt key nonce aad c = some msg ↔
    log nonce aad msg ∧ A.encrypt key nonce aad msg = some c

theorem Aead.IdealOn.length_of_decrypt {A : Aead} {key : Arr 32}
    {log : Arr 12 → Bytes → Bytes → Prop} (h : A.IdealOn key log) {nonce : Arr 12}
    {aad c msg : Bytes} (hd : A.decrypt key nonce aad c = some msg) :
    c.length = msg.length + 16 := by
  obtain ⟨hlog, hc⟩ := h.opens.mp hd
  obtain ⟨c', hc', hlen⟩ := h.seals hlog
  obtain rfl : c = c' := Option.some.inj (hc.symm.trans hc')
  exact hlen

section Logged
variable (log : Arr 12 → Bytes → Bytes → Prop) [∀ n a m, Decidable (log n a m)]

def loggedAead : Aead where
  encrypt _ _ _ msg := some (msg ++ List.replicate 16 0)
  decrypt _ nonce aad c :=
    let msg := c.take (c.length - 16)
    if log nonce aad msg ∧ c = msg ++ List.replicate 16 0 then some msg else none

theorem loggedAead_idealOn (key : Arr 32) : (loggedAead log).IdealOn key log where
  seals {nonce aad msg} _ := ⟨_, rfl, by rw [List.length_append, List.length_replicate]⟩
  opens {nonce aad c msg} := by
    simp only [loggedAead, Option.ite_none_right_eq_some, Option.some.injEq]
    constructor
    · rintro ⟨⟨hlog, hc⟩, rfl⟩
      exact ⟨hlog, hc.symm⟩
    · rintro ⟨hlog, rfl⟩
      have hmsg : (msg ++ List.replicate 16 0).take
          ((msg ++ List.replicate 16 0).length - 16) = msg := by
        rw [List.length_append, List.length_replicate, Nat.add_sub_cancel, List.take_left']
        rfl
      rw [hmsg]
      exact ⟨⟨hlog, rfl⟩, rfl⟩

end Logged
end HapRust.Lib
