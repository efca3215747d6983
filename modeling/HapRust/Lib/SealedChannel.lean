import HapRust.Lib.Aead

/-! One direction of an encrypted session: each message is sealed under the
next value of a counter, and opened under the receiver's own counter. The
counters wrap; what keeps the two ends together is that messages are opened in
the order in which they were sealed. -/

namespace HapRust.Lib

def counterNonce (ctr : UInt64) : Arr 12 :=
  ⟨List.replicate 4 0 ++ leBytes 8 ctr.toNat, by
    simp only [List.length_append, List.length_replicate, leBytes_length]⟩

theorem counterNonce_injective {i j : Nat} (hi : i < 2 ^ 64) (hj : j < 2 ^ 64)
    (h : counterNonce (UInt64.ofNat i) = counterNonce (UInt64.ofNat j)) : i = j := by
  have hle : leBytes 8 (UInt64.ofNat i).toNat = leBytes 8 (UInt64.ofNat j).toNat :=
    List.append_cancel_left (congrArg Subtype.val h)
  rw [UInt64.toNat_ofNat_of_lt' hi, UInt64.toNat_ofNat_of_lt' hj] at hle
  exact leBytes_injective (by simpa using hi) (by simpa using hj) hle

variable (A : Aead) (key : Arr 32)

def sealNext (ctr : UInt64) (msg : Bytes) : Option (Bytes × UInt64) :=
  (A.encrypt key (counterNonce ctr) [] msg).map (·, ctr + 1)

def openNext (ctr : UInt64) (c : Bytes) : Option (Bytes × UInt64) :=
  (A.decrypt key (counterNonce ctr) [] c).map (·, ctr + 1)

inductive Sealed : UInt64 → List Bytes → List Bytes → UInt64 → Prop
  | nil (ctr : UInt64) : Sealed ctr [] [] ctr
  | cons {ctr last : UInt64} {c msg : Bytes} {cs msgs : List Bytes}
      (head : A.encrypt key (counterNonce ctr) [] msg = some c)
      (tail : Sealed (ctr + 1) cs msgs last) : Sealed ctr (c :: cs) (msg :: msgs) last

def InStep (sendCtr recvCtr : UInt64) (inFlight sent received : List Bytes) : Prop :=
  ∃ pending, sent = received ++ pending ∧ Sealed A key recvCtr inFlight pending sendCtr

variable {A key} {s r ctr : UInt64} {inFlight sent received cs msgs : List Bytes} {c msg : Bytes}

theorem Sealed.snoc (h : Sealed A key r cs msgs s)
    (hc : A.encrypt key (counterNonce s) [] msg = some c) :
    Sealed A key r (cs ++ [c]) (msgs ++ [msg]) (s + 1) := by
  induction h with
  | nil ctr => exact .cons hc (.nil _)
  | cons head tail ih => exact .cons head (ih hc)

theorem Sealed.length_eq (h : Sealed A key r cs msgs s) : cs.length = msgs.length := by
  induction h with
  | nil => rfl
  | cons _ _ ih => rw [List.length_cons, List.length_cons, ih]

theorem Sealed.length_le (h : Sealed A key r cs msgs s) (hA : A.Tagged) {n : Nat}
    (hmsgs : ∀ m ∈ msgs, m.length + 16 ≤ n) : ∀ c ∈ cs, c.length ≤ n := by
  induction h with
  | nil => exact fun _ hc => absurd hc List.not_mem_nil
  | cons head _ ih =>
    rw [List.forall_mem_cons] at hmsgs ⊢
    exact ⟨(hA head).trans_le hmsgs.1, ih hmsgs.2⟩

theorem Sealed.last_eq (h : Sealed A key r cs msgs s) : s = r + UInt64.ofNat cs.length := by
  induction h with
  | nil ctr => exact (UInt64.add_zero ctr).symm
  | cons _ _ ih =>
    rw [ih, List.length_cons, UInt64.ofNat_add, UInt64.add_assoc, UInt64.add_comm (UInt64.ofNat _)]
    rfl

theorem Sealed.of_append {cs' msgs' : List Bytes}
    (h : Sealed A key r (cs ++ cs') (msgs ++ msgs') s) (hlength : cs.length = msgs.length) :
    ∃ last, Sealed A key r cs msgs last := by
  induction cs generalizing r msgs with
  | nil =>
    obtain rfl := List.eq_nil_of_length_eq_zero hlength.symm
    exact ⟨r, .nil r⟩
  | cons c cs ih =>
    cases msgs with
    | nil => cases hlength
    | cons msg msgs =>
      cases h with
      | cons head tail =>
        obtain ⟨last, hlast⟩ := ih tail (Nat.succ.inj hlength)
        exact ⟨last, .cons head hlast⟩

theorem exists_sealed (hA : A.Inverts) (key : Arr 32) (ctr : UInt64) (msgs : List Bytes) :
    ∃ cs last, Sealed A key ctr cs msgs last := by
  induction msgs generalizing ctr with
  | nil => exact ⟨[], ctr, .nil ctr⟩
  | cons msg msgs ih =>
    obtain ⟨c, hc, -⟩ := hA key (counterNonce ctr) [] msg
    obtain ⟨cs, last, hcs⟩ := ih (ctr + 1)
    exact ⟨c :: cs, last, .cons hc hcs⟩

theorem InStep.start (ctr : UInt64) : InStep A key ctr ctr [] [] [] := ⟨[], rfl, .nil ctr⟩

theorem InStep.seal (h : InStep A key s r inFlight sent received)
    (hc : sealNext A key s msg = some (c, ctr)) :
    InStep A key ctr r (inFlight ++ [c]) (sent ++ [msg]) received := by
  obtain ⟨pending, rfl, hs⟩ := h
  obtain ⟨c', he, hp⟩ := Option.map_eq_some_iff.mp hc
  obtain ⟨rfl, rfl⟩ := Prod.mk.inj hp
  exact ⟨pending ++ [msg], List.append_assoc _ _ _, hs.snoc he⟩

theorem InStep.openHead (hA : A.Inverts) (h : InStep A key s r (c :: inFlight) sent received) :
    ∃ msg, openNext A key r c = some (msg, r + 1) ∧
      InStep A key s (r + 1) inFlight sent (received ++ [msg]) := by
  obtain ⟨pending, rfl, hs⟩ := h
  cases hs with
  | @cons _ _ _ msg _ msgs head tail =>
    refine ⟨msg, ?_, msgs, ?_, tail⟩
    · rw [openNext, hA.decrypt_of_encrypt head, Option.map_some]
    · rw [List.append_assoc, List.singleton_append]

theorem InStep.received_isPrefix (h : InStep A key s r inFlight sent received) :
    received <+: sent := by
  obtain ⟨pending, rfl, -⟩ := h
  exact List.prefix_append _ _

theorem InStep.length_eq (h : InStep A key s r inFlight sent received) :
    received.length + inFlight.length = sent.length := by
  obtain ⟨pending, rfl, hs⟩ := h
  rw [List.length_append, hs.length_eq]

theorem sealNext_ok (hA : A.Inverts) (key : Arr 32) (ctr : UInt64) (msg : Bytes) :
    ∃ c, sealNext A key ctr msg = some (c, ctr + 1) := by
  obtain ⟨c, hc, -⟩ := hA key (counterNonce ctr) [] msg
  exact ⟨c, by rw [sealNext, hc, Option.map_some]⟩

end HapRust.Lib
