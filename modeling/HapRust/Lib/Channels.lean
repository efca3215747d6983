import HapRust.Lib.Run
import HapRust.Lib.SealedChannel
import Mathlib.Logic.Function.Basic

/-! Channels that are sealed under counters, over a network that an adversary controls: what
is handed to a receiver may be any bytes. The cipher is ideal, that is, it has a log of what
it has sealed and opens nothing else. If each channel has its own key, then what a receiver
has opened is at all times a first part of what its sender has sealed. -/

namespace HapRust.Lib

structure SealEntry where
  key : Arr 32
  nonce : Arr 12
  aad : Bytes
  msg : Bytes
  ciphertext : Bytes
  deriving DecidableEq

def Aead.knowing (A : Aead) (log : List SealEntry) : Aead where
  encrypt := A.encrypt
  decrypt key nonce aad c :=
    (log.find? fun e => e.key = key ∧ e.nonce = nonce ∧ e.aad = aad ∧ e.ciphertext = c).map (·.msg)

theorem Aead.mem_of_knowing {A : Aead} {log : List SealEntry} {key : Arr 32} {nonce : Arr 12}
    {aad c msg : Bytes} (h : (A.knowing log).decrypt key nonce aad c = some msg) :
    ∃ e ∈ log, e.key = key ∧ e.nonce = nonce ∧ e.msg = msg := by
  obtain ⟨e, he, rfl⟩ := Option.map_eq_some_iff.mp h
  have hkey := List.find?_some he
  simp only [decide_eq_true_eq] at hkey
  exact ⟨e, List.mem_of_find?_eq_some he, hkey.1, hkey.2.1, rfl⟩

@[ext] structure Channels (ι : Type) where
  key : ι → Arr 32
  send : ι → UInt64
  recv : ι → UInt64
  log : List SealEntry
  sealed : ι → List Bytes
  opened : ι → List Bytes

inductive ChannelAct (ι : Type) where
  | send (i : ι) (msg : Bytes)
  | deliver (i : ι) (c : Bytes)

def ChannelAct.channel {ι : Type} : ChannelAct ι → ι
  | send i _ | deliver i _ => i

namespace Channels
variable {ι : Type}

def start (key : ι → Arr 32) : Channels ι :=
  ⟨key, fun _ => 0, fun _ => 0, [], fun _ => [], fun _ => []⟩

section
variable [DecidableEq ι] (A : Aead)

def sent (s : Channels ι) (i : ι) (msg : Bytes) : Option (Bytes × UInt64) → Channels ι
  | none => s
  | some (c, ctr) => { s with
      send := Function.update s.send i ctr
      log := s.log ++ [⟨s.key i, counterNonce (s.send i), [], msg, c⟩]
      sealed := Function.update s.sealed i (s.sealed i ++ [msg]) }

def received (s : Channels ι) (i : ι) : Option (Bytes × UInt64) → Channels ι
  | none => s
  | some (msg, ctr) => { s with
      recv := Function.update s.recv i ctr
      opened := Function.update s.opened i (s.opened i ++ [msg]) }

def step (s : Channels ι) : ChannelAct ι → Channels ι
  | .send i msg => s.sent i msg (sealNext A (s.key i) (s.send i) msg)
  | .deliver i c => s.received i (openNext (A.knowing s.log) (s.key i) (s.recv i) c)

end

/-- What is opened is what was sealed, in order, and no nonce is used twice under one key. -/
structure Safe (s : Channels ι) : Prop where
  inOrder : ∀ i, s.opened i <+: s.sealed i
  nonces : (s.log.map fun e => (e.key, e.nonce)).Nodup

/-- Sealing moves only the sender's counter of its channel, opening only the receiver's, and
bytes that do not open move none. -/
def Confined (s : Channels ι) (a : ChannelAct ι) (t : Channels ι) : Prop :=
  (∀ i, i ≠ a.channel → t.send i = s.send i ∧ t.recv i = s.recv i) ∧
    match a with
    | .send i _ => t.recv i = s.recv i
    | .deliver i _ => t.send i = s.send i ∧ (t.opened i = s.opened i → t.recv i = s.recv i)

structure Inv (s : Channels ι) : Prop where
  send : ∀ i, s.send i = UInt64.ofNat (s.sealed i).length
  recv : ∀ i, s.recv i = UInt64.ofNat (s.opened i).length
  inOrder : ∀ i, s.opened i <+: s.sealed i
  logged : ∀ e ∈ s.log, ∃ i n, e.key = s.key i ∧ e.nonce = counterNonce (UInt64.ofNat n) ∧
    (s.sealed i)[n]? = some e.msg
  nonces : (s.log.map fun e => (e.key, e.nonce)).Nodup

/-- No channel has carried so many messages that its counter wraps. -/
def Bounded (s : Channels ι) : Prop := ∀ i, (s.sealed i).length < 2 ^ 64

variable {s : Channels ι}

theorem Inv.safe (h : s.Inv) : s.Safe := ⟨h.inOrder, h.nonces⟩

theorem inv_start (key : ι → Arr 32) : (start key).Inv where
  send _ := rfl
  recv _ := rfl
  inOrder _ := List.prefix_refl _
  logged e he := by cases he
  nonces := List.nodup_nil

variable [DecidableEq ι] {A : Aead}

theorem Inv.sent (h : s.Inv) (hkeys : Function.Injective s.key) (hs : s.Bounded) {i : ι}
    {msg c : Bytes} : (s.sent i msg (some (c, s.send i + 1))).Inv where
  send j := by
    by_cases hj : j = i
    · subst hj
      simp only [Channels.sent, Function.update_self, List.length_append, List.length_singleton]
      rw [h.send, UInt64.ofNat_add]
      rfl
    · simp only [Channels.sent, Function.update_of_ne hj]
      exact h.send j
  recv := h.recv
  inOrder j := by
    by_cases hj : j = i
    · subst hj
      simp only [Channels.sent, Function.update_self]
      exact (h.inOrder j).trans (List.prefix_append _ _)
    · simp only [Channels.sent, Function.update_of_ne hj]
      exact h.inOrder j
  logged e he := by
    rcases List.mem_append.mp he with he | he
    · obtain ⟨j, n, hkey, hnonce, hmsg⟩ := h.logged e he
      refine ⟨j, n, hkey, hnonce, ?_⟩
      by_cases hj : j = i
      · subst hj
        simp only [Channels.sent, Function.update_self]
        rw [List.getElem?_append_left (List.getElem?_eq_some_iff.mp hmsg).1]
        exact hmsg
      · simp only [Channels.sent, Function.update_of_ne hj]
        exact hmsg
    · obtain rfl := List.mem_singleton.mp he
      refine ⟨i, (s.sealed i).length, rfl, by rw [h.send], ?_⟩
      simp only [Channels.sent, Function.update_self, List.getElem?_concat_length]
  nonces := by
    simp only [Channels.sent, List.map_append, List.map_cons, List.map_nil]
    refine List.nodup_append.mpr ⟨h.nonces, List.nodup_singleton _, ?_⟩
    intro used hused fresh hfresh heq
    obtain rfl := List.mem_singleton.mp hfresh
    obtain ⟨e, he, rfl⟩ := List.mem_map.mp hused
    obtain ⟨hkey, hnonce⟩ := Prod.mk.inj heq
    obtain ⟨j, n, hj, hn, hmsg⟩ := h.logged e he
    obtain rfl : j = i := hkeys (hj.symm.trans hkey)
    have hlt : n < (s.sealed j).length := (List.getElem?_eq_some_iff.mp hmsg).1
    have hmax := hs j
    rw [hn, h.send] at hnonce
    have hsame := counterNonce_injective (by omega) hmax hnonce
    omega

theorem Inv.received (h : s.Inv) (hkeys : Function.Injective s.key) (hs : s.Bounded) {i : ι}
    {msg c : Bytes} {ctr : UInt64}
    (hopen : openNext (A.knowing s.log) (s.key i) (s.recv i) c = some (msg, ctr)) :
    (s.received i (some (msg, ctr))).Inv := by
  obtain ⟨m, hdec, hpair⟩ := Option.map_eq_some_iff.mp hopen
  obtain ⟨rfl, rfl⟩ := Prod.mk.inj hpair
  obtain ⟨e, he, hkey, hnonce, rfl⟩ := Aead.mem_of_knowing hdec
  obtain ⟨j, n, hj, hn, hmsg⟩ := h.logged e he
  obtain rfl : j = i := hkeys (hj.symm.trans hkey)
  have hlt : n < (s.sealed j).length := (List.getElem?_eq_some_iff.mp hmsg).1
  have hle : (s.opened j).length ≤ (s.sealed j).length := (h.inOrder j).length_le
  have hmax := hs j
  obtain rfl : n = (s.opened j).length := by
    rw [hn, h.recv] at hnonce
    exact counterNonce_injective (by omega) (by omega) hnonce
  refine ⟨h.send, ?_, ?_, h.logged, h.nonces⟩
  · intro k
    by_cases hk : k = j
    · subst hk
      simp only [Channels.received, Function.update_self, List.length_append, List.length_singleton]
      rw [h.recv, UInt64.ofNat_add]
      rfl
    · simp only [Channels.received, Function.update_of_ne hk]
      exact h.recv k
  · intro k
    by_cases hk : k = j
    · subst hk
      simp only [Channels.received, Function.update_self]
      obtain ⟨rest, hrest⟩ := h.inOrder k
      rw [← hrest, List.getElem?_append_right (Nat.le_refl _), Nat.sub_self] at hmsg
      rw [← List.head?_eq_getElem?] at hmsg
      obtain ⟨tail, rfl⟩ := List.head?_eq_some_iff.mp hmsg
      exact ⟨tail, by rw [← hrest, List.append_assoc, List.singleton_append]⟩
    · simp only [Channels.received, Function.update_of_ne hk]
      exact h.inOrder k

theorem inv_step (h : s.Inv) (hkeys : Function.Injective s.key) (hs : s.Bounded)
    (a : ChannelAct ι) : (s.step A a).Inv := by
  cases a with
  | send i msg =>
    simp only [step]
    cases hseal : sealNext A (s.key i) (s.send i) msg with
    | none => exact h
    | some r =>
      obtain ⟨c, -, rfl⟩ := Option.map_eq_some_iff.mp hseal
      exact h.sent hkeys hs
  | deliver i c =>
    simp only [step]
    cases hopen : openNext (A.knowing s.log) (s.key i) (s.recv i) c with
    | none => exact h
    | some r => exact h.received hkeys hs hopen

theorem key_step (s : Channels ι) (a : ChannelAct ι) : (s.step A a).key = s.key := by
  cases a with
  | send i msg =>
    simp only [step]
    cases sealNext A (s.key i) (s.send i) msg <;> rfl
  | deliver i c =>
    simp only [step]
    cases openNext (A.knowing s.log) (s.key i) (s.recv i) c <;> rfl

theorem sealed_step (s : Channels ι) (a : ChannelAct ι) (j : ι) :
    s.sealed j <+: (s.step A a).sealed j := by
  cases a with
  | send i msg =>
    simp only [step]
    cases sealNext A (s.key i) (s.send i) msg with
    | none => exact List.prefix_refl _
    | some r =>
      by_cases hj : j = i
      · subst hj
        simp only [sent, Function.update_self]
        exact List.prefix_append _ _
      · simp only [sent, Function.update_of_ne hj]
        exact List.prefix_refl _
  | deliver i c =>
    simp only [step]
    cases openNext (A.knowing s.log) (s.key i) (s.recv i) c <;> exact List.prefix_refl _

theorem Bounded.of_step {a : ChannelAct ι} (h : (s.step A a).Bounded) : s.Bounded :=
  fun i => Nat.lt_of_le_of_lt (sealed_step s a i).length_le (h i)

theorem confined_step (s : Channels ι) (a : ChannelAct ι) : Confined s a (s.step A a) := by
  cases a with
  | send i msg =>
    simp only [Confined, step, ChannelAct.channel]
    cases sealNext A (s.key i) (s.send i) msg with
    | none => exact ⟨fun _ _ => ⟨rfl, rfl⟩, rfl⟩
    | some r => exact ⟨fun j hj => ⟨Function.update_of_ne hj _ _, rfl⟩, rfl⟩
  | deliver i c =>
    simp only [Confined, step, ChannelAct.channel]
    cases openNext (A.knowing s.log) (s.key i) (s.recv i) c with
    | none => exact ⟨fun _ _ => ⟨rfl, rfl⟩, rfl, fun _ => rfl⟩
    | some r =>
      refine ⟨fun j hj => ⟨rfl, Function.update_of_ne hj _ _⟩, rfl, ?_⟩
      intro hopened
      simp only [received, Function.update_self] at hopened
      have hlen := congrArg List.length hopened
      simp at hlen

theorem safe_of_bounded {key : ι → Arr 32} (hkeys : Function.Injective key)
    (acts : List (ChannelAct ι)) (h : (runs (step A) (start key) acts).Bounded) :
    (runs (step A) (start key) acts).Safe := by
  suffices hinv : (runs (step A) (start key) acts).Inv ∧
      (runs (step A) (start key) acts).key = key from hinv.1.safe
  induction acts using List.reverseRecOn with
  | nil => exact ⟨inv_start key, rfl⟩
  | append_singleton acts a ih =>
    rw [runs_snoc] at h ⊢
    obtain ⟨hinv, hkey⟩ := ih h.of_step
    refine ⟨inv_step hinv ?_ h.of_step a, (key_step _ a).trans hkey⟩
    rw [hkey]
    exact hkeys

end Channels
end HapRust.Lib
