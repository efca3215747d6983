import HapRust.Ble.Operations
import HapRust.Ble.SessionChannels

/-! The accessory's end of a BLE session. It opens each sealed write that reaches it
and seals its answer to each read; its counters are followed along a request, with
the reconnects that are made and the operations that fail. -/

namespace HapRust.Ble
open Lib Tlv8 Crypto BleM

/-- What comes of an operation, and whether the accessory took it all the same: opened the
write, or sealed an answer to the read. -/
inductive Fate where
  | done (link : Nat) (value : Bytes)
  | lost (link : Option Nat)
  | failed (e : GattFault) (taken : Bool)
  deriving DecidableEq

namespace Fate

def answer : Fate → Answer
  | done link value => .done link value
  | lost link => .lost link
  | failed e _ => .failed e

def taken : Fate → Bool
  | done _ _ => true
  | lost link => link.isSome
  | failed _ taken => taken

end Fate

structure Peer where
  recvCounter : UInt64
  sendCounter : UInt64
  deriving DecidableEq, Repr

def Peer.new : Peer := ⟨0, 0⟩

def Peer.serve (p : Peer) : GattOp → Peer
  | .write _ _ => { p with recvCounter := p.recvCounter + 1 }
  | .read _ => { p with sendCounter := p.sendCounter + 1 }
  | .connect => p

def BleState.InStep (s : BleState) (p : Peer) : Prop :=
  s.session.sendCounter = p.recvCounter ∧ s.session.recvCounter = p.sendCounter

instance (s : BleState) (p : Peer) : Decidable (s.InStep p) :=
  inferInstanceAs (Decidable (_ ∧ _))

def GattOp.even (taken : Bool) : GattOp → Bool
  | .write _ _ => taken
  | .read _ => !taken
  | .connect => true

structure Tally where
  peer : Peer
  connects : Nat
  even : Bool
  deriving DecidableEq, Repr

namespace Tally

def new (p : Peer) : Tally := ⟨p, 0, true⟩

def observe (g : Tally) (op : GattOp) (x : Fate) : Tally where
  peer := if x.taken = true then g.peer.serve op else g.peer
  connects := g.connects + if op = .connect then 1 else 0
  even := g.even && match x with
    | .failed _ taken => op.even taken
    | _ => true

end Tally

section
variable {α β : Type}

def tallied (d : Dialogue GattOp Answer α) (g : Tally) : Dialogue GattOp Fate (α × Tally) :=
  (d.translate id Fate.answer).observed Tally.observe g

theorem outcome_tallied (d : Dialogue GattOp Answer α) (g : Tally) (fates : List Fate) :
    ((tallied d g).outcome fates).map Prod.fst = d.outcome (fates.map Fate.answer) :=
  (Dialogue.outcome_observed _ _ _ _).trans (Dialogue.outcome_translate _ _ _ _)

structure Tracks (s₀ s : BleState) (g : Tally) : Prop where
  since : s.since = s₀.since
  generation : s.generation = s₀.generation + UInt64.ofNat g.connects

theorem Tracks.observe {s₀ s : BleState} {g : Tally} (h : Tracks s₀ s g) {op : GattOp}
    (hop : op ≠ .connect) (x : Fate) : Tracks s₀ s (g.observe op x) := by
  refine ⟨h.since, ?_⟩
  show s.generation = s₀.generation + UInt64.ofNat (g.connects + if op = .connect then 1 else 0)
  rw [if_neg hop]
  exact h.generation

theorem Tracks.reconnect {s₀ s : BleState} {g : Tally} (h : Tracks s₀ s g) (x : Fate) :
    Tracks s₀ { s with generation := s.generation + 1 } (g.observe .connect x) := by
  refine ⟨h.since, ?_⟩
  show s.generation + 1 = s₀.generation + UInt64.ofNat (g.connects + 1)
  rw [h.generation, UInt64.ofNat_add, UInt64.add_assoc]
  rfl

theorem Tracks.reach {s₀ s : BleState} {g : Tally} (h : Tracks s₀ s g) (op : GattOp)
    (link : Nat) : Tracks s₀ (s.reach op link) g := ⟨h.since, h.generation⟩

def unsealed : Except BleError α → Bool
  | .error e => e = .crypto .aead
  | .ok _ => false

end

section
variable (P : Primitives)

theorem sealFrag_cases (frag : Bytes) (s : BleState) :
    sealFrag P frag s = .ret (.error (.crypto .aead), s) ∨
      ∃ c, sealFrag P frag s = .ret (.ok c, s.sealed) := by
  rw [sealFrag_eq, BleSession.seal, sealNext]
  cases P.chacha20Poly1305.encrypt s.session.keys.writeKey (counterNonce s.session.sendCounter) []
    frag with
  | none => exact .inl rfl
  | some c => exact .inr ⟨c, rfl⟩

def BleState.opened (s : BleState) : BleState :=
  { s with session := { s.session with recvCounter := s.session.recvCounter + 1 } }

theorem openFrag_cases (data : Bytes) (s : BleState) :
    openFrag P data s = .ret (.error (.crypto .aead), s) ∨
      ∃ frag, openFrag P data s = .ret (.ok frag, s.opened) := by
  rw [openFrag_eq, BleSession.open, openNext]
  cases P.chacha20Poly1305.decrypt s.session.keys.readKey (counterNonce s.session.recvCounter) []
    data with
  | none => exact .inl rfl
  | some frag => exact .inr ⟨frag, rfl⟩

variable {P}

variable (P)

variable {P}

end
end HapRust.Ble
