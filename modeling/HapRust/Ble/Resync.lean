import HapRust.Ble.Tally

/-! The handle of an accessory between its operations. Each operation is made of
requests, one after another, and may fail or be dropped in any of them; the next
one finds the counters of both ends in step, or makes a new session first. -/

namespace HapRust.Ble
open Lib Tlv8 Crypto BleM

structure Handle where
  state : BleState
  peer : Peer
  deriving DecidableEq

/-- One request of an operation, with what comes of each of its GATT operations: those of the
Pair Verify, if the session is stale, and those of the request itself. -/
structure Attempt where
  uuid : String
  op : OpCode
  iid : UInt16
  body : Bytes
  fragSize : Nat
  verify : List Fate
  request : List Fate

def Attempt.fates (x : Attempt) : List Fate := x.verify ++ x.request

namespace Handle

/-- The next operation makes a new session first, or the counters are in step. -/
structure Ready (h : Handle) : Prop where
  le : h.state.since ≤ h.state.generation
  inStep : h.state.generation ≤ h.state.since → h.state.InStep h.peer

section
variable (P : Primitives) (r : Reviver)

def counts (s : BleState) (g : Tally) : Bool := s.generation.toNat + g.connects < 2 ^ 64

def request (h : Handle) (x : Attempt) : Option (Handle × Bool) :=
  ((tallied (requestSecure P x.uuid x.op h.state.tid x.iid x.body x.fragSize h.state)
    (.new h.peer)).outcome x.request).map fun ((result, t), g) =>
      (⟨t, g.peer⟩, counts h.state g && (g.connects != 0 || g.even && !unsealed result))

def attempt (h : Handle) (x : Attempt) : Option (Handle × Bool) :=
  ((tallied (reviveIfStale P r h.state) (.new h.peer)).outcome x.verify).bind fun ((revived, s), g) =>
    match revived with
    | .error _ => if x.request = [] then some (⟨s, h.peer⟩, counts h.state g) else none
    | .ok () =>
      (request P ⟨s.requesting, if h.state.generation ≤ h.state.since then h.peer else .new⟩ x).map
        fun (h', calm) => (h', counts h.state g && calm)

def step (h : Handle) (x : Attempt) : Option Handle := (attempt P r h x).map Prod.fst

def undisturbed (h : Handle) (x : Attempt) : Bool := (attempt P r h x).any Prod.snd

end

/-! ## One request -/

section
variable {P : Primitives} {r : Reviver} {h h' : Handle} {x : Attempt}

end
end Handle
end HapRust.Ble
