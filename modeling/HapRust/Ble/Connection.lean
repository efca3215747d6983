import HapRust.Lib.Run
import Mathlib.Algebra.Group.Nat.Defs

/-! The BLE connection with its transparent reconnects, and the holders of the
secure session over it: `verify_and_build`, then one operation after another
under the lock on the session. Links are numbered as they come up; every Pair
Verify remembers the link of each of its GATT operations. -/

namespace HapRust.Ble

def maxOpReconnects : Nat := 8
def maxReviveRetries : Nat := 3

def minVerifyOps : Nat := 4

inductive Pc where
  | enumerating
  | verifying (links : List Nat) (since : UInt64)
  | broadcastKey (links : List Nat) (since : UInt64)
  | sampling (links : List Nat) (since : UInt64)
  | failed
  | idle
  | checking (attempts : Nat)
  | reviving (attempts : Nat) (links : List Nat) (since : UInt64)
  | requesting (attempts : Nat)
  deriving DecidableEq, Repr

namespace Pc

def usesGatt : Pc → Bool
  | enumerating | verifying _ _ | broadcastKey _ _ | reviving _ _ _ | requesting _ => true
  | _ => false

def handshake : Pc → Option (List Nat × UInt64)
  | verifying links since | broadcastKey links since | sampling links since
  | reviving _ links since => some (links, since)
  | _ => none

def exchanged (link : Nat) : Pc → Pc
  | verifying links since => verifying (links ++ [link]) since
  | reviving attempts links since => reviving attempts (links ++ [link]) since
  | pc => pc

def dropped : Pc → Pc
  | enumerating | verifying _ _ | broadcastKey _ _ | sampling _ _ | failed => failed
  | idle | checking _ | reviving _ _ _ | requesting _ => idle

end Pc

structure Secure where
  links : List Nat
  generation : UInt64
  deriving DecidableEq, Repr

structure Connection where
  link : Nat
  up : Bool
  generation : UInt64
  reconnecting : Bool
  attempts : Nat
  pc : Pc
  secure : Option Secure
  deriving DecidableEq, Repr

inductive LinkAction where
  | linkDrops
  | gattOk
  | gattLost
  | gattErr
  | connected
  | connectFails (linkUp : Bool)
  | stepOk
  | stepErr
  | begin (retries : Bool)
  | drop (linkUp : Bool)
  deriving DecidableEq, Repr

namespace Connection

def new : Connection := ⟨0, true, 0, false, 0, .enumerating, none⟩

def store (s : Connection) (links : List Nat) (pc : Pc) : Connection :=
  { s with secure := some ⟨links, s.generation⟩, pc := pc }

def stale (s : Connection) : Bool := s.secure.any (·.generation < s.generation)

def giveUp (s : Connection) : Option Connection :=
  match s.pc with
  | .enumerating | .verifying _ _ | .sampling _ _ => some { s with pc := .failed }
  | .broadcastKey links since => some { s with pc := .sampling links since }
  | .reviving _ _ _ => some { s with pc := .idle }
  | .requesting attempts =>
    if attempts + 1 < maxReviveRetries ∧ s.stale = true then
      some { s with pc := .checking (attempts + 1) }
    else some { s with pc := .idle }
  | _ => none

def done (s : Connection) : Option Connection :=
  match s.pc with
  | .enumerating => some { s with pc := .verifying [] s.generation }
  | .verifying links since =>
    if minVerifyOps ≤ links.length then some { s with pc := .broadcastKey links since } else none
  | .broadcastKey links since => some { s with pc := .sampling links since }
  | .sampling links _ => some (s.store links .idle)
  | .checking attempts =>
    if s.stale = true then some { s with pc := .reviving attempts [] s.generation }
    else some { s with pc := .requesting attempts }
  | .reviving attempts links _ =>
    if minVerifyOps ≤ links.length then some (s.store links (.requesting attempts)) else none
  | .requesting _ => some { s with pc := .idle }
  | _ => none

def step (s : Connection) : LinkAction → Option Connection
  | .linkDrops => some { s with up := false }
  | .gattOk =>
    if s.pc.usesGatt = true ∧ s.reconnecting = false ∧ s.up = true then
      some { s with attempts := 0, pc := s.pc.exchanged s.link }
    else none
  | .gattLost =>
    if s.pc.usesGatt = true ∧ s.reconnecting = false then
      if s.attempts + 1 > maxOpReconnects then { s with attempts := 0 }.giveUp
      else some { s with
        attempts := s.attempts + 1, generation := s.generation + 1, reconnecting := true
        up := false }
    else none
  | .gattErr =>
    if s.pc.usesGatt = true ∧ s.reconnecting = false then { s with attempts := 0 }.giveUp else none
  | .connected =>
    if s.reconnecting = true then
      some { s with link := s.link + 1, up := true, reconnecting := false }
    else none
  | .connectFails linkUp =>
    if s.reconnecting = true then
      { s with
        link := if linkUp then s.link + 1 else s.link
        up := linkUp, attempts := 0, reconnecting := false }.giveUp
    else none
  | .stepOk => if s.reconnecting = false then s.done else none
  | .stepErr => if s.reconnecting = false then s.giveUp else none
  | .begin retries =>
    if s.pc = .idle then
      some { s with pc := .checking (if retries then 0 else maxReviveRetries - 1) }
    else none
  | .drop linkUp =>
    if s.reconnecting = true then
      some { s with
        link := if linkUp then s.link + 1 else s.link
        up := linkUp, attempts := 0, reconnecting := false, pc := s.pc.dropped }
    else some { s with attempts := 0, pc := s.pc.dropped }

/-- While the stored generation is not behind, the keys were exchanged on the current link. -/
def KeysCurrent (s : Connection) : Prop :=
  ∀ k, s.secure = some k → s.generation ≤ k.generation →
    minVerifyOps ≤ k.links.length ∧ ∀ l ∈ k.links, l = s.link

/-- A session is stored only if no reconnect has begun since its Pair Verify did;
and the generation counter does not wrap. -/
def Undisturbed (s : Connection) : LinkAction → Prop
  | .stepOk =>
    match s.pc with
    | .sampling _ since | .reviving _ _ since => s.generation = since
    | _ => True
  | .gattLost => s.generation.toNat + 1 < 2 ^ 64
  | _ => True

instance (s : Connection) : (a : LinkAction) → Decidable (s.Undisturbed a)
  | .stepOk =>
    match h : s.pc with
    | .sampling _ since | .reviving _ _ since =>
      decidable_of_iff (s.generation = since) (by simp [Undisturbed, h])
    | .enumerating | .verifying _ _ | .broadcastKey _ _ | .failed | .idle | .checking _
    | .requesting _ => isTrue (by simp [Undisturbed, h])
  | .gattLost => inferInstanceAs (Decidable (s.generation.toNat + 1 < 2 ^ 64))
  | .linkDrops | .gattOk | .gattErr | .connected | .connectFails _ | .stepErr | .begin _
  | .drop _ => isTrue trivial

end Connection
end HapRust.Ble
