import HapRust.Crypto.PairSetupRun
import HapRust.Crypto.PairVerify
import HapRust.Lib.Rounds

/-! The two handshakes as clients of one loop: what each makes of a reply, and how
many messages it still has to send. -/

namespace HapRust.Crypto
open Lib

def PairSetupStep.next : PairSetupStep → Reaction Bytes AccessoryPairing
  | send m => .send m
  | done pairing => .done pairing

def PairVerifyStep.next : PairVerifyStep → Reaction Bytes SessionKeys
  | send m => .send m
  | done keys => .done keys

namespace PairSetupClient

def next (P : Primitives) (c : PairSetupClient) (reply : Bytes) :
    Except CryptoError (Reaction Bytes AccessoryPairing) × PairSetupClient :=
  let (step, c') := c.handle P reply
  (step.map PairSetupStep.next, c')

def left (c : PairSetupClient) : Nat :=
  match c.state with
  | .awaitingM2 => 2
  | .awaitingM4 _ _ => 1
  | _ => 0

theorem left_lt_of_send {P : Primitives} {c c' : PairSetupClient} {reply m : Bytes}
    (h : c.next P reply = (.ok (.send m), c')) : c'.left < c.left := by
  rw [next] at h
  rcases handle_cases P c reply with ⟨e, hh⟩ | ⟨hs, K, M1, m3, -, -, hh⟩ |
    ⟨K, M1, m5, hs, -, hh⟩ | ⟨K, -, ⟨e, hh⟩ | ⟨p, -, hh⟩⟩ <;> rw [hh] at h
  · cases h
  · obtain ⟨-, rfl⟩ := Prod.mk.inj h
    simp [left, hs]
  · obtain ⟨-, rfl⟩ := Prod.mk.inj h
    simp [left, hs]
  · cases h
  · cases h

end PairSetupClient

namespace PairVerifyClient

def next (P : Primitives) (c : PairVerifyClient) (reply : Bytes) :
    Except CryptoError (Reaction Bytes SessionKeys) × PairVerifyClient :=
  let (step, c') := c.handle P reply
  (step.map PairVerifyStep.next, c')

def left (c : PairVerifyClient) : Nat :=
  match c.state with
  | .awaitM2 => 1
  | _ => 0

theorem left_lt_of_send {P : Primitives} {c c' : PairVerifyClient} {reply m : Bytes}
    (h : c.next P reply = (.ok (.send m), c')) : c'.left < c.left := by
  rw [next] at h
  rcases handle_cases P c reply with ⟨e, hh⟩ | ⟨hs, E, m3, -, hh⟩ | ⟨-, shared, -, hh⟩ <;>
    rw [hh] at h
  · cases h
  · obtain ⟨-, rfl⟩ := Prod.mk.inj h
    simp [left, hs]
  · cases h

end PairVerifyClient

/-! ## The loops -/

section
variable {m : Type → Type} [Monad m] (P : Primitives) (exchange : Nat → Bytes → m Bytes)

def setupLoop (stuck : m (AccessoryPairing × PairSetupClient))
    (refuse : CryptoError → m (AccessoryPairing × PairSetupClient)) (fuel : Nat)
    (client : PairSetupClient) : m (AccessoryPairing × PairSetupClient) :=
  let (out, client) := client.start
  rounds stuck exchange (PairSetupClient.next P) refuse fuel 0 client out

def verifyLoop (stuck : m (SessionKeys × PairVerifyClient))
    (refuse : CryptoError → m (SessionKeys × PairVerifyClient)) (fuel : Nat)
    (client : PairVerifyClient) : m (SessionKeys × PairVerifyClient) :=
  let (out, client) := client.start
  rounds stuck exchange (PairVerifyClient.next P) refuse fuel 0 client out

/-- The loops of the source have no bound. Three rounds of Pair Setup and two of Pair Verify are
all there are, whatever is answered: no loop gets stuck with as many, or makes use of more. -/
theorem handshakes_end (n : Nat) (setup : PairSetupClient) (verify : PairVerifyClient)
    (stuck stuck' : m (AccessoryPairing × PairSetupClient))
    (refuse : CryptoError → m (AccessoryPairing × PairSetupClient))
    (stuckV stuckV' : m (SessionKeys × PairVerifyClient))
    (refuseV : CryptoError → m (SessionKeys × PairVerifyClient)) :
    setupLoop P exchange stuck refuse (n + 3) setup =
        setupLoop P exchange stuck' refuse 3 setup ∧
      verifyLoop P exchange stuckV refuseV (n + 2) verify =
        verifyLoop P exchange stuckV' refuseV 2 verify := by
  have hsetup : 3 ≤ n + 3 := Nat.le_add_left 3 n
  have hverify : 2 ≤ n + 2 := Nat.le_add_left 2 n
  exact ⟨rounds_eq (fun _ _ _ _ => PairSetupClient.left_lt_of_send) _ _ _ 0 _ _ hsetup
      (Nat.le_refl 3),
    rounds_eq (fun _ _ _ _ => PairVerifyClient.left_lt_of_send) _ _ _ 0 _ _ hverify
      (Nat.le_refl 2)⟩

end
end HapRust.Crypto
