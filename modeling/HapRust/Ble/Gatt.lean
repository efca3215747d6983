import HapRust.Ble.Connection
import HapRust.Ble.Pdu
import HapRust.Crypto.Handshake
import HapRust.Lib.Dialogue
import HapRust.Lib.SealedChannel

/-! GATT operations over a link that may be lost at any of them. Each operation
reconnects and tries again a bounded number of times; PDUs, plain or sealed,
are exchanged over them, and Pair Verify over those. -/

namespace HapRust.Ble
open Lib Tlv8 Crypto

inductive GattOp where
  | write (uuid : String) (value : Bytes)
  | read (uuid : String)
  | connect
  deriving DecidableEq

inductive GattFault where
  | backend (msg : String)
  | notFound
  deriving DecidableEq

def GattFault.toError : GattFault → BleError
  | backend msg => .backend msg
  | notFound => .malformedPdu "gatt characteristic not found"

/-- What comes of an operation. One that reports a lost link may have reached the
accessory all the same. -/
inductive Answer where
  | done (link : Nat) (value : Bytes)
  | lost (link : Option Nat)
  | failed (e : GattFault)
  deriving DecidableEq

def Answer.reached : Answer → Option Nat
  | done link _ => some link
  | lost link => link
  | failed _ => none

structure BleSession where
  keys : SessionKeys
  sendCounter : UInt64
  recvCounter : UInt64
  deriving DecidableEq

def BleSession.new (keys : SessionKeys) : BleSession := ⟨keys, 0, 0⟩

structure BleState where
  generation : UInt64
  session : BleSession
  tid : UInt8
  since : UInt64
  -- The link on which the session is valid: that of every operation of its Pair Verify.
  validOn : Option Nat
  links : List Nat
  -- The writes that have reached the accessory since the last request began, with their links.
  delivered : List (Nat × Bytes)
  answered : Bool
  deriving DecidableEq

def BleState.reach (s : BleState) (op : GattOp) (link : Nat) : BleState :=
  { s with
    links := s.links ++ [link]
    delivered := match op with
      | .write _ value => s.delivered ++ [(link, value)]
      | _ => s.delivered }

/-- A task of the controller. Its state stays as it is when it fails. -/
def BleM (α : Type) : Type := BleState → Dialogue GattOp Answer (Except BleError α × BleState)

namespace BleM
variable {α β : Type}

def andThen (f : α → BleM β) : Except BleError α × BleState →
    Dialogue GattOp Answer (Except BleError β × BleState)
  | (.ok a, s) => f a s
  | (.error e, s) => .ret (.error e, s)

instance : Monad BleM where
  pure a s := .ret (.ok a, s)
  bind m f s := (m s).bind (andThen f)

def throw (e : BleError) : BleM α := fun s => .ret (.error e, s)

def lift (x : Except BleError α) : BleM α := fun s => .ret (x, s)

def get : BleM BleState := fun s => .ret (.ok s, s)

def modify (f : BleState → BleState) : BleM Unit := fun s => .ret (.ok (), f s)

def ask (op : GattOp) : BleM Answer := fun s => .ask op fun x => .ret (.ok x, s)

theorem bind_apply (m : BleM α) (f : α → BleM β) (s : BleState) :
    (m >>= f) s = (m s).bind (andThen f) := rfl

end BleM
open BleM

def reconnect : BleM Unit := do
  modify fun s => { s with generation := s.generation + 1 }
  match ← ask .connect with
  | .done _ _ => pure ()
  | .lost _ => throw .disconnected
  | .failed e => throw e.toError

def attempt (op : GattOp) (again : BleM Bytes) : BleM Bytes := do
  match ← ask op with
  | .done link value =>
    modify (·.reach op link)
    pure value
  | .lost link =>
    modify fun s => link.elim s (s.reach op)
    again
  | .failed e => throw e.toError

def retrying (op : GattOp) : Nat → BleM Bytes
  | 0 => attempt op (throw .disconnected)
  | left + 1 => attempt op do
    reconnect
    retrying op left

def write (uuid : String) (value : Bytes) : BleM Unit := do
  let _ ← retrying (.write uuid value) maxOpReconnects
  pure ()

def read (uuid : String) : BleM Bytes := retrying (.read uuid) maxOpReconnects

/-! ## Plain and sealed requests -/

def writeAll (uuid : String) : List Bytes → BleM Unit
  | [] => pure ()
  | frag :: frags => do
    write uuid frag
    writeAll uuid frags

def fragmentReader (next : BleM Bytes) : FragmentReader BleM Response := .lifting lift next

def readResponse (next : BleM Bytes) : BleM Response := (fragmentReader next).readResponse

def request (uuid : String) (op : OpCode) (tid : UInt8) (iid : UInt16) (body : Bytes)
    (fragSize : Nat) : BleM Response := do
  writeAll uuid (fragment (encodeRequest op tid iid body) fragSize)
  readResponse (read uuid)

section
variable (P : Primitives)

def sealFrag (pdu : Bytes) : BleM Bytes := do
  let s ← get
  match sealNext P.chacha20Poly1305 s.session.keys.writeKey s.session.sendCounter pdu with
  | none => throw (.crypto .aead)
  | some (out, counter) =>
    modify fun s => { s with session := { s.session with sendCounter := counter } }
    pure out

def openFrag (data : Bytes) : BleM Bytes := do
  let s ← get
  match openNext P.chacha20Poly1305 s.session.keys.readKey s.session.recvCounter data with
  | none => throw (.crypto .aead)
  | some (out, counter) =>
    modify fun s => { s with session := { s.session with recvCounter := counter } }
    pure out

def writeSealed (uuid : String) : List Bytes → BleM Unit
  | [] => pure ()
  | frag :: frags => do
    let sealed ← sealFrag P frag
    write uuid sealed
    writeSealed uuid frags

def secureFragments (op : OpCode) (tid : UInt8) (iid : UInt16) (body : Bytes) (fragSize : Nat) :
    List Bytes :=
  fragment (encodeRequest op tid iid body) (max (fragSize - 16) 1)

def readSealed (uuid : String) : BleM Bytes := do
  let data ← read uuid
  openFrag P data

def requestSecure (uuid : String) (op : OpCode) (tid : UInt8) (iid : UInt16) (body : Bytes)
    (fragSize : Nat) : BleM Response := do
  writeSealed P uuid (secureFragments op tid iid body fragSize)
  readResponse (readSealed P uuid)

/-! ## Pair Verify -/

structure Reviver where
  keypair : ControllerKeypair
  pairing : AccessoryPairing
  verifyChar : String
  verifyIid : UInt16
  fragSize : Nat
  ephemeral : Arr 32

def exchange (uuid : String) (tid : UInt8) (iid : UInt16) (tlv : Bytes) (fragSize : Nat) :
    BleM Bytes := do
  let resp ← request uuid .characteristicWrite tid iid (encodeWriteBody tlv) fragSize
  if resp.status ≠ 0 then throw (.pairingRejected resp.status)
  else lift (valueParam resp.body)

def commonLink : List Nat → Option Nat
  | [] => none
  | link :: links => if links.all (· == link) then some link else none

def pairVerify (r : Reviver) : BleM (Arr 32) := do
  modify fun s => { s with links := [] }
  let (keys, client) ← verifyLoop P
    (fun i out => exchange r.verifyChar (UInt8.ofNat (i + 1)) r.verifyIid out r.fragSize)
    (throw (.malformedPdu "")) (fun e => throw (.crypto e)) 2
    (PairVerifyClient.newWithEphemeral P r.keypair r.pairing r.ephemeral)
  let bkey ← lift (mapErr .crypto (client.broadcastKey P (r.keypair.ltpk P).val))
  modify fun s => { s with session := .new keys, validOn := commonLink s.links }
  pure bkey

def reviveIfStale (r : Reviver) : BleM Unit := do
  let s ← get
  if s.generation ≤ s.since then pure ()
  else do
    let _ ← pairVerify P r
    modify fun s => { s with tid := 0, since := s.generation }

end

/-! ## Whether the session is revived -/

section
variable (P : Primitives) (r : Reviver) {s : BleState}

end
end HapRust.Ble
