import HapRust.Ble.Operations
import HapRust.Lib.Routine

/-! Encrypted reads and writes over any link. The link answers what its generation is, runs Pair
Verify, and writes and reads; it may fail at any of these and have been made anew at any time. A
call holds the lock on the session from its beginning to its end, or until it is given up at one
of its questions: what several tasks do to the session is a sequence of such calls. -/

namespace HapRust.Ble
open Lib Tlv8 Crypto

inductive LinkOp where
  | generation
  | verify
  | write (uuid : String) (value : Bytes)
  | read (uuid : String)
  deriving DecidableEq

structure LinkReply where
  generation : UInt64
  verified : Except BleError SessionKeys
  value : Except BleError Bytes

inductive Event where
  | minted (keys : SessionKeys)
  | attempt (keys : SessionKeys)
  | sealed (key : Arr 32) (counter : UInt64) (frag : Bytes)
  | failed
  deriving DecidableEq

structure SecureState where
  session : BleSession
  tid : UInt8
  generation : UInt64
  generations : List UInt64
  events : List Event
  deriving DecidableEq

abbrev SecureM := Routine SecureState LinkOp LinkReply BleError

namespace SecureState

def new (keys : SessionKeys) (generation : UInt64) : SecureState :=
  ⟨.new keys, 0, generation, [], [.minted keys]⟩

def heard (s : SecureState) (g : UInt64) : SecureState := { s with generations := s.generations ++ [g] }

def renewed (s : SecureState) (keys : SessionKeys) : SecureState :=
  { s with session := .new keys, tid := 0, events := s.events ++ [.minted keys] }

def begun (s : SecureState) : SecureState :=
  { s with tid := s.tid + 1, events := s.events ++ [.attempt s.session.keys] }

def sealed (s : SecureState) (frag : Bytes) : SecureState :=
  { s with
    session := { s.session with sendCounter := s.session.sendCounter + 1 }
    events := s.events ++ [.sealed s.session.keys.writeKey s.session.sendCounter frag] }

def opened (s : SecureState) : SecureState :=
  { s with session := { s.session with recvCounter := s.session.recvCounter + 1 } }

def failing (s : SecureState) : SecureState := { s with events := s.events ++ [.failed] }

end SecureState

namespace SecureM
open Routine

def generation : SecureM UInt64 := do
  let x ← ask .generation
  modify (·.heard x.generation)
  pure x.generation

def revive : SecureM Unit := do
  let x ← ask .verify
  let keys ← lift x.verified
  modify (·.renewed keys)
  let g ← generation
  modify fun s => { s with generation := g }

def reviveIfStale : SecureM Unit := do
  let g ← generation
  let s ← get
  if g ≤ s.generation then pure () else revive

section
variable (P : Primitives) (uuid : String)

def sealFrag (frag : Bytes) : SecureM Bytes := do
  let s ← get
  match sealNext P.chacha20Poly1305 s.session.keys.writeKey s.session.sendCounter frag with
  | none => throw (.crypto .aead)
  | some (out, _) =>
    modify (·.sealed frag)
    pure out

def openFrag (data : Bytes) : SecureM Bytes := do
  let s ← get
  match openNext P.chacha20Poly1305 s.session.keys.readKey s.session.recvCounter data with
  | none => throw (.crypto .aead)
  | some (out, _) =>
    modify (·.opened)
    pure out

def writeSealed : List Bytes → SecureM Unit
  | [] => pure ()
  | frag :: frags => do
    let sealed ← sealFrag P frag
    let x ← ask (.write uuid sealed)
    let _ ← lift x.value
    writeSealed frags

def readSealed : SecureM Bytes := do
  let x ← ask (.read uuid)
  let data ← lift x.value
  openFrag P data

def readResponse : SecureM Response :=
  (FragmentReader.lifting lift (readSealed P uuid)).readResponse

def requestSecure (op : OpCode) (tid : UInt8) (iid : UInt16) (body : Bytes) (fragSize : Nat) :
    SecureM Response := do
  writeSealed P uuid (secureFragments op tid iid body fragSize)
  readResponse P uuid

variable (op : OpCode) (iid : UInt16) (body : Bytes) (fragSize : Nat)

def tryRequest : SecureM (Except BleError Response) := do
  reviveIfStale
  modify (·.begun)
  let s ← get
  let x ← catching (requestSecure P uuid op s.tid iid body fragSize)
  modify fun s => if x.isOk then s else s.failing
  pure x

def settled {α : Type} (settle : Response → Except BleError α) (again : Option (SecureM α)) :
    Except BleError Response → SecureM α
  | .ok resp => lift (settle resp)
  | .error e =>
    match again with
    | none => throw e
    | some again => do
      let g ← generation
      let s ← get
      if s.generation < g then again else throw e

def attempts {α : Type} (settle : Response → Except BleError α) : Nat → SecureM α
  | 0 => tryRequest P uuid op iid body fragSize >>= settled settle none
  | left + 1 =>
    tryRequest P uuid op iid body fragSize >>= settled settle (some (attempts settle left))

end

section
variable (P : Primitives) (fragSize : Nat) (uuid : String) (iid : UInt64)

def readCharRaw : SecureM Bytes :=
  if iid.toNat < 2 ^ 16 then
    attempts P uuid .characteristicRead (UInt16.ofNat iid.toNat) [] fragSize
      (fun resp => valueParam resp.body) (maxReviveRetries - 1)
  else throw (.characteristicNotFound 0 iid)

def writeCharRaw (value : Bytes) : SecureM Unit :=
  if iid.toNat < 2 ^ 16 then
    attempts P uuid .characteristicWrite (UInt16.ofNat iid.toNat) (encodeWriteBody value) fragSize
      (fun resp => if resp.status ≠ 0 then .error (.requestRejected resp.status) else .ok ())
      (maxReviveRetries - 1)
  else throw (.characteristicNotFound 0 iid)

end
end SecureM

inductive Call where
  | read (uuid : String) (iid : UInt64)
  | write (uuid : String) (iid : UInt64) (value : Bytes)
  deriving DecidableEq

section
variable (P : Primitives) (fragSize : Nat)

def Call.run : Call → SecureM Unit
  | read uuid iid => do
    let _ ← SecureM.readCharRaw P fragSize uuid iid
    pure ()
  | write uuid iid value => SecureM.writeCharRaw P fragSize uuid iid value

def SecureState.perform (s : SecureState) (call : Call × List LinkReply) : Option SecureState :=
  Routine.leaves (call.1.run P fragSize s) call.2

end

/-! ## Requests -/

namespace SecureM
open Routine

section
variable (P : Primitives) (uuid : String)

theorem sealFrag_cases (frag : Bytes) (s : SecureState) :
    sealFrag P frag s = .ret (.error (.crypto .aead), s) ∨
      ∃ c, sealFrag P frag s = .ret (.ok c, s.sealed frag) := by
  rw [sealFrag, bind_apply]
  simp only [Routine.get, Dialogue.ret_bind, andThen]
  cases sealNext P.chacha20Poly1305 s.session.keys.writeKey s.session.sendCounter frag with
  | none => exact .inl rfl
  | some r => exact .inr ⟨r.1, rfl⟩

theorem openFrag_cases (data : Bytes) (s : SecureState) :
    openFrag P data s = .ret (.error (.crypto .aead), s) ∨
      ∃ frag, openFrag P data s = .ret (.ok frag, s.opened) := by
  rw [openFrag, bind_apply]
  simp only [Routine.get, Dialogue.ret_bind, andThen]
  cases openNext P.chacha20Poly1305 s.session.keys.readKey s.session.recvCounter data with
  | none => exact .inl rfl
  | some r => exact .inr ⟨r.1, rfl⟩

structure Stable (I : SecureState → Prop) : Prop where
  sealed : ∀ {s} frag, I s → I (s.sealed frag)
  opened : ∀ {s}, I s → I s.opened

variable {I : SecureState → Prop} (h : Stable I)
include h

theorem keeps_sealFrag (frag : Bytes) : Keeps I (sealFrag P frag) := by
  refine .of_ret fun s hs => ?_
  rcases sealFrag_cases P frag s with hseal | ⟨c, hseal⟩
  · exact ⟨_, _, hseal, hs⟩
  · exact ⟨_, _, hseal, h.sealed frag hs⟩

theorem keeps_openFrag (data : Bytes) : Keeps I (openFrag P data) := by
  refine .of_ret fun s hs => ?_
  rcases openFrag_cases P data s with hopen | ⟨frag, hopen⟩
  · exact ⟨_, _, hopen, hs⟩
  · exact ⟨_, _, hopen, h.opened hs⟩

theorem keeps_writeSealed (frags : List Bytes) : Keeps I (writeSealed P uuid frags) := by
  induction frags with
  | nil => exact .pure ()
  | cons frag frags ih =>
    refine .bind (keeps_sealFrag P h frag) fun sealed => ?_
    exact .bind (.ask _) fun _ => .bind (.lift _) fun _ => ih

theorem keeps_readSealed : Keeps I (readSealed P uuid) :=
  .bind (.ask _) fun _ => .bind (.lift _) fun data => keeps_openFrag P h data

theorem keeps_readResponse : Keeps I (readResponse P uuid) :=
  FragmentReader.lifting_readResponse_of (C := Keeps I) .bind .lift (keeps_readSealed P uuid h)

theorem keeps_requestSecure (op : OpCode) (tid : UInt8) (iid : UInt16) (body : Bytes)
    (fragSize : Nat) : Keeps I (requestSecure P uuid op tid iid body fragSize) :=
  .bind (keeps_writeSealed P uuid h _) fun _ => keeps_readResponse P uuid h

end

theorem reviveIfStale_eq (s : SecureState) :
    reviveIfStale s = .ask (.generation, s) fun x =>
      (if x.generation ≤ s.generation then pure () else revive) (s.heard x.generation) :=
  rfl

theorem settled_again {α : Type} (settle : Response → Except BleError α) (again : SecureM α)
    (e : BleError) (s : SecureState) :
    settled settle (some again) (.error e) s = .ask (.generation, s) fun x =>
      (if s.generation < x.generation then again else throw e) (s.heard x.generation) :=
  rfl

end SecureM
end HapRust.Ble
