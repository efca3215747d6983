import HapRust.Lib.Run
import HapRust.Transport.Http
import Mathlib.Logic.Function.Basic

/-! The secure session as a system: any number of calls of `request`, the socket,
an accessory that answers requests in the order in which it received them, and
the reader task with its channel of responses. Every step is one that another
task may come before, and a call may be dropped wherever it is suspended. -/

namespace HapRust.Transport
open Lib Crypto

inductive Phase where
  | idle
  | waiting
  | locked
  | writing (done : List Bytes) (pending : Bytes) (blocks : List Bytes)
  | awaiting
  | returned (result : Except TransportError HapResponse)
  | dropped
  deriving DecidableEq

namespace Phase

def suspended : Phase → Bool
  | waiting | locked | awaiting => true
  | writing _ pending blocks => !pending.isEmpty || blocks.isEmpty
  | _ => false

def begun : Phase → Bool
  | writing done _ _ => !done.isEmpty
  | awaiting => true
  | _ => false

def sent : Phase → Bool
  | writing done pending blocks => !done.isEmpty && pending.isEmpty && blocks.isEmpty
  | awaiting => true
  | _ => false

def holdsResponses : Phase → Bool
  | locked | writing _ _ _ | awaiting => true
  | _ => false

end Phase

structure SessionState where
  phase : Nat → Phase
  responses : Option Nat
  writer : Option Nat
  counter : UInt64
  wire : Bytes
  received : List Nat
  answers : List HapResponse
  transit : List HapResponse
  channel : List (Except TransportError HapResponse)
  readerDone : Bool
  -- A call was dropped, or failed, after it had begun and before it took a response.
  cutShort : Bool

inductive SessionAction where
  | call (c : Nat)
  | lockResponses (c : Nat)
  | lockWriter (c : Nat)
  | sealBlock (c : Nat)
  | accept (c n : Nat)
  | writeFails (c : Nat)
  | flush (c : Nat)
  | answer (r : HapResponse)
  | deliver
  | readerFails (e : TransportError)
  | readerPanics
  | take (c : Nat)
  | noResponse (c : Nat)
  | drop (c : Nat)

namespace SessionState

def new : SessionState := ⟨fun _ => .idle, none, none, 0, [], [], [], [], [], false, false⟩

def goto (s : SessionState) (c : Nat) (p : Phase) : SessionState :=
  { s with phase := Function.update s.phase c p }

def finish (s : SessionState) (c : Nat) (p : Phase) : SessionState :=
  { s with
    phase := Function.update s.phase c p
    responses := if s.responses = some c then none else s.responses
    writer := if s.writer = some c then none else s.writer }

def cut (s : SessionState) (c : Nat) : SessionState :=
  { s with cutShort := s.cutShort || (s.phase c).begun }

def channelCapacity : Nat := 8

variable (P : Primitives) (key : Arr 32) (request : Nat → Request)

def step (s : SessionState) : SessionAction → Option SessionState
  | .call c => if s.phase c = .idle then some (s.goto c .waiting) else none
  | .lockResponses c =>
    if s.phase c = .waiting ∧ s.responses = none then
      some ({ s with responses := some c }.goto c .locked)
    else none
  | .lockWriter c =>
    if s.phase c = .locked ∧ s.writer = none then
      some ({ s with writer := some c }.goto c
        (.writing [] [] (chunks maxBlock (encodeRequest (request c)))))
    else none
  | .sealBlock c =>
    match s.phase c with
    | .writing done [] (block :: blocks) =>
      match encryptFrame P key s.counter block with
      | (.ok frame, counter) =>
        some ({ s with counter := counter }.goto c (.writing (done ++ [block]) frame blocks))
      | (.error e, counter) =>
        some ({ s.cut c with counter := counter }.finish c (.returned (.error e)))
    | _ => none
  | .accept c n =>
    match s.phase c with
    | .writing done pending blocks =>
      if 0 < n ∧ n ≤ pending.length then
        some ({ s with
          wire := s.wire ++ pending.take n
          received := if pending.drop n = [] ∧ blocks = [] then s.received ++ [c]
            else s.received }.goto c (.writing done (pending.drop n) blocks))
      else none
    | _ => none
  | .writeFails c =>
    match s.phase c with
    | .writing done pending blocks =>
      if (Phase.writing done pending blocks).suspended then
        some ((s.cut c).finish c (.returned (.error .io)))
      else none
    | _ => none
  | .flush c =>
    match s.phase c with
    | .writing _ [] [] => some ({ s with writer := none }.goto c .awaiting)
    | _ => none
  | .answer r =>
    if s.answers.length < s.received.length then
      some { s with answers := s.answers ++ [r], transit := s.transit ++ [r] }
    else none
  | .deliver =>
    match s.transit with
    | r :: rest =>
      if s.readerDone = false ∧ s.channel.length < channelCapacity then
        some { s with transit := rest, channel := s.channel ++ [.ok r] }
      else none
    | [] => none
  | .readerFails e =>
    if s.readerDone = false ∧ s.channel.length < channelCapacity then
      some { s with channel := s.channel ++ [.error e], readerDone := true }
    else none
  | .readerPanics => if s.readerDone = false then some { s with readerDone := true } else none
  | .take c =>
    match s.phase c, s.channel with
    | .awaiting, result :: rest => some ({ s with channel := rest }.finish c (.returned result))
    | _, _ => none
  | .noResponse c =>
    if s.phase c = .awaiting ∧ s.channel = [] ∧ s.readerDone = true then
      some (s.finish c (.returned (.error .noResponse)))
    else none
  | .drop c =>
    if (s.phase c).suspended then some ((s.cut c).finish c .dropped) else none

/-- Every call that returned a response returned the answer to its own request. -/
def Paired (s : SessionState) : Prop :=
  ∀ c r, s.phase c = .returned (.ok r) → ∃ i : Nat, s.received[i]? = some c ∧ s.answers[i]? = some r

/-- No frame is sealed once a call has been cut short. -/
def Unspoiled (s : SessionState) : SessionAction → Prop
  | .sealBlock _ => s.cutShort = false
  | _ => True

instance (s : SessionState) : (a : SessionAction) → Decidable (s.Unspoiled a)
  | .sealBlock _ => inferInstanceAs (Decidable (s.cutShort = false))
  | .call _ | .lockResponses _ | .lockWriter _ | .accept _ _ | .writeFails _ | .flush _ | .answer _
  | .deliver | .readerFails _ | .readerPanics | .take _ | .noResponse _ | .drop _ => isTrue trivial

inductive Moves (s : SessionState) : SessionAction → SessionState → Prop
  | call {c : Nat} (hphase : s.phase c = .idle) : Moves s (.call c) (s.goto c .waiting)
  | lockResponses {c : Nat} (hphase : s.phase c = .waiting) (hfree : s.responses = none) :
      Moves s (.lockResponses c) ({ s with responses := some c }.goto c .locked)
  | lockWriter {c : Nat} (hphase : s.phase c = .locked) (hfree : s.writer = none) :
      Moves s (.lockWriter c) ({ s with writer := some c }.goto c
        (.writing [] [] (chunks maxBlock (encodeRequest (request c)))))
  | sealBlock {c : Nat} {done blocks : List Bytes} {block frame : Bytes} {counter : UInt64}
      (hphase : s.phase c = .writing done [] (block :: blocks))
      (hframe : encryptFrame P key s.counter block = (.ok frame, counter)) :
      Moves s (.sealBlock c)
        ({ s with counter := counter }.goto c (.writing (done ++ [block]) frame blocks))
  | sealFails {c : Nat} {done blocks : List Bytes} {block : Bytes} {e : TransportError}
      {counter : UInt64} (hphase : s.phase c = .writing done [] (block :: blocks))
      (hframe : encryptFrame P key s.counter block = (.error e, counter)) :
      Moves s (.sealBlock c) ({ s.cut c with counter := counter }.finish c (.returned (.error e)))
  | accept {c n : Nat} {done blocks : List Bytes} {pending : Bytes}
      (hphase : s.phase c = .writing done pending blocks) (hpos : 0 < n) (hn : n ≤ pending.length) :
      Moves s (.accept c n) ({ s with
        wire := s.wire ++ pending.take n
        received := if pending.drop n = [] ∧ blocks = [] then s.received ++ [c]
          else s.received }.goto c (.writing done (pending.drop n) blocks))
  | writeFails (c : Nat) : Moves s (.writeFails c) ((s.cut c).finish c (.returned (.error .io)))
  | flush {c : Nat} {done : List Bytes} (hphase : s.phase c = .writing done [] []) :
      Moves s (.flush c) ({ s with writer := none }.goto c .awaiting)
  | answer (r : HapResponse) (hlt : s.answers.length < s.received.length) :
      Moves s (.answer r) { s with answers := s.answers ++ [r], transit := s.transit ++ [r] }
  | deliver {r : HapResponse} {rest : List HapResponse} (htransit : s.transit = r :: rest)
      (hrun : s.readerDone = false) :
      Moves s .deliver { s with transit := rest, channel := s.channel ++ [.ok r] }
  | readerFails (e : TransportError) (hrun : s.readerDone = false) :
      Moves s (.readerFails e) { s with channel := s.channel ++ [.error e], readerDone := true }
  | readerPanics (hrun : s.readerDone = false) : Moves s .readerPanics { s with readerDone := true }
  | take {c : Nat} {result : Except TransportError HapResponse}
      {rest : List (Except TransportError HapResponse)} (hphase : s.phase c = .awaiting)
      (hchannel : s.channel = result :: rest) :
      Moves s (.take c) ({ s with channel := rest }.finish c (.returned result))
  | noResponse {c : Nat} (hphase : s.phase c = .awaiting) (hchannel : s.channel = [])
      (hdone : s.readerDone = true) :
      Moves s (.noResponse c) (s.finish c (.returned (.error .noResponse)))
  | drop (c : Nat) : Moves s (.drop c) ((s.cut c).finish c .dropped)

variable {P key request}

theorem moves_of_step {s t : SessionState} {a : SessionAction}
    (h : s.step P key request a = some t) : Moves P key request s a t := by
  cases a with
  | call c =>
    obtain ⟨hphase, rfl⟩ := guarded_eq_some.mp h
    exact .call hphase
  | lockResponses c =>
    obtain ⟨⟨hphase, hfree⟩, rfl⟩ := guarded_eq_some.mp h
    exact .lockResponses hphase hfree
  | lockWriter c =>
    obtain ⟨⟨hphase, hfree⟩, rfl⟩ := guarded_eq_some.mp h
    exact .lockWriter hphase hfree
  | sealBlock c =>
    simp only [step] at h
    split at h
    · next done block blocks hphase =>
      split at h
      · next frame counter hframe =>
        cases h
        exact .sealBlock hphase hframe
      · next e counter hframe =>
        cases h
        exact .sealFails hphase hframe
    · cases h
  | accept c n =>
    simp only [step] at h
    split at h
    · next done pending blocks hphase =>
      obtain ⟨⟨hpos, hn⟩, rfl⟩ := guarded_eq_some.mp h
      exact .accept hphase hpos hn
    · cases h
  | writeFails c =>
    simp only [step] at h
    split at h
    · obtain ⟨-, rfl⟩ := guarded_eq_some.mp h
      exact .writeFails c
    · cases h
  | flush c =>
    simp only [step] at h
    split at h
    · next done hphase =>
      cases h
      exact .flush hphase
    · cases h
  | answer r =>
    obtain ⟨hlt, rfl⟩ := guarded_eq_some.mp h
    exact .answer r hlt
  | deliver =>
    simp only [step] at h
    split at h
    · next r rest htransit =>
      obtain ⟨⟨hrun, -⟩, rfl⟩ := guarded_eq_some.mp h
      exact .deliver htransit hrun
    · cases h
  | readerFails e =>
    obtain ⟨⟨hrun, -⟩, rfl⟩ := guarded_eq_some.mp h
    exact .readerFails e hrun
  | readerPanics =>
    obtain ⟨hrun, rfl⟩ := guarded_eq_some.mp h
    exact .readerPanics hrun
  | take c =>
    simp only [step] at h
    split at h
    · next result rest hphase hchannel =>
      cases h
      exact .take hphase hchannel
    · cases h
  | noResponse c =>
    obtain ⟨⟨hphase, hchannel, hdone⟩, rfl⟩ := guarded_eq_some.mp h
    exact .noResponse hphase hchannel hdone
  | drop c =>
    obtain ⟨-, rfl⟩ := guarded_eq_some.mp h
    exact .drop c

end SessionState
end HapRust.Transport
