import HapRust.Lib.Run
import Mathlib.Logic.Function.Basic

/-! A handle to an accessory over IP: the supervisor task, which alone makes new
sessions, and the operations of the handle, one at a time, each of which asks on
the session that is current and may be dropped while it waits. Sessions are
numbered as they are made. -/

namespace HapRust.Controller
open Lib

abbrev CharId := UInt64 × UInt64

instance : LawfulBEq CharId := inferInstance

inductive Supervisor where
  | taking (session : Nat)
  | draining (session : Nat)
  | reconnecting
  | connected (session : Nat)
  | resubscribing (session : Nat) (ids : List CharId)
  deriving DecidableEq, Repr

def Supervisor.fresh : Supervisor → Option Nat
  | connected k | resubscribing k _ => some k
  | _ => none

inductive Op where
  | accessories
  | subscribe (id : CharId)
  | unsubscribe (id : CharId)
  deriving DecidableEq, Repr

/-- An attribute tree: the config number the accessory had when it sent it, and
whether a reconnect has reported another since, and no call has looked at it. -/
structure AccessoryTree where
  config : UInt32
  outdated : Bool
  deriving DecidableEq, Repr

def AccessoryTree.report (config : UInt32) (t : AccessoryTree) : AccessoryTree :=
  { t with outdated := t.outdated || t.config != config }

inductive Call where
  | idle
  | asking (op : Op) (session : Nat) (again : Bool) (tree : Option AccessoryTree)
  | waiting (op : Op) (dead : Nat)
  deriving DecidableEq, Repr

namespace Call

def session : Call → Option Nat
  | asking _ k _ _ => some k
  | _ => none

def tree : Call → Option AccessoryTree
  | asking _ _ _ t => t
  | _ => none

def report (config : UInt32) : Call → Call
  | asking op k again t => asking op k again (t.map (AccessoryTree.report config))
  | c => c

end Call

structure HandleState where
  supervisor : Supervisor
  lastCn : Option UInt32
  current : Nat
  made : Nat
  needsRefresh : Bool
  subscribed : List CharId
  cached : Option AccessoryTree
  call : Call
  watching : Nat → List CharId
  settled : CharId → Option Bool

inductive HandleAction where
  | begin (op : Op)
  | handled (config : UInt32)
  | succeeds
  | fails
  | dies
  | elapsed
  | wakes
  | takeEvents
  | sessionEnds
  | reconnected (config : Option UInt32)
  | snapshot
  | resubscribed (accepted : Bool)
  | publish
  deriving DecidableEq, Repr

namespace HandleState

def new : HandleState :=
  ⟨.taking 0, none, 0, 1, false, [], none, .idle, fun _ => [], fun _ => none⟩

def ask (s : HandleState) (op : Op) (again : Bool) : HandleState :=
  { s with call := .asking op s.current again none }

def accessories (s : HandleState) : HandleState :=
  match if s.needsRefresh then none else s.cached with
  | none => { s with needsRefresh := false, cached := none }.ask .accessories false
  | some t => { s with needsRefresh := false, cached := some { t with outdated := false } }

def watch (s : HandleState) (k : Nat) (ids : List CharId) : HandleState :=
  { s with watching := Function.update s.watching k ids }

def handle (s : HandleState) (config : UInt32) : Option HandleState :=
  match s.call with
  | .asking .accessories k again _ =>
    some { s with call := .asking .accessories k again (some ⟨config, false⟩) }
  | .asking (.subscribe id) k _ _ => some (s.watch k (s.watching k ++ [id]))
  | .asking (.unsubscribe id) k _ _ => some (s.watch k ((s.watching k).filter (· ≠ id)))
  | _ => none

def succeed (s : HandleState) : Option HandleState :=
  match s.call with
  | .asking .accessories _ _ (some t) => some { s with cached := some t, call := .idle }
  | .asking (.subscribe id) _ _ _ => some { s with
      subscribed := if id ∈ s.subscribed then s.subscribed else s.subscribed ++ [id]
      settled := Function.update s.settled id (some true)
      call := .idle }
  | .asking (.unsubscribe id) _ _ _ => some { s with
      subscribed := s.subscribed.filter (· ≠ id)
      settled := Function.update s.settled id (some false)
      call := .idle }
  | _ => none

def checkConfig (s : HandleState) (config : UInt32) : HandleState :=
  { s with
    needsRefresh := s.needsRefresh || (s.lastCn.isSome && s.lastCn != some config)
    lastCn := some config
    cached := s.cached.map (AccessoryTree.report config)
    call := s.call.report config }

def reconnect (s : HandleState) (config : Option UInt32) : HandleState :=
  let s := config.elim s s.checkConfig
  { s with supervisor := .connected s.made, made := s.made + 1 }

def step (s : HandleState) : HandleAction → Option HandleState
  | .begin op =>
    match s.call, op with
    | .idle, .accessories => some s.accessories
    | .idle, op => some (s.ask op false)
    | _, _ => none
  | .handled config => s.handle config
  | .succeeds => s.succeed
  | .fails => if s.call ≠ .idle then some { s with call := .idle } else none
  | .dies =>
    match s.call with
    | .asking op k false _ => some { s with call := .waiting op k }
    | _ => none
  | .elapsed =>
    match s.call with
    | .asking op k false _ =>
      -- retried only if the supervisor has already swapped a fresh session in
      if s.current = k then some { s with call := .idle } else some (s.ask op true)
    | _ => none
  | .wakes =>
    match s.call with
    | .waiting op dead => if s.current ≠ dead then some (s.ask op true) else none
    | _ => none
  | .takeEvents =>
    match s.supervisor with
    | .taking k => some { s with supervisor := .draining k }
    | _ => none
  | .sessionEnds =>
    match s.supervisor with
    | .draining _ => some { s with supervisor := .reconnecting }
    | _ => none
  | .reconnected config =>
    if s.supervisor = .reconnecting then some (s.reconnect config) else none
  | .snapshot =>
    match s.supervisor with
    | .connected k => some { s with supervisor := .resubscribing k s.subscribed }
    | _ => none
  | .resubscribed accepted =>
    match s.supervisor with
    | .resubscribing k (id :: ids) =>
      let s := if accepted then s.watch k (s.watching k ++ [id]) else s
      some { s with supervisor := .resubscribing k ids }
    | _ => none
  | .publish =>
    match s.supervisor with
    | .resubscribing k [] => some { s with supervisor := .taking k, current := k }
    | _ => none

end HandleState
end HapRust.Controller
