import HapRust.Pairing.FileStore

/-! What the file store is for: operations that take effect one at a time, each at
one moment between its call and its return. The tasks and the file are related to
such a machine: whoever holds the lock is the only one to write, and what others
have opened is never written again. -/

namespace HapRust.Pairing
open Lib Crypto

/-! ## Operations that take effect at once -/

def Op.edit : Op → Option (Document → Option Document)
  | .loadController | .loadPairings => none
  | .saveController k => some fun d => some (d.saveController k)
  | .savePairing a => some fun d => some (d.savePairing a)
  | .deletePairing id => some fun d => some (d.deletePairing id)
  | .saveBroadcastState id b => some fun d => d.saveBroadcastState id b

def Store.after (s : Store) : Op → Store
  | .loadController | .loadPairings => s
  | .saveController k => s.saveController k
  | .savePairing a => s.savePairing a
  | .deletePairing id => s.deletePairing id
  | .saveBroadcastState id b => s.saveBroadcastState id b

def Store.value (s : Store) : Op → Value
  | .loadController => .controller s.controller
  | .loadPairings => .pairings s.accessories.values
  | _ => .unit

structure Atomic where
  store : Store
  tasks : Nat → Option (Op × Option Outcome)
  orphan : Option Op

inductive AtomicAction where
  | call (t : Nat) (op : Op)
  | effect (t : Nat)
  | fault (t : Nat) (text : String)
  | finish (t : Nat) (outcome : Outcome)
  | drop (t : Nat) (kept : Bool)
  | settle
  | lapse
  deriving DecidableEq

inductive StoreEvent where
  | called (t : Nat) (op : Op)
  | faulted (t : Nat) (text : String)
  | returned (t : Nat) (outcome : Outcome)
  | dropped (t : Nat)
  deriving DecidableEq

def StoreAction.view : StoreAction → Option StoreEvent
  | .call t op => some (.called t op)
  | .fails t text => some (.faulted t text)
  | .finish t outcome => some (.returned t outcome)
  | .drop t => some (.dropped t)
  | _ => none

def AtomicAction.view : AtomicAction → Option StoreEvent
  | .call t op => some (.called t op)
  | .fault t text => some (.faulted t text)
  | .finish t outcome => some (.returned t outcome)
  | .drop t _ => some (.dropped t)
  | _ => none

namespace Atomic

def init (store : Store) : Atomic := ⟨store, fun _ => none, none⟩

def setTask (a : Atomic) (t : Nat) (task : Option (Op × Option Outcome)) : Atomic :=
  { a with tasks := Function.update a.tasks t task }

def step (a : Atomic) : AtomicAction → Option Atomic
  | .call t op => if a.tasks t = none then some (a.setTask t (some (op, none))) else none
  | .effect t =>
    match a.tasks t with
    | some (op, none) =>
      if op.edit.isNone ∨ a.orphan = none then
        some { a.setTask t (some (op, some (.ok (a.store.value op)))) with store := a.store.after op }
      else none
    | _ => none
  | .fault t text =>
    match a.tasks t with
    | some (op, outcome) =>
      if op.edit.isNone ∨ outcome = none then
        some (a.setTask t (some (op, some (.error (.store text)))))
      else none
    | none => none
  | .finish t outcome =>
    match a.tasks t with
    | some (_, some result) => if result = outcome then some (a.setTask t none) else none
    | _ => none
  | .drop t kept =>
    match a.tasks t, kept with
    | some _, false => some (a.setTask t none)
    | some (op, none), true =>
      if a.orphan = none then some { a.setTask t none with orphan := some op } else none
    | _, _ => none
  | .settle => a.orphan.map fun op => { a with store := a.store.after op, orphan := none }
  | .lapse => a.orphan.map fun _ => { a with orphan := none }

end Atomic

/-! ## Documents and edits -/

section Edits
variable {d : Document} {s : Store} {op : Op} {edit : Document → Option Document}

theorem Document.Represents.edit_some (h : d.Represents s) (hop : op.edit = some edit) {d' : Document}
    (hd : edit d = some d') : d'.Represents (s.after op) := by
  cases op with
  | loadController | loadPairings => cases hop
  | saveController k =>
    obtain rfl := Option.some.inj hop
    obtain rfl := Option.some.inj hd
    exact h.saveController k
  | savePairing a =>
    obtain rfl := Option.some.inj hop
    obtain rfl := Option.some.inj hd
    exact h.savePairing a
  | deletePairing id =>
    obtain rfl := Option.some.inj hop
    obtain rfl := Option.some.inj hd
    exact h.deletePairing id
  | saveBroadcastState id b =>
    obtain rfl := Option.some.inj hop
    exact h.saveBroadcastState_some hd

theorem Document.Represents.edit_none (h : d.Represents s) (hop : op.edit = some edit)
    (hd : edit d = none) : s.after op = s := by
  cases op with
  | loadController | loadPairings => cases hop
  | saveController _ | savePairing _ | deletePairing _ =>
    obtain rfl := Option.some.inj hop
    cases hd
  | saveBroadcastState id b =>
    obtain rfl := Option.some.inj hop
    exact h.saveBroadcastState_none hd

theorem value_of_edit (hop : op.edit = some edit) : s.value op = .unit := by
  cases op with
  | loadController | loadPairings => cases hop
  | _ => rfl

theorem after_of_load (hop : op.edit = none) : s.after op = s := by
  cases op with
  | loadController | loadPairings => rfl
  | _ => cases hop

end Edits

/-! ## The stages of an operation -/

section Stages
variable {β : Type} (S : Serde β)

def failWith (e : IoError) : Program β := .ret (.error (.store e.text))

def renameStage : Program β := .ask .rename fun
  | .ok _ => .ret (.ok .unit)
  | .error e => failWith e

def syncStage : Program β := .ask .sync fun
  | .ok _ => renameStage
  | .error e => failWith e

def writeStage (handle : Nat) (bytes : List β) : Program β := .ask (.write handle bytes) fun
  | .ok _ => syncStage
  | .error e => failWith e

def createStage (bytes : List β) : Program β := .ask .create fun
  | .ok f => writeStage (f.handle.getD 0) bytes
  | .error e => failWith e

def encodeStage (d : Document) : Program β :=
  match S.toVecPretty { d with version := some 2 } with
  | .ok bytes => createStage bytes
  | .error text => .ret (.error (.store text))

def editStage (edit : Document → Option Document) (d : Document) : Program β :=
  match edit d with
  | some d' => encodeStage S d'
  | none => .ret (.ok .unit)

def readStage (edit : Document → Option Document) : Program β := .ask .read fun answer =>
  match parseDoc S answer with
  | .ok d => editStage S edit d
  | .error e => .ret (.error e)

def Op.loaded (op : Op) (d : Document) : Outcome :=
  match op with
  | .loadController => d.loadController.map .controller
  | .loadPairings => d.loadPairings.map .pairings
  | _ => .ok .unit

def loadStage (op : Op) (answer : FsAnswer β) : Program β := .ret (parseDoc S answer >>= op.loaded)

variable {S} {op : Op}

theorem run_of_load (hop : op.edit = none) : op.run S = .ask .read (loadStage S op) := by
  cases op with
  | loadController =>
    refine Dialogue.ask_congr fun answer => ?_
    change returning .controller (Asking.andThen (fun d => Asking.lift d.loadController) (parseDoc S answer)) = _
    unfold loadStage
    cases parseDoc S answer <;> rfl
  | loadPairings =>
    refine Dialogue.ask_congr fun answer => ?_
    change returning .pairings (Asking.andThen (fun d => Asking.lift d.loadPairings) (parseDoc S answer)) = _
    unfold loadStage
    cases parseDoc S answer <;> rfl
  | _ => cases hop

theorem returning_writeDoc (d : Document) :
    returning (fun _ => .unit) (writeDoc S d) = encodeStage S d := by
  unfold writeDoc encodeStage
  cases S.toVecPretty { d with version := some 2 } with
  | error text => rfl
  | ok bytes =>
    refine Dialogue.ask_congr fun answer => ?_
    cases answer with
    | error e => rfl
    | ok f =>
      refine Dialogue.ask_congr fun answer => ?_
      cases answer with
      | error e => rfl
      | ok _ =>
        refine Dialogue.ask_congr fun answer => ?_
        cases answer with
        | error e => rfl
        | ok _ =>
          refine Dialogue.ask_congr fun answer => ?_
          cases answer <;> rfl

theorem returning_editDoc (edit : Document → Option Document) :
    returning (fun _ => .unit) (editDoc S edit) = .ask .lock fun _ => readStage S edit := by
  refine Dialogue.ask_congr fun _ => Dialogue.ask_congr fun answer => ?_
  change returning (fun _ => .unit) (Asking.andThen (fun d => match edit d with
    | some d' => writeDoc S d'
    | none => pure ()) (parseDoc S answer)) = _
  cases parseDoc S answer with
  | error e => rfl
  | ok d =>
    change returning (fun _ => .unit) (match edit d with
      | some d' => writeDoc S d'
      | none => pure ()) = editStage S edit d
    unfold editStage
    cases edit d with
    | none => rfl
    | some d' => exact returning_writeDoc d'

theorem run_of_edit {edit : Document → Option Document} (hop : op.edit = some edit) :
    op.run S = .ask .lock fun _ => readStage S edit := by
  cases op with
  | loadController | loadPairings => cases hop
  | _ =>
    obtain rfl := Option.some.inj hop
    exact returning_editDoc _

end Stages
end HapRust.Pairing
