import HapRust.Lib.Dialogue
import HapRust.Lib.Files
import HapRust.Lib.Run
import HapRust.Pairing.Document

/-! The store as a file. Tasks share it; whoever edits the document holds the lock,
reads the file, writes the new document under a temporary name and renames it.
Loads take no lock. Every file system call runs to its end once it is submitted,
even if the operation that waits for it has been dropped. -/

namespace HapRust.Pairing
open Lib Crypto Asking

/-- The JSON encoding of documents; a file is a list of `β`. -/
structure Serde (β : Type) where
  toVecPretty : Document → Except String (List β)
  fromSlice : List β → Except String Document

def Serde.RoundTrips {β : Type} (S : Serde β) : Prop :=
  ∀ d, ∃ bytes, S.toVecPretty d = .ok bytes ∧ S.fromSlice bytes = .ok d

inductive FileName where
  | store
  | tmp
  deriving DecidableEq, Repr

inductive FsCall (β : Type) where
  | lock
  | read
  | create
  | write (handle : Nat) (bytes : List β)
  | sync
  | rename
  deriving DecidableEq

structure IoError where
  notFound : Bool
  text : String
  deriving DecidableEq, Repr

structure FsReply (β : Type) where
  handle : Option Nat
  bytes : List β
  deriving DecidableEq

abbrev FsAnswer (β : Type) := Except IoError (FsReply β)

def FsReply.unit {β : Type} : FsReply β := ⟨none, []⟩

abbrev FsM (β α : Type) := Asking (FsCall β) (FsAnswer β) PairingError α

variable {β : Type}

/-! ## The operations -/

section Operations

def await (c : FsCall β) : FsM β (FsReply β) := do
  let answer ← ask c
  lift (mapErr (fun e => .store e.text) answer)

variable (S : Serde β)

def parseDoc : FsAnswer β → Except PairingError Document
  | .ok reply => do
    let doc ← mapErr .store (S.fromSlice reply.bytes)
    if doc.supported then return doc else .error (.malformed "unsupported store version")
  | .error e => if e.notFound then .ok Document.default else .error (.store e.text)

def readDoc : FsM β Document := do
  let answer ← ask .read
  lift (parseDoc S answer)

def writeDoc (doc : Document) : FsM β Unit := do
  let bytes ← lift (mapErr .store (S.toVecPretty { doc with version := some 2 }))
  let f ← await .create
  let _ ← await (.write (f.handle.getD 0) bytes)
  let _ ← await .sync
  let _ ← await .rename
  pure ()

def loadController : FsM β (Option ControllerKeypair) := do
  let doc ← readDoc S
  lift doc.loadController

def loadPairings : FsM β (List StoredAccessory) := do
  let doc ← readDoc S
  lift doc.loadPairings

def editDoc (edit : Document → Option Document) : FsM β Unit := do
  let _ ← ask .lock
  let doc ← readDoc S
  match edit doc with
  | some doc => writeDoc S doc
  | none => pure ()

def saveController (k : ControllerKeypair) : FsM β Unit := editDoc S fun d => some (d.saveController k)

def savePairing (a : StoredAccessory) : FsM β Unit := editDoc S fun d => some (d.savePairing a)

def deletePairing (id : String) : FsM β Unit := editDoc S fun d => some (d.deletePairing id)

def saveBroadcastState (id : String) (b : StoredBroadcast) : FsM β Unit :=
  editDoc S fun d => d.saveBroadcastState id b

end Operations

inductive Op where
  | loadController
  | loadPairings
  | saveController (k : ControllerKeypair)
  | savePairing (a : StoredAccessory)
  | deletePairing (id : String)
  | saveBroadcastState (id : String) (b : StoredBroadcast)
  deriving DecidableEq

inductive Value where
  | unit
  | controller (k : Option ControllerKeypair)
  | pairings (l : List StoredAccessory)
  deriving DecidableEq

abbrev Outcome := Except PairingError Value

abbrev Program (β : Type) := Dialogue (FsCall β) (FsAnswer β) Outcome

def returning {α : Type} (f : α → Value) (m : FsM β α) : Program β :=
  Dialogue.bind m fun x => .ret (x.map f)

def Op.run (S : Serde β) : Op → Program β
  | .loadController => returning .controller (Pairing.loadController S)
  | .loadPairings => returning .pairings (Pairing.loadPairings S)
  | .saveController k => returning (fun _ => .unit) (Pairing.saveController S k)
  | .savePairing a => returning (fun _ => .unit) (Pairing.savePairing S a)
  | .deletePairing id => returning (fun _ => .unit) (Pairing.deletePairing S id)
  | .saveBroadcastState id b => returning (fun _ => .unit) (Pairing.saveBroadcastState S id b)

/-! ## Tasks -/

inductive Progress (β : Type) where
  | submitted
  | opened (inode : Option Nat)
  | answered (answer : FsAnswer β)
  deriving DecidableEq

structure Task (β : Type) where
  op : Op
  program : Program β
  progress : Progress β

structure StoreState (β : Type) where
  fs : Files FileName β
  holder : Option Nat
  tasks : Nat → Option (Task β)
  orphans : List (FsCall β)

inductive StoreAction where
  | call (t : Nat) (op : Op)
  | lock (t : Nat)
  | opens (t : Nat)
  | performs (t : Nat)
  | fails (t : Nat) (text : String)
  | resume (t : Nat)
  | finish (t : Nat) (outcome : Outcome)
  | drop (t : Nat)
  | settles (k : Nat)
  | lapses (k : Nat)
  deriving DecidableEq

def readAnswer (fs : Files FileName β) : Option Nat → FsAnswer β
  | some i => .ok ⟨none, fs.contents i⟩
  | none => .error ⟨true, "No such file or directory (os error 2)"⟩

def FsCall.perform (fs : Files FileName β) : FsCall β → Option (Files FileName β × FsAnswer β)
  | .create => some ((fs.create .tmp).1, .ok ⟨some (fs.create .tmp).2, []⟩)
  | .write handle bytes => some (fs.write handle bytes, .ok .unit)
  | .sync => some (fs, .ok .unit)
  | .rename =>
    match fs.rename .tmp .store with
    | some fs' => some (fs', .ok .unit)
    | none => some (fs, readAnswer fs none)
  | .lock | .read => none

def FsCall.reports : FsCall β → Bool
  | .read | .create | .sync | .rename => true
  | .lock | .write _ _ => false

namespace Task

def start (S : Serde β) (op : Op) : Task β := ⟨op, op.run S, .submitted⟩

def lock : Task β → Option (Task β)
  | ⟨op, .ask .lock next, .submitted⟩ => some ⟨op, .ask .lock next, .answered (.ok .unit)⟩
  | _ => none

def opens (fs : Files FileName β) : Task β → Option (Task β)
  | ⟨op, .ask .read next, .submitted⟩ => some ⟨op, .ask .read next, .opened (fs.names .store)⟩
  | _ => none

def performs (fs : Files FileName β) : Task β → Option (Files FileName β × Task β)
  | ⟨op, .ask .read next, .opened inode⟩ =>
    some (fs, ⟨op, .ask .read next, .answered (readAnswer fs inode)⟩)
  | ⟨op, .ask q next, .submitted⟩ =>
    (q.perform fs).map fun (fs', answer) => (fs', ⟨op, .ask q next, .answered answer⟩)
  | _ => none

def fails (text : String) : Task β → Option (Task β)
  | ⟨op, .ask q next, .submitted⟩ | ⟨op, .ask q next, .opened _⟩ =>
    if q.reports then some ⟨op, .ask q next, .answered (.error ⟨false, text⟩)⟩ else none
  | _ => none

def resume : Task β → Option (Task β)
  | ⟨op, .ask _ next, .answered answer⟩ => some ⟨op, next answer, .submitted⟩
  | _ => none

def outcome : Task β → Option Outcome
  | ⟨_, .ret outcome, _⟩ => some outcome
  | _ => none

def orphan : Task β → List (FsCall β)
  | ⟨_, .ask .create _, .submitted⟩ => [.create]
  | ⟨_, .ask (.write handle bytes) _, .submitted⟩ => [.write handle bytes]
  | ⟨_, .ask .rename _, .submitted⟩ => [.rename]
  | _ => []

end Task

namespace StoreState
variable (S : Serde β)

def setTask (s : StoreState β) (t : Nat) (task : Option (Task β)) : StoreState β :=
  { s with tasks := Function.update s.tasks t task }

def leave (s : StoreState β) (t : Nat) : StoreState β :=
  { s.setTask t none with holder := if s.holder = some t then none else s.holder }

def step (s : StoreState β) : StoreAction → Option (StoreState β)
  | .call t op => if (s.tasks t).isNone then some (s.setTask t (some (.start S op))) else none
  | .lock t =>
    if s.holder = none then
      (s.tasks t).bind Task.lock |>.map fun task => { s.setTask t (some task) with holder := some t }
    else none
  | .opens t => (s.tasks t).bind (Task.opens s.fs) |>.map fun task => s.setTask t (some task)
  | .performs t =>
    (s.tasks t).bind (Task.performs s.fs) |>.map fun (fs', task) =>
      { s.setTask t (some task) with fs := fs' }
  | .fails t text => (s.tasks t).bind (Task.fails text) |>.map fun task => s.setTask t (some task)
  | .resume t => (s.tasks t).bind Task.resume |>.map fun task => s.setTask t (some task)
  | .finish t outcome =>
    if (s.tasks t).bind Task.outcome = some outcome then some (s.leave t) else none
  | .drop t => (s.tasks t).map fun task => { s.leave t with orphans := s.orphans ++ task.orphan }
  | .settles k =>
    s.orphans[k]?.bind (FsCall.perform s.fs) |>.map fun (fs', _) =>
      { s with fs := fs', orphans := s.orphans.eraseIdx k }
  | .lapses k =>
    s.orphans[k]?.map fun _ => { s with orphans := s.orphans.eraseIdx k }

end StoreState
end HapRust.Pairing
