import HapRust.Ble.Advert

/-! Watching a sleepy accessory. Every watch has a loop over advertisements, which decrypts
broadcasts and hands new GSNs to a task that polls the watched characteristics. All watches
of a handle share the last GSN and the record of what was emitted. Every step runs up to the
next point at which its task may be suspended, so that any other task may come in between. -/

namespace HapRust.Ble
open Lib

structure CharacteristicEvent where
  aid : UInt64
  iid : UInt64
  value : CharValue

/-- What a handle knows when a watch is armed: its characteristics, all of the one accessory
with id 1, and how its broadcast key opens a payload. -/
structure SleepyHandle where
  chars : UInt64 → Option (String × CharFormat)
  openBroadcast : UInt16 → Bytes → Arr 6 → Option Bytes

structure Target where
  aid : UInt64
  iid : UInt64
  uuid : String
  format : CharFormat
  deriving DecidableEq

namespace SleepyHandle
variable (H : SleepyHandle)

def lookUp (aid iid : UInt64) : Option (String × CharFormat) := if aid = 1 then H.chars iid else none

def targets (pollIids : List (UInt64 × UInt64)) : List Target :=
  pollIids.filterMap fun (aid, iid) =>
    (H.lookUp aid iid).map fun (uuid, format) => ⟨aid, iid, uuid, format⟩

def formats (iid : UInt64) : Option CharFormat := (H.chars iid).map (·.2)

def candidates (start : UInt16) : List UInt16 :=
  (start + 1) :: start :: (List.range' 2 99).map fun d => start + UInt16.ofNat d

def tryGsn (payload : Bytes) (advertisingId : Arr 6) (gsn : UInt16) : Option (UInt16 × Bytes) := do
  let pt ← H.openBroadcast gsn payload advertisingId
  if 12 ≤ pt.length ∧ u16Le pt = gsn then some (gsn, pt) else none

def decrypt (start : UInt16) (payload : Bytes) (advertisingId : Arr 6) : Option (UInt16 × Bytes) :=
  (candidates start).findSome? (H.tryGsn payload advertisingId)

end SleepyHandle

def broadcastIid (pt : Bytes) : UInt64 := (u16Le (pt.drop 2)).toUInt64

inductive AdvertPhase where
  | receiving
  | comparing (gsn : UInt16)
  | sampling (payload : Bytes)
  | storing (start gsn : UInt16) (pt : Bytes)
  | emitting (gsn : UInt16) (iid : UInt64) (value : CharValue)
  | ended

inductive PollPhase where
  | waiting
  | reading (gsn : UInt16) (targets : List Target)
  | emitting (gsn : UInt16) (target : Target) (value : CharValue) (rest : List Target)

structure Watch where
  deviceId : Arr 6
  targets : List Target
  adverts : AdvertPhase
  bump : UInt16
  changed : Bool
  poll : PollPhase

structure Shared where
  lastGsn : UInt16
  emitted : UInt64 → Option UInt16
  events : List (UInt16 × CharacteristicEvent)
  -- Every write to the last GSN: what it replaced, and by what.
  writes : List (UInt16 × UInt16)

def Shared.new (initialGsn : UInt16) : Shared := ⟨initialGsn, fun _ => none, [], []⟩

def Shared.advance (s : Shared) : Nat := (s.writes.map fun w => ahead w.1 w.2).sum

def Shared.setGsn (s : Shared) (gsn : UInt16) : Shared :=
  { s with lastGsn := gsn, writes := s.writes ++ [(s.lastGsn, gsn)] }

def Shared.dedupShouldEmit (s : Shared) (iid : UInt64) (gsn : UInt16) : Bool × Shared :=
  if s.emitted iid = some gsn then (false, s)
  else if (s.emitted iid).all (gsnIsNewer gsn) then
    (true, { s with emitted := Function.update s.emitted iid (some gsn) })
  else (true, s)

def Shared.emit (s : Shared) (gsn : UInt16) (event : CharacteristicEvent) : Shared :=
  match s.dedupShouldEmit event.iid gsn with
  | (true, s) => { s with events := s.events ++ [(gsn, event)] }
  | (false, s) => s

inductive WatchAction where
  | receive (mfg : Bytes)
  | compare
  | sample
  | store
  | emit
  | close
  | wake
  | read (raw : Option Bytes)
  | pollEmit

namespace Watch
variable (H : SleepyHandle)

def new (deviceId : Arr 6) (pollIids : List (UInt64 × UInt64)) : Watch :=
  ⟨deviceId, H.targets pollIids, .receiving, 0, false, .waiting⟩

def classify (w : Watch) (mfg : Bytes) : AdvertPhase :=
  match HapAdvert.parse mfg with
  | some (.regular deviceId gsn _) => if deviceId = w.deviceId then .comparing gsn else .receiving
  | some (.encryptedNotification advertisingId payload) =>
    if advertisingId = w.deviceId then .sampling payload else .receiving
  | none => .receiving

def decrypted (w : Watch) (start : UInt16) (payload : Bytes) : AdvertPhase :=
  match H.decrypt start payload w.deviceId with
  | some (gsn, pt) => if gsnIsNewer gsn start then .storing start gsn pt else .receiving
  | none => .receiving

def decoded (gsn : UInt16) (pt : Bytes) : AdvertPhase :=
  match H.formats (broadcastIid pt) with
  | none => .receiving
  | some format =>
    match decodeValue ((pt.drop 4).take 8) format with
    | .ok value => .emitting gsn (broadcastIid pt) value
    | .error _ => .receiving

def goOn (gsn : UInt16) : List Target → PollPhase
  | [] => .waiting
  | targets => .reading gsn targets

def step (s : Shared) (w : Watch) : WatchAction → Option (Shared × Watch)
  | .receive mfg =>
    match w.adverts with
    | .receiving => some (s, { w with adverts := w.classify mfg })
    | _ => none
  | .compare =>
    match w.adverts with
    | .comparing gsn =>
      if gsnIsNewer gsn s.lastGsn then
        some (s.setGsn gsn, { w with adverts := .receiving, bump := gsn, changed := true })
      else some (s, { w with adverts := .receiving })
    | _ => none
  | .sample =>
    match w.adverts with
    | .sampling payload => some (s, { w with adverts := w.decrypted H s.lastGsn payload })
    | _ => none
  | .store =>
    match w.adverts with
    -- whatever the last GSN is by now
    | .storing _ gsn pt => some (s.setGsn gsn, { w with adverts := decoded H gsn pt })
    | _ => none
  | .emit =>
    match w.adverts with
    | .emitting gsn iid value => some (s.emit gsn ⟨1, iid, value⟩, { w with adverts := .receiving })
    | _ => none
  | .close =>
    match w.adverts with
    | .receiving => some (s, { w with adverts := .ended })
    | _ => none
  | .wake =>
    match w.poll with
    | .waiting =>
      if w.changed = true ∧ w.targets ≠ [] then
        some (s, { w with changed := false, poll := .reading w.bump w.targets })
      else none
    | _ => none
  | .read raw =>
    match w.poll with
    | .reading gsn (target :: rest) =>
      match raw.bind fun raw => (decodeValue raw target.format).toOption with
      | some value => some (s, { w with poll := .emitting gsn target value rest })
      | none => some (s, { w with poll := goOn gsn rest })
    | _ => none
  | .pollEmit =>
    match w.poll with
    | .emitting gsn target value rest =>
      some (s.emit gsn ⟨target.aid, target.iid, value⟩, { w with poll := goOn gsn rest })
    | _ => none

inductive Moves (s : Shared) (w : Watch) : WatchAction → Shared → Watch → Prop
  | receive (mfg : Bytes) (hw : w.adverts = .receiving) :
      Moves s w (.receive mfg) s { w with adverts := w.classify mfg }
  | bump {gsn : UInt16} (hw : w.adverts = .comparing gsn) (hnew : gsnIsNewer gsn s.lastGsn = true) :
      Moves s w .compare (s.setGsn gsn)
        { w with adverts := .receiving, bump := gsn, changed := true }
  | suppress {gsn : UInt16} (hw : w.adverts = .comparing gsn) :
      Moves s w .compare s { w with adverts := .receiving }
  | sample {payload : Bytes} (hw : w.adverts = .sampling payload) :
      Moves s w .sample s { w with adverts := w.decrypted H s.lastGsn payload }
  | store {start gsn : UInt16} {pt : Bytes} (hw : w.adverts = .storing start gsn pt) :
      Moves s w .store (s.setGsn gsn) { w with adverts := decoded H gsn pt }
  | emit {gsn : UInt16} {iid : UInt64} {value : CharValue} (hw : w.adverts = .emitting gsn iid value) :
      Moves s w .emit (s.emit gsn ⟨1, iid, value⟩) { w with adverts := .receiving }
  | close (hw : w.adverts = .receiving) : Moves s w .close s { w with adverts := .ended }
  | wake (hw : w.poll = .waiting) (hchanged : w.changed = true) :
      Moves s w .wake s { w with changed := false, poll := .reading w.bump w.targets }
  | read {gsn : UInt16} {target : Target} {rest : List Target} (raw : Option Bytes)
      (value : CharValue) (hw : w.poll = .reading gsn (target :: rest)) :
      Moves s w (.read raw) s { w with poll := .emitting gsn target value rest }
  | skip {gsn : UInt16} {target : Target} {rest : List Target} (raw : Option Bytes)
      (hw : w.poll = .reading gsn (target :: rest)) :
      Moves s w (.read raw) s { w with poll := goOn gsn rest }
  | pollEmit {gsn : UInt16} {target : Target} {value : CharValue} {rest : List Target}
      (hw : w.poll = .emitting gsn target value rest) :
      Moves s w .pollEmit (s.emit gsn ⟨target.aid, target.iid, value⟩)
        { w with poll := goOn gsn rest }

variable {H}

theorem moves_of_step {s t : Shared} {w v : Watch} {a : WatchAction}
    (h : w.step H s a = some (t, v)) : Moves H s w a t v := by
  cases a with
  | receive mfg =>
    simp only [step] at h
    split at h
    · next hw =>
      cases h
      exact .receive mfg hw
    · cases h
  | compare =>
    simp only [step] at h
    split at h
    · next gsn hw =>
      split_ifs at h with hnew
      · cases h
        exact .bump hw hnew
      · cases h
        exact .suppress hw
    · cases h
  | sample =>
    simp only [step] at h
    split at h
    · next payload hw =>
      cases h
      exact .sample hw
    · cases h
  | store =>
    simp only [step] at h
    split at h
    · next start gsn pt hw =>
      cases h
      exact .store hw
    · cases h
  | emit =>
    simp only [step] at h
    split at h
    · next gsn iid value hw =>
      cases h
      exact .emit hw
    · cases h
  | close =>
    simp only [step] at h
    split at h
    · next hw =>
      cases h
      exact .close hw
    · cases h
  | wake =>
    simp only [step] at h
    split at h
    · next hw =>
      split_ifs at h with hchanged
      cases h
      exact .wake hw hchanged.1
    · cases h
  | read raw =>
    simp only [step] at h
    split at h
    · next gsn target rest hw =>
      split at h
      · next value _ =>
        cases h
        exact .read raw value hw
      · cases h
        exact .skip raw hw
    · cases h
  | pollEmit =>
    simp only [step] at h
    split at h
    · next gsn target value rest hw =>
      cases h
      exact .pollEmit hw
    · cases h

end Watch

/-! ## What a write and an event do to what the watches share -/

namespace Shared
variable {s : Shared}

theorem advance_setGsn (s : Shared) (gsn : UInt16) :
    (s.setGsn gsn).advance = s.advance + ahead s.lastGsn gsn := by
  simp only [advance, setGsn, List.map_append, List.sum_append, List.map_cons, List.map_nil,
    List.sum_singleton]

theorem emit_cases (s : Shared) (gsn : UInt16) (event : CharacteristicEvent) :
    (s.emit gsn event).lastGsn = s.lastGsn ∧ (s.emit gsn event).writes = s.writes ∧
    ((s.emit gsn event).emitted = s.emitted ∨
      (s.emitted event.iid).all (gsnIsNewer gsn) = true ∧
        (s.emit gsn event).emitted = Function.update s.emitted event.iid (some gsn)) ∧
    ((s.emit gsn event).events = s.events ∧ s.emitted event.iid = some gsn ∨
      (s.emit gsn event).events = s.events ++ [(gsn, event)]) := by
  unfold emit dedupShouldEmit
  split_ifs with hsame hnew
  · exact ⟨rfl, rfl, .inl rfl, .inl ⟨rfl, hsame⟩⟩
  · exact ⟨rfl, rfl, .inr ⟨hnew, rfl⟩, .inr rfl⟩
  · exact ⟨rfl, rfl, .inl rfl, .inr rfl⟩

theorem advance_emit (s : Shared) (gsn : UInt16) (event : CharacteristicEvent) :
    (s.emit gsn event).advance = s.advance := by
  rw [advance, (emit_cases s gsn event).2.1, advance]

end Shared
end HapRust.Ble
