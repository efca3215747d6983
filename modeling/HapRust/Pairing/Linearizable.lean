import HapRust.Pairing.Simulation

/-! Runs of the file store. As long as nobody takes the lock while a call of a
dropped operation is in flight, the file is always the store after the operations
that have taken effect, one at a time. -/

namespace HapRust.Pairing
open Lib Crypto
variable {β : Type} {S : Serde β} {s s₀ : StoreState β} {store : Store}

/-- Nothing is running, and the file is missing or a valid document. What the
temporary file holds does not matter. -/
structure StoreState.Initial (S : Serde β) (s : StoreState β) (store : Store) : Prop where
  file : Holds S s.fs store
  idle : ∀ t, s.tasks t = none
  free : s.holder = none
  settled : s.orphans = []

def StoreState.idle (fs : Files FileName β) : StoreState β := ⟨fs, none, fun _ => none, []⟩

theorem initial_of_holds {fs : Files FileName β} (h : Holds S fs store) :
    (StoreState.idle fs).Initial S store := ⟨h, fun _ => rfl, rfl, rfl⟩

theorem initial_document {fs : Files FileName β} {i : Nat} {d : Document}
    {accessories : OrderedMap StoredAccessory.id} {controller : Option ControllerKeypair}
    (hname : fs.names .store = some i) (hd : S.fromSlice (fs.contents i) = .ok d)
    (hversion : d.supported = true) (hcontroller : d.loadController = .ok controller)
    (hpairings : d.loadPairings = .ok accessories.values) :
    (StoreState.idle fs).Initial S ⟨controller, accessories⟩ :=
  initial_of_holds (holds_document hname hd ⟨hversion, hcontroller, hpairings⟩)

theorem StoreState.Initial.sim (h : s.Initial S store) : Sim S s (.init store) where
  file := h.file
  tasks t := by
    rw [h.idle t]
    trivial
  orphans := by
    rw [h.settled]
    exact .none
  free _ := h.settled

/-- What has been seen of the run is what operations show that take effect one at a
time on a map, and the file is what they have left. -/
def Linearizable (S : Serde β) (store : Store) (actions : List StoreAction) (s : StoreState β) :
    Prop :=
  ∃ actions' a, steps Atomic.step (.init store) actions' = some a ∧
    trace AtomicAction.view actions' = trace StoreAction.view actions ∧ Holds S s.fs a.store

/-- The lock is not given away while a call of a dropped operation is in flight. -/
def StoreState.Quiet (s : StoreState β) : StoreAction → Prop
  | .lock _ => s.orphans.isEmpty = true
  | _ => True

instance (s : StoreState β) : (i : StoreAction) → Decidable (s.Quiet i)
  | .lock _ => inferInstanceAs (Decidable (s.orphans.isEmpty = true))
  | .call _ _ | .opens _ | .performs _ | .fails _ _ | .resume _ | .finish _ _ | .drop _
  | .settles _ | .lapses _ => isTrue trivial

theorem simulate (hS : S.RoundTrips) {a : Atomic} {i : StoreAction} {s' : StoreState β}
    (h : Sim S s a) (hstep : restrict (StoreState.step S) StoreState.Quiet s i = some s') :
    Follows S s' a i.view := by
  rw [restrict_eq_some] at hstep
  obtain ⟨hquiet, hstep⟩ := hstep
  cases i with
  | call t op => exact simulate_call h hstep
  | lock t => exact simulate_lock h (List.isEmpty_iff.mp hquiet) hstep
  | opens t => exact simulate_opens h hstep
  | performs t => exact simulate_performs h hstep
  | fails t text => exact simulate_fails h hstep
  | resume t => exact simulate_resume hS h hstep
  | finish t outcome => exact simulate_finish h hstep
  | drop t => exact simulate_drop h hstep
  | settles k => exact simulate_settles h hstep
  | lapses k => exact simulate_lapses h hstep

theorem linearizable_of_sim (hS : S.RoundTrips) (h₀ : s₀.Initial S store)
    {actions : List StoreAction}
    (hrun : steps (restrict (StoreState.step S) StoreState.Quiet) s₀ actions = some s) :
    Linearizable S store actions s := by
  obtain ⟨actions', a, hsteps, hshown, hsim⟩ := steps_refine (simulate hS) actions h₀.sim hrun
  exact ⟨actions', a, hsteps, hshown, hsim.file⟩

theorem orphans_step {i : StoreAction} {s' : StoreState β} (h : s.orphans = [])
    (hi : ∀ t, i ≠ .drop t) (hstep : s.step S i = some s') : s'.orphans = [] := by
  cases i with
  | call t op =>
    obtain ⟨-, rfl⟩ := guarded_eq_some.mp hstep
    exact h
  | lock t =>
    obtain ⟨-, hstep⟩ := Option.ite_none_right_eq_some.mp hstep
    obtain ⟨task, -, rfl⟩ := Option.map_eq_some_iff.mp hstep
    exact h
  | opens t | performs t | fails t text | resume t =>
    obtain ⟨x, -, rfl⟩ := Option.map_eq_some_iff.mp hstep
    exact h
  | finish t outcome =>
    obtain ⟨-, rfl⟩ := guarded_eq_some.mp hstep
    exact h
  | drop t => exact absurd rfl (hi t)
  | settles k | lapses k =>
    obtain ⟨x, hx, rfl⟩ := Option.map_eq_some_iff.mp hstep
    rw [h] at hx
    cases hx

theorem quiet_of_undropped {actions : List StoreAction} (hdrop : ∀ t, .drop t ∉ actions)
    (h₀ : s₀.orphans = []) (hrun : steps (StoreState.step S) s₀ actions = some s) :
    steps (restrict (StoreState.step S) StoreState.Quiet) s₀ actions = some s := by
  refine steps_restrict (I := fun s => s.orphans = []) (p := fun i => ∀ t, i ≠ .drop t)
    orphans_step ?_ ?_ h₀ hrun
  · intro s i hs _
    cases i with
    | lock t => exact List.isEmpty_iff.mpr hs
    | _ => trivial
  · rintro i hi t rfl
    exact hdrop t hi

/-! ## What the operations called can do -/

structure Atomic.Within (P : Op → Prop) (I : Store → Prop) (a : Atomic) : Prop where
  store : I a.store
  tasks : ∀ t y, a.tasks t = some y → P y.1
  orphan : ∀ op, a.orphan = some op → P op

section Within
variable {P : Op → Prop} {I : Store → Prop} {a a' : Atomic}

theorem Atomic.Within.setTask (h : a.Within P I) {t : Nat} {y : Option (Op × Option Outcome)}
    (hy : ∀ z, y = some z → P z.1) : (a.setTask t y).Within P I where
  store := h.store
  tasks t' z hz := by
    by_cases ht : t' = t
    · subst ht
      simp only [Atomic.setTask, Function.update_self] at hz
      exact hy z hz
    · simp only [Atomic.setTask, Function.update_of_ne ht] at hz
      exact h.tasks t' z hz
  orphan := h.orphan

def AtomicAction.Calls (P : Op → Prop) : AtomicAction → Prop
  | .call _ op => P op
  | _ => True

theorem Atomic.Within.step (hkeep : ∀ m op, I m → P op → I (m.after op)) {j : AtomicAction}
    (h : a.Within P I) (hj : j.Calls P) (hstep : a.step j = some a') : a'.Within P I := by
  cases j with
  | call t op =>
    obtain ⟨-, rfl⟩ := guarded_eq_some.mp hstep
    exact h.setTask (by rintro z ⟨⟩; exact hj)
  | effect t =>
    simp only [Atomic.step] at hstep
    split at hstep
    · next op hat =>
      obtain ⟨-, rfl⟩ := guarded_eq_some.mp hstep
      have hop : P op := h.tasks t _ hat
      have hset := h.setTask (t := t) (y := some (op, some (.ok (a.store.value op))))
        (by rintro z ⟨⟩; exact hop)
      exact ⟨hkeep _ _ h.store hop, hset.tasks, hset.orphan⟩
    · cases hstep
  | fault t text =>
    simp only [Atomic.step] at hstep
    split at hstep
    · next op outcome hat =>
      obtain ⟨-, rfl⟩ := guarded_eq_some.mp hstep
      have hop : P op := h.tasks t _ hat
      exact h.setTask (by rintro z ⟨⟩; exact hop)
    · cases hstep
  | finish t outcome =>
    simp only [Atomic.step] at hstep
    split at hstep
    · obtain ⟨-, rfl⟩ := guarded_eq_some.mp hstep
      exact h.setTask (by rintro z ⟨⟩)
    · cases hstep
  | drop t kept =>
    have hset := h.setTask (t := t) (y := none) (by rintro z ⟨⟩)
    simp only [Atomic.step] at hstep
    split at hstep
    · obtain rfl := Option.some.inj hstep
      exact hset
    · next op hat =>
      obtain ⟨-, rfl⟩ := guarded_eq_some.mp hstep
      refine ⟨hset.store, hset.tasks, ?_⟩
      rintro _ ⟨⟩
      exact h.tasks t _ hat
    · cases hstep
  | settle =>
    obtain ⟨op, hop, rfl⟩ := Option.map_eq_some_iff.mp hstep
    exact ⟨hkeep _ _ h.store (h.orphan op hop), h.tasks, by rintro _ ⟨⟩⟩
  | lapse =>
    obtain ⟨op, -, rfl⟩ := Option.map_eq_some_iff.mp hstep
    exact ⟨h.store, h.tasks, by rintro _ ⟨⟩⟩

theorem Linearizable.within {actions : List StoreAction} (h : Linearizable S store actions s)
    (hkeep : ∀ m op, I m → P op → I (m.after op)) (hstore : I store)
    (hcalls : ∀ t op, .call t op ∈ actions → P op) : ∃ m, Holds S s.fs m ∧ I m := by
  obtain ⟨actions', a, hsteps, hshown, hfile⟩ := h
  have hcalls' : ∀ j ∈ actions', j.Calls P := by
    intro j hj
    cases j with
    | call t op =>
      have hmem : StoreEvent.called t op ∈ trace StoreAction.view actions := by
        rw [← hshown]
        exact List.mem_filterMap.mpr ⟨_, hj, rfl⟩
      obtain ⟨i, hi, hview⟩ := List.mem_filterMap.mp hmem
      cases i <;> cases hview
      exact hcalls t op hi
    | _ => trivial
  have hinit : (Atomic.init store).Within P I := ⟨hstore, by rintro _ _ ⟨⟩, by rintro _ ⟨⟩⟩
  have hwithin := steps_invariant_of (fun ha hj => ha.step hkeep hj) hcalls' hinit hsteps
  exact ⟨a.store, hfile, hwithin.store⟩

theorem Linearizable.started {actions : List StoreAction} (h : Linearizable S store actions s) :
    ∃ ops : List Op, (∀ op ∈ ops, ∃ t, .call t op ∈ actions) ∧
      Holds S s.fs (ops.foldl Store.after store) := by
  obtain ⟨m, hfile, ops, hops, rfl⟩ := h.within (P := fun op => ∃ t, .call t op ∈ actions)
    (I := fun m => ∃ ops : List Op, (∀ op ∈ ops, ∃ t, .call t op ∈ actions) ∧
      m = ops.foldl Store.after store)
    (by
      rintro _ op ⟨ops, hops, rfl⟩ hop
      refine ⟨ops ++ [op], ?_, by rw [List.foldl_append]; rfl⟩
      intro op' hop'
      rcases List.mem_append.mp hop' with hop' | hop'
      · exact hops op' hop'
      · rw [List.mem_singleton.mp hop']
        exact hop)
    ⟨[], by simp, rfl⟩ (fun t op hop => ⟨t, hop⟩)
  exact ⟨ops, hops, hfile⟩

end Within

/-! ## Records nobody saves or deletes -/

def Op.spares (id : String) : Op → Bool
  | .savePairing a => a.id ≠ id
  | .deletePairing other => other ≠ id
  | _ => true

theorem get?_saveBroadcastState (m : Store) (id : String) (b : StoredBroadcast) (other : String) :
    (m.saveBroadcastState id b).accessories.get? other =
      if id = other then (m.accessories.get? other).map (·.setBroadcast b)
      else m.accessories.get? other :=
  OrderedMap.get?_update id other (StoredAccessory.id_setBroadcast b)

theorem get?_after {m : Store} {id : String} {acc : StoredAccessory} {addr : SocketAddr}
    (h : m.accessories.get? id = some acc) (hip : acc.transport = .ip addr) {op : Op}
    (hop : op.spares id = true) : (m.after op).accessories.get? id = some acc := by
  cases op with
  | loadController | loadPairings | saveController k => exact h
  | savePairing a =>
    refine (OrderedMap.get?_put a id).trans ?_
    rw [if_neg (of_decide_eq_true hop)]
    exact h
  | deletePairing other => exact (OrderedMap.get?_remove (of_decide_eq_true hop)).trans h
  | saveBroadcastState other b =>
    have hself : acc.setBroadcast b = acc := by rw [StoredAccessory.setBroadcast, hip]
    refine (get?_saveBroadcastState m other b id).trans ?_
    rw [h, Option.map_some, hself, ite_self]

/-- Without a drop, every interleaving shows what operations show that are executed one
at a time on a map; and there a broadcast save neither adds nor removes a record,
and changes nothing but the broadcast of one over BLE. An accessory over IP, of
either version, is loaded as it was until it is saved or deleted. -/
theorem linearizable_of_undropped (hS : S.RoundTrips) (h₀ : s₀.Initial S store)
    {actions : List StoreAction} (hdrop : ∀ t, .drop t ∉ actions)
    (hrun : steps (StoreState.step S) s₀ actions = some s) :
    Linearizable S store actions s ∧
      (∀ (m : Store) (id : String) (b : StoredBroadcast),
        (m.saveBroadcastState id b).controller = m.controller ∧
        (m.saveBroadcastState id b).accessories.values.map StoredAccessory.id =
          m.accessories.values.map StoredAccessory.id ∧
        ∀ other, (m.saveBroadcastState id b).accessories.get? other =
          if id = other then (m.accessories.get? other).map (·.setBroadcast b)
          else m.accessories.get? other) ∧
      ∀ (id : String) (acc : StoredAccessory) (addr : SocketAddr),
        store.accessories.get? id = some acc → acc.transport = .ip addr →
        (∀ t op, .call t op ∈ actions → op.spares id = true) →
        ∃ d l, parseDoc S (readAnswer s.fs (s.fs.names .store)) = .ok d ∧
          d.loadPairings = .ok l ∧ l.find? (·.id = id) = some acc := by
  have hlin := linearizable_of_sim hS h₀ (quiet_of_undropped hdrop h₀.settled hrun)
  refine ⟨hlin, ?_, ?_⟩
  · intro m id b
    exact ⟨rfl, map_updateBy id (StoredAccessory.id_setBroadcast b) _, get?_saveBroadcastState m id b⟩
  · intro id acc addr hacc hip hcalls
    obtain ⟨m, ⟨d, hd, hrep⟩, hm⟩ := hlin.within (P := fun op => op.spares id = true)
      (I := fun m => m.accessories.get? id = some acc) (fun m op hm hop => get?_after hm hip hop)
      hacc hcalls
    exact ⟨d, _, hd, hrep.accessories, hm⟩

def plainSerde : Serde Document where
  toVecPretty d := .ok [d]
  fromSlice
    | [d] => .ok d
    | _ => .error "EOF while parsing a value"

theorem plainSerde_roundTrips : plainSerde.RoundTrips := fun d => ⟨[d], rfl, rfl⟩

def sampleAddr : SocketAddr := ⟨.v4 (constArr 4 10), 8080⟩

def legacyDocument : Document :=
  ⟨none, none, [⟨"AA", encodeHex (constArr 32 7).val, none, some sampleAddr⟩]⟩

def legacyAccessory : StoredAccessory := ⟨⟨"AA", constArr 32 7⟩, .ip sampleAddr⟩

def newAccessory : StoredAccessory := ⟨⟨"BB", constArr 32 8⟩, .ble (constArr 6 9) none⟩

def sampleFiles (d : Document) : Files FileName Document where
  names
    | .store => some 0
    | .tmp => none
  contents _ := [d]
  next := 1
  bound {n i} h := by
    cases n with
    | store => exact Option.some.inj h ▸ Nat.one_pos
    | tmp => cases h
  distinct {n m i} h h' := by
    cases n with
    | tmp => cases h
    | store =>
      cases m with
      | store => rfl
      | tmp => cases h'

def sampleStore (d : Document) : StoreState Document := .idle (sampleFiles d)

theorem legacy_initial : (sampleStore legacyDocument).Initial plainSerde
    ⟨none, ⟨[legacyAccessory], List.nodup_singleton _⟩⟩ := by
  refine initial_document rfl rfl rfl rfl ?_
  simp only [Document.loadPairings, legacyDocument, List.mapM_cons, List.mapM_nil,
    accessoryFromRecord, decodeKey32_encodeHex, transportFromRecord, ok_bind, pure_eq_ok]
  rfl

def savingRun : List StoreAction :=
  [.call 0 (.savePairing newAccessory), .call 1 .loadPairings, .lock 0, .resume 0, .opens 0,
    .performs 0, .resume 0, .opens 1, .performs 0, .resume 0, .performs 0, .resume 0, .performs 0,
    .resume 0, .performs 0, .performs 1, .resume 1, .finish 1 (.ok (.pairings [legacyAccessory])),
    .resume 0, .finish 0 (.ok .unit), .call 2 (.saveBroadcastState "BB" ⟨constArr 32 1, 5⟩), .lock 2]

theorem linearizable_of_undropped_legacy :
    ∃ s, steps (StoreState.step plainSerde) (sampleStore legacyDocument) savingRun = some s ∧
      ∃ d l, parseDoc plainSerde (readAnswer s.fs (s.fs.names .store)) = .ok d ∧
        d.loadPairings = .ok l ∧ l.find? (·.id = "AA") = some legacyAccessory := by
  have hrun : (steps (StoreState.step plainSerde) (sampleStore legacyDocument)
      savingRun).isSome = true := by decide +kernel
  obtain ⟨s, hs⟩ := Option.isSome_iff_exists.mp hrun
  refine ⟨s, hs, ?_⟩
  refine (linearizable_of_undropped plainSerde_roundTrips legacy_initial (by simp [savingRun])
    hs).2.2 "AA" legacyAccessory sampleAddr rfl rfl ?_
  intro t op hop
  simp only [savingRun, List.mem_cons, StoreAction.call.injEq, reduceCtorEq, List.not_mem_nil,
    or_false, false_or] at hop
  rcases hop with ⟨-, rfl⟩ | ⟨-, rfl⟩ | ⟨-, rfl⟩ <;> rfl

/-! ## Dropped operations -/

/-- Operations may be dropped at every point. If the lock is never taken while a call of
a dropped one is in flight, the file is at every moment the store after some of the
operations called, and every load and return is as if each had taken effect at once. -/
theorem linearizable_of_quiet (hS : S.RoundTrips) (h₀ : s₀.Initial S store)
    {actions : List StoreAction}
    (hrun : steps (restrict (StoreState.step S) StoreState.Quiet) s₀ actions = some s) :
    Linearizable S store actions s ∧
      ∃ ops : List Op, (∀ op ∈ ops, ∃ t, .call t op ∈ actions) ∧
        Holds S s.fs (ops.foldl Store.after store) := by
  have hlin := linearizable_of_sim hS h₀ hrun
  exact ⟨hlin, hlin.started⟩

def droppedRun : List StoreAction :=
  [.call 0 (.savePairing newAccessory), .lock 0, .resume 0, .opens 0, .performs 0, .resume 0,
    .performs 0, .resume 0, .performs 0, .resume 0, .performs 0, .resume 0, .drop 0]

theorem linearizable_of_quiet_dropped :
    ∃ s, steps (restrict (StoreState.step plainSerde) StoreState.Quiet)
        (sampleStore legacyDocument)
        (droppedRun ++ [.call 1 (.deletePairing "AA"), .settles 0, .lock 1]) = some s ∧
      Linearizable plainSerde ⟨none, ⟨[legacyAccessory], List.nodup_singleton _⟩⟩
        (droppedRun ++ [.call 1 (.deletePairing "AA"), .settles 0, .lock 1]) s := by
  refine exists_of_view (fun _ => ()) () (by decide +kernel) ?_
  intro s hs _
  exact (linearizable_of_quiet plainSerde_roundTrips legacy_initial hs).1

/-- The next operation empties the temporary file before the rename is carried out: the
store file is there, and it is empty. -/
theorem emptied_file_renamed :
    ∃ s, steps (StoreState.step plainSerde) (sampleStore legacyDocument)
        (droppedRun ++ [.call 1 (.deletePairing "AA"), .lock 1, .resume 1, .opens 1, .performs 1,
          .resume 1, .performs 1, .settles 0]) = some s ∧
      s.fs.read .store = some [] ∧
      ¬ Linearizable plainSerde ⟨none, ⟨[legacyAccessory], List.nodup_singleton _⟩⟩
        (droppedRun ++ [.call 1 (.deletePairing "AA"), .lock 1, .resume 1, .opens 1, .performs 1,
          .resume 1, .performs 1, .settles 0]) s := by
  refine exists_of_view (fun s => s.fs.read .store) (some []) (by decide +kernel) ?_
  intro s hs hread
  refine ⟨hread, ?_⟩
  rintro ⟨-, a, -, -, d, hd, -⟩
  obtain ⟨i, hi, hempty⟩ := Option.map_eq_some_iff.mp hread
  rw [hi, readAnswer, hempty] at hd
  cases hd

end HapRust.Pairing
