import HapRust.Ble.SleepyOnce
import HapRust.Pairing.Records

/-! A sleepy watch of the controller. Its pump passes on the events of the armed accessory, and
after each it saves the accessory's broadcast state; callers may have it saved as well. A caller
holds the lock on the accessory until its save is done, but the pump gives the lock back before
it saves, so that what it saves may be older than what is there by then. -/

namespace HapRust.Controller
open Lib Ble Pairing

inductive PumpPhase where
  | publishing
  | receiving
  | persisting
  | saving (state : StoredBroadcast)
  | stopped
  deriving DecidableEq

inductive Holder where
  | pump
  | saveState
  | saving (state : StoredBroadcast)
  deriving DecidableEq

structure SleepyWatch where
  key : Arr 32
  shared : Shared
  watch : Watch
  published : Bool
  pump : PumpPhase
  lock : Option Holder
  waiting : Nat
  next : Nat
  delivered : List (UInt16 × Ble.CharacteristicEvent)
  history : List StoredBroadcast

inductive SleepyWatchAction where
  | accessory (action : WatchAction)
  | publish
  | receive (i : Nat)
  | pumpLock
  | pumpRead
  | pumpSave (done : Bool)
  | call
  | callLock
  | callRead
  | callSave (done : Bool)
  | dropWaiting
  | dropHolding
  | stop

namespace SleepyWatch

def armed (H : SleepyHandle) (key : Arr 32) (broadcast : Option StoredBroadcast)
    (deviceId : Arr 6) (pollIids : List (UInt64 × UInt64)) : SleepyWatch where
  key := key
  shared := .new ((broadcast.map (·.gsn)).getD 0)
  watch := .new H deviceId pollIids
  published := false
  pump := .publishing
  lock := none
  waiting := 0
  next := 0
  delivered := []
  history := broadcast.toList

def persisted (s : SleepyWatch) : Option StoredBroadcast := s.history.getLast?

def broadcastState (s : SleepyWatch) : StoredBroadcast := ⟨s.key, s.shared.lastGsn⟩

def save (s : SleepyWatch) (state : StoredBroadcast) (done : Bool) : SleepyWatch :=
  if done then { s with history := s.history ++ [state] } else s

def step (H : SleepyHandle) (s : SleepyWatch) : SleepyWatchAction → Option SleepyWatch
  | .accessory action => do
    let (shared, watch) ← s.watch.step H s.shared action
    return { s with shared := shared, watch := watch }
  | .publish =>
    match s.pump, s.lock with
    | .publishing, none => some { s with published := true, pump := .receiving }
    | _, _ => none
  | .receive i =>
    match s.pump, s.shared.events[i]? with
    | .receiving, some event =>
      if s.next ≤ i then
        some { s with pump := .persisting, next := i + 1, delivered := s.delivered ++ [event] }
      else none
    | _, _ => none
  | .pumpLock =>
    match s.pump, s.lock with
    | .persisting, none => some { s with lock := some .pump }
    | _, _ => none
  | .pumpRead =>
    match s.lock with
    | some .pump => some { s with pump := .saving s.broadcastState, lock := none }
    | _ => none
  | .pumpSave done =>
    match s.pump with
    | .saving state => some { s.save state done with pump := .receiving }
    | _ => none
  | .call => some { s with waiting := s.waiting + 1 }
  | .callLock =>
    match s.waiting, s.lock with
    | n + 1, none =>
      if s.published then some { s with waiting := n, lock := some .saveState }
      else some { s with waiting := n }
    | _, _ => none
  | .callRead =>
    match s.lock with
    | some .saveState => some { s with lock := some (.saving s.broadcastState) }
    | _ => none
  | .callSave done =>
    match s.lock with
    | some (.saving state) => some { s.save state done with lock := none }
    | _ => none
  | .dropWaiting =>
    match s.waiting with
    | n + 1 => some { s with waiting := n }
    | 0 => none
  | .dropHolding =>
    match s.lock with
    | some .saveState | some (.saving _) => some { s with lock := none }
    | _ => none
  | .stop => some { s with pump := .stopped, lock := if s.lock = some .pump then none else s.lock }

def pending (s : SleepyWatch) : Option StoredBroadcast :=
  match s.pump with
  | .saving state => some state
  | _ => none

def called (s : SleepyWatch) : Option StoredBroadcast :=
  match s.lock with
  | some (.saving state) => some state
  | _ => none

def undisturbed (s : SleepyWatch) : SleepyWatchAction → Bool
  | .callSave true => s.pending.all fun state => s.called == some state
  | _ => true

inductive Effect (H : SleepyHandle) (s : SleepyWatch) : SleepyWatchAction → SleepyWatch → Prop
  | accessory {action : WatchAction} {shared : Shared} {watch : Watch}
      (h : Watch.Moves H s.shared s.watch action shared watch) :
      Effect H s (.accessory action) { s with shared := shared, watch := watch }
  | idle {a : SleepyWatchAction} {t : SleepyWatch} (hshared : t.shared = s.shared)
      (hwatch : t.watch = s.watch) (hdelivered : ∀ e ∈ t.delivered, e ∈ s.delivered ∨ e ∈ s.shared.events)
      (hhistory : t.history = s.history) (hpending : t.pending = none ∨ t.pending = s.pending)
      (hcalled : t.called = none ∨ t.called = s.called) : Effect H s a t
  | pumpRead (hlock : s.lock = some .pump) :
      Effect H s .pumpRead { s with pump := .saving s.broadcastState, lock := none }
  | pumpSave {state : StoredBroadcast} (hpump : s.pump = .saving state) :
      Effect H s (.pumpSave true) { s with history := s.history ++ [state], pump := .receiving }
  | callRead (hlock : s.lock = some .saveState) :
      Effect H s .callRead { s with lock := some (.saving s.broadcastState) }
  | callSave {state : StoredBroadcast} (hlock : s.lock = some (.saving state)) :
      Effect H s (.callSave true) { s with history := s.history ++ [state], lock := none }

variable {H : SleepyHandle} {o : UInt16} {s t : SleepyWatch} {a : SleepyWatchAction}

theorem Effect.still (hrest : (t.shared, t.watch, t.delivered, t.history) =
      (s.shared, s.watch, s.delivered, s.history))
    (hpending : t.pending = none ∨ t.pending = s.pending)
    (hcalled : t.called = none ∨ t.called = s.called) : Effect H s a t := by
  simp only [Prod.mk.injEq] at hrest
  obtain ⟨hshared, hwatch, hdelivered, hhistory⟩ := hrest
  exact .idle hshared hwatch (fun e he => .inl (hdelivered ▸ he)) hhistory hpending hcalled

theorem effect_of_step (h : s.step H a = some t) : Effect H s a t := by
  cases a with
  | accessory action =>
    obtain ⟨⟨shared, watch⟩, hstep, h⟩ := Option.bind_eq_some_iff.mp h
    obtain rfl := Option.some.inj h
    exact .accessory (Watch.moves_of_step hstep)
  | publish =>
    simp only [step] at h
    split at h
    · obtain rfl := Option.some.inj h
      exact .still rfl (.inl rfl) (.inr rfl)
    · cases h
  | receive i =>
    simp only [step] at h
    split at h
    · next event _ hevent =>
      split_ifs at h
      obtain rfl := Option.some.inj h
      refine .idle rfl rfl ?_ rfl (.inl rfl) (.inr rfl)
      intro e he
      rcases List.mem_append.mp he with he | he
      · exact .inl he
      · obtain rfl := List.mem_singleton.mp he
        exact .inr (List.mem_of_getElem? hevent)
    · cases h
  | pumpLock =>
    simp only [step] at h
    split at h
    · obtain rfl := Option.some.inj h
      exact .still rfl (.inr rfl) (.inl rfl)
    · cases h
  | pumpRead =>
    simp only [step] at h
    split at h
    · next hlock =>
      obtain rfl := Option.some.inj h
      exact .pumpRead hlock
    · cases h
  | pumpSave done =>
    simp only [step] at h
    split at h
    · next state hpump =>
      obtain rfl := Option.some.inj h
      cases done with
      | true => exact .pumpSave hpump
      | false => exact .still rfl (.inl rfl) (.inr rfl)
    · cases h
  | call =>
    obtain rfl := Option.some.inj h
    exact .still rfl (.inr rfl) (.inr rfl)
  | callLock =>
    simp only [step] at h
    split at h
    · split_ifs at h
      · obtain rfl := Option.some.inj h
        exact .still rfl (.inr rfl) (.inl rfl)
      · obtain rfl := Option.some.inj h
        exact .still rfl (.inr rfl) (.inr rfl)
    · cases h
  | callRead =>
    simp only [step] at h
    split at h
    · next hlock =>
      obtain rfl := Option.some.inj h
      exact .callRead hlock
    · cases h
  | callSave done =>
    simp only [step] at h
    split at h
    · next state hlock =>
      obtain rfl := Option.some.inj h
      cases done with
      | true => exact .callSave hlock
      | false => exact .still rfl (.inr rfl) (.inl rfl)
    · cases h
  | dropWaiting =>
    simp only [step] at h
    split at h
    · obtain rfl := Option.some.inj h
      exact .still rfl (.inr rfl) (.inr rfl)
    · cases h
  | dropHolding =>
    simp only [step] at h
    split at h
    · obtain rfl := Option.some.inj h
      exact .still rfl (.inr rfl) (.inl rfl)
    · obtain rfl := Option.some.inj h
      exact .still rfl (.inr rfl) (.inl rfl)
    · cases h
  | stop =>
    obtain rfl := Option.some.inj h
    refine .still rfl (.inl rfl) ?_
    by_cases hlock : s.lock = some .pump
    · exact .inl (by simp only [called, if_pos hlock])
    · exact .inr (by simp only [called, if_neg hlock])

theorem advance_le_of_effect (h : Effect H s a t) : s.shared.advance ≤ t.shared.advance := by
  cases h with
  | accessory hmoves => exact Watch.advance_le_of_moves hmoves
  | idle hshared => rw [hshared]
  | pumpRead | pumpSave | callRead | callSave => exact Nat.le_refl _

theorem reach_of_effect (hreach : Watch.Reach o s.shared s.watch) (h : Effect H s a t)
    (hmax : t.shared.advance < 2 ^ 15) : Watch.Reach o t.shared t.watch := by
  cases h with
  | accessory hmoves => exact hreach.of_moves hmoves hmax
  | idle hshared hwatch =>
    rw [hshared, hwatch]
    exact hreach
  | pumpRead | pumpSave | callRead | callSave => exact hreach

/-! ## Positions of what is saved -/

def Le (o : UInt16) (x y : StoredBroadcast) : Prop := ahead o x.gsn ≤ ahead o y.gsn

structure Newest (o : UInt16) (s : SleepyWatch) (x : StoredBroadcast) : Prop where
  history : ∀ y ∈ s.history, Le o y x
  reached : ahead o x.gsn ≤ s.shared.advance

structure Inv (o : UInt16) (s : SleepyWatch) : Prop where
  reach : Watch.Reach o s.shared s.watch
  delivered : ∀ e ∈ s.delivered, e ∈ s.shared.events
  history : s.history.Pairwise (Le o)
  history_le : ∀ x ∈ s.history, ahead o x.gsn ≤ s.shared.advance
  pending : ∀ {x}, s.pending = some x → Newest o s x
  called : ∀ {x}, s.called = some x → Newest o s x ∧ ∀ {y}, s.pending = some y → Le o y x

theorem Inv.newest_broadcastState (h : Inv o s) : Newest o s s.broadcastState where
  history x hx := (h.history_le x hx).trans h.reach.position.ge
  reached := h.reach.position.le

theorem Inv.accessory (h : Inv o s) {action : WatchAction} {shared : Shared} {watch : Watch}
    (hmoves : Watch.Moves H s.shared s.watch action shared watch)
    (hreach : Watch.Reach o shared watch) : Inv o { s with shared := shared, watch := watch } := by
  have hle := Watch.advance_le_of_moves hmoves
  have hnewest {x} (hx : Newest o s x) : Newest o { s with shared := shared, watch := watch } x :=
    ⟨hx.history, hx.reached.trans hle⟩
  refine ⟨hreach, ?_, h.history, ?_, fun hx => hnewest (h.pending hx), ?_⟩
  · intro e he
    exact Watch.events_subset_of_moves hmoves (h.delivered e he)
  · intro x hx
    exact (h.history_le x hx).trans hle
  · intro x hx
    exact ⟨hnewest (h.called hx).1, (h.called hx).2⟩

theorem Inv.pairwise_append (h : Inv o s) {x : StoredBroadcast} (hx : Newest o s x) :
    (s.history ++ [x]).Pairwise (Le o) := by
  refine List.pairwise_append.mpr ⟨h.history, List.pairwise_singleton _ _, ?_⟩
  intro y hy z hz
  obtain rfl := List.mem_singleton.mp hz
  exact hx.history y hy

theorem Inv.le_append (h : Inv o s) {x : StoredBroadcast} (hx : Newest o s x) :
    ∀ y ∈ s.history ++ [x], ahead o y.gsn ≤ s.shared.advance := by
  intro y hy
  rcases List.mem_append.mp hy with hy | hy
  · exact h.history_le y hy
  · obtain rfl := List.mem_singleton.mp hy
    exact hx.reached

theorem Newest.append {x y : StoredBroadcast} (h : Newest o s x) (hle : Le o y x) :
    ∀ z ∈ s.history ++ [y], Le o z x := by
  intro z hz
  rcases List.mem_append.mp hz with hz | hz
  · exact h.history z hz
  · obtain rfl := List.mem_singleton.mp hz
    exact hle

theorem Inv.of_effect (h : Inv o s) (hcond : s.undisturbed a = true) (heffect : Effect H s a t)
    (hmax : t.shared.advance < 2 ^ 15) : Inv o t := by
  have hreach := reach_of_effect h.reach heffect hmax
  cases heffect with
  | accessory hmoves => exact h.accessory hmoves hreach
  | idle hshared hwatch hdelivered hhistory hpending hcalled =>
    have hnewest {x} (hx : Newest o s x) : Newest o t x := by
      refine ⟨?_, ?_⟩
      · rw [hhistory]
        exact hx.history
      · rw [hshared]
        exact hx.reached
    have hp {x} (hx : t.pending = some x) : s.pending = some x := by
      rcases hpending with hnone | hsame
      · cases hnone.symm.trans hx
      · exact hsame.symm.trans hx
    have hc {x} (hx : t.called = some x) : s.called = some x := by
      rcases hcalled with hnone | hsame
      · cases hnone.symm.trans hx
      · exact hsame.symm.trans hx
    refine ⟨hreach, ?_, ?_, ?_, fun hx => hnewest (h.pending (hp hx)), ?_⟩
    · intro e he
      rw [hshared]
      rcases hdelivered e he with he | he
      · exact h.delivered e he
      · exact he
    · rw [hhistory]
      exact h.history
    · rw [hhistory, hshared]
      exact h.history_le
    · intro x hx
      obtain ⟨hx, hle⟩ := h.called (hc hx)
      exact ⟨hnewest hx, fun hy => hle (hp hy)⟩
  | pumpRead hlock =>
    refine ⟨h.reach, h.delivered, h.history, h.history_le, ?_, (fun hx => by cases hx)⟩
    intro x hx
    obtain rfl := Option.some.inj hx
    exact ⟨h.newest_broadcastState.history, h.newest_broadcastState.reached⟩
  | @pumpSave state hpump =>
    have hpending : s.pending = some state := by rw [SleepyWatch.pending, hpump]
    have hnew := h.pending hpending
    refine ⟨h.reach, h.delivered, h.pairwise_append hnew, h.le_append hnew,
      (fun hx => by cases hx), ?_⟩
    intro x hx
    obtain ⟨hx, hle⟩ := h.called hx
    exact ⟨⟨hx.append (hle hpending), hx.reached⟩, fun hy => by cases hy⟩
  | callRead hlock =>
    refine ⟨h.reach, h.delivered, h.history, h.history_le, ?_, ?_⟩
    · intro x hx
      exact ⟨(h.pending hx).history, (h.pending hx).reached⟩
    · intro x hx
      obtain rfl := Option.some.inj hx
      refine ⟨⟨h.newest_broadcastState.history, h.newest_broadcastState.reached⟩, ?_⟩
      intro y hy
      exact (h.pending hy).reached.trans h.reach.position.ge
  | @callSave state hlock =>
    have hcalled : s.called = some state := by rw [SleepyWatch.called, hlock]
    have hnew := (h.called hcalled).1
    refine ⟨h.reach, h.delivered, h.pairwise_append hnew, h.le_append hnew, ?_,
      (fun hx => by cases hx)⟩
    intro x hx
    have hsame : s.called = some x := by
      have hpending : s.pending = some x := hx
      simpa [undisturbed, hpending] using hcond
    obtain rfl := Option.some.inj (hcalled.symm.trans hsame)
    exact ⟨hnew.append (Nat.le_refl _), hnew.reached⟩

/-! ## Whole runs -/

section Runs
variable (H : SleepyHandle) (key : Arr 32) (broadcast : Option StoredBroadcast) (deviceId : Arr 6)
  (pollIids : List (UInt64 × UInt64))

theorem inv_armed :
    Inv ((broadcast.map (·.gsn)).getD 0) (armed H key broadcast deviceId pollIids) where
  reach := Watch.reach_new H _ deviceId pollIids
  delivered e he := by cases he
  history := by cases broadcast <;> simp [armed]
  history_le x hx := by
    obtain rfl : broadcast = some x := Option.mem_toList.mp hx
    exact (ahead_self x.gsn).le
  pending hx := by cases hx
  called hx := by cases hx

variable {H key broadcast deviceId pollIids} {actions : List SleepyWatchAction}

theorem inv_of_run
    (h : steps (restrict (step H) fun s a => s.undisturbed a = true)
      (armed H key broadcast deviceId pollIids) actions = some s)
    (hmax : s.shared.advance < 2 ^ 15) : Inv ((broadcast.map (·.gsn)).getD 0) s := by
  refine steps_invariant
    (I := fun s => s.shared.advance < 2 ^ 15 → Inv ((broadcast.map (·.gsn)).getD 0) s) ?_ actions
    (fun _ => inv_armed H key broadcast deviceId pollIids) h hmax
  intro s a t ih hstep hmax
  obtain ⟨hcond, hstep⟩ := restrict_eq_some.mp hstep
  have heffect := effect_of_step hstep
  exact (ih (Nat.lt_of_le_of_lt (advance_le_of_effect heffect) hmax)).of_effect hcond heffect hmax

theorem reach_of_run (h : steps (step H) (armed H key broadcast deviceId pollIids) actions = some s)
    (hmax : s.shared.advance < 2 ^ 15) :
    Watch.Reach ((broadcast.map (·.gsn)).getD 0) s.shared s.watch := by
  refine steps_invariant
    (I := fun s : SleepyWatch => s.shared.advance < 2 ^ 15 →
      Watch.Reach ((broadcast.map (·.gsn)).getD 0) s.shared s.watch) ?_ actions
    (fun _ => Watch.reach_new H _ deviceId pollIids) h hmax
  intro s a t ih hstep hmax
  have heffect := effect_of_step hstep
  exact reach_of_effect (ih (Nat.lt_of_le_of_lt (advance_le_of_effect heffect) hmax)) heffect hmax

theorem Inv.le_persisted (h : Inv o s) {x p : StoredBroadcast} (hp : s.persisted = some p)
    (hx : x ∈ s.history) : Le o x p := by
  obtain ⟨before, hhistory⟩ := List.getLast?_eq_some_iff.mp hp
  rw [hhistory] at hx
  rcases List.mem_append.mp hx with hx | hx
  · have hpairwise := h.history
    rw [hhistory] at hpairwise
    exact (List.pairwise_append.mp hpairwise).2.2 x hx p (List.mem_singleton.mpr rfl)
  · obtain rfl := List.mem_singleton.mp hx
    exact Nat.le_refl _

end Runs

/-- However the pump, the calls of `save_state` and the accessory's tasks interleave: if no call
saves while the pump has an older state to save, and the last GSN moves by less than half the
range, then the persisted GSN never moves back; and a watch that is armed later from what is
persisted emits no event that was delivered and whose GSN has been persisted. -/
theorem persisted_later_of_undisturbed (H : SleepyHandle) (key : Arr 32)
    (broadcast : Option StoredBroadcast) (deviceId : Arr 6) (pollIids : List (UInt64 × UInt64))
    {actions : List SleepyWatchAction} {s : SleepyWatch}
    (h : steps (restrict (step H) fun s a => s.undisturbed a = true)
      (armed H key broadcast deviceId pollIids) actions = some s)
    (hmax : s.shared.advance < 2 ^ 15) :
    s.history.Pairwise (fun x y => Later x.gsn y.gsn) ∧
      ∀ (H' : SleepyHandle) (key' : Arr 32) (pollIids' : List (UInt64 × UInt64))
        (restarted : List SleepyWatchAction) (r : SleepyWatch),
        steps (step H') (armed H' key' s.persisted deviceId pollIids') restarted = some r →
        r.shared.advance < 2 ^ 15 →
        ∀ e ∈ s.delivered, (∃ x ∈ s.history, Later e.1 x.gsn) →
          ∀ e' ∈ r.shared.events, eventKey e' ≠ eventKey e := by
  have hinv := inv_of_run h hmax
  generalize (broadcast.map (·.gsn)).getD 0 = o at hinv
  refine ⟨?_, ?_⟩
  · refine hinv.history.imp_of_mem ?_
    intro x y hx hy hle
    have hxle := hinv.history_le x hx
    have hyle := hinv.history_le y hy
    exact (later_iff_le (by omega) (by omega)).mpr hle
  · rintro H' key' pollIids' restarted r hr hrmax e he ⟨x, hx, hlater⟩ e' he' heq
    obtain ⟨p, hp⟩ : ∃ p, s.persisted = some p := by
      cases hlast : s.persisted with
      | none => simp [List.getLast?_eq_none_iff.mp hlast] at hx
      | some p => exact ⟨p, rfl⟩
    have hle : ahead o e.1 ≤ ahead o x.gsn := by
      have hele := (hinv.reach.events e (hinv.delivered e he)).2
      have hxle := hinv.history_le x hx
      exact (later_iff_le (by omega) (by omega)).mp hlater
    have hxp : ahead o x.gsn ≤ ahead o p.gsn := hinv.le_persisted hp hx
    have hple := hinv.history_le p (List.mem_of_getLast? hp)
    have hreach := reach_of_run hr hrmax
    rw [hp] at hreach
    obtain ⟨hpos, hnew⟩ := hreach.events e' he'
    change 0 < ahead p.gsn e'.1 at hpos
    change ahead p.gsn e'.1 ≤ _ at hnew
    have hsum := ahead_add (a := o) (b := p.gsn) (c := e'.1) (by omega)
    have hgsn : e'.1 = e.1 := (Prod.mk.inj heq).2
    rw [hgsn] at hsum hpos
    omega

def sampleArmed (gsn : UInt16) : SleepyWatch :=
  armed Watch.sampleHandle (constArr 32 0) (some ⟨constArr 32 0, gsn⟩) (constArr 6 9) []

def sampleBroadcast (gsn : UInt8) : List SleepyWatchAction :=
  [.accessory (.receive (Watch.broadcastAdvert gsn 1)), .accessory .sample, .accessory .store,
    .accessory .emit]

def pumpThenCall : List SleepyWatchAction :=
  .publish :: (sampleBroadcast 6 ++ [.receive 0, .pumpLock, .pumpRead] ++ sampleBroadcast 7 ++
    [.call, .callLock, .callRead])

structure SampleResult where
  history : List UInt16
  delivered : List (UInt64 × UInt16)
  events : List (UInt64 × UInt16)
  advance : Nat
  persisted : Option StoredBroadcast
  deriving DecidableEq

def sampleResult (s : SleepyWatch) : SampleResult where
  history := s.history.map (·.gsn)
  delivered := s.delivered.map eventKey
  events := s.shared.events.map eventKey
  advance := s.shared.advance
  persisted := s.persisted

theorem persisted_later_of_undisturbed_pumpFirst :
    ∃ s r, steps (restrict (step Watch.sampleHandle) fun s a => s.undisturbed a = true)
        (sampleArmed 5) (pumpThenCall ++ [.pumpSave true, .callSave true]) = some s ∧
      s.history.map (·.gsn) = [5, 6, 7] ∧ s.history.Pairwise (fun x y => Later x.gsn y.gsn) ∧
      steps (step Watch.sampleHandle)
        (armed Watch.sampleHandle (constArr 32 0) s.persisted (constArr 6 9) [])
        (([.accessory (.receive (Watch.broadcastAdvert 6 1)), .accessory .sample] :
          List SleepyWatchAction) ++ sampleBroadcast 8) = some r ∧
      ∀ e ∈ s.delivered, (∃ x ∈ s.history, Later e.1 x.gsn) →
        ∀ e' ∈ r.shared.events, eventKey e' ≠ eventKey e := by
  have hrun : (steps (restrict (step Watch.sampleHandle) fun s a => s.undisturbed a = true)
      (sampleArmed 5) (pumpThenCall ++ [.pumpSave true, .callSave true])).map sampleResult =
        some ⟨[5, 6, 7], [(11, 6)], [(11, 6), (11, 7)], 2, some ⟨constArr 32 0, 7⟩⟩ := by
    decide +kernel
  have hagain : (steps (step Watch.sampleHandle) (sampleArmed 7)
      (([.accessory (.receive (Watch.broadcastAdvert 6 1)), .accessory .sample] :
        List SleepyWatchAction) ++ sampleBroadcast 8)).map sampleResult =
        some ⟨[7], [], [(11, 8)], 1, some ⟨constArr 32 0, 7⟩⟩ := by
    decide +kernel
  obtain ⟨s, hs, hresult⟩ := Option.map_eq_some_iff.mp hrun
  obtain ⟨r, hr, hresult'⟩ := Option.map_eq_some_iff.mp hagain
  obtain ⟨hhistory, -, -, hadvance, hpersisted⟩ := SampleResult.mk.inj hresult
  obtain ⟨-, -, -, hadvance', -⟩ := SampleResult.mk.inj hresult'
  obtain ⟨hlater, hrestart⟩ := persisted_later_of_undisturbed _ _ _ _ _ hs
    (by rw [hadvance]; decide)
  rw [sampleArmed, ← hpersisted] at hr
  exact ⟨s, r, hs, hhistory, hlater, hr, hrestart _ _ _ _ r hr (by rw [hadvance']; decide)⟩

/-- The call saves GSN 7, and then the pump what it read before, GSN 6. The pump goes on to
deliver the event of GSN 7; a watch that is armed from what is in the store now emits it again. -/
theorem persisted_moves_back :
    ∃ s r, steps (step Watch.sampleHandle) (sampleArmed 5)
        (pumpThenCall ++ [.callSave true, .pumpSave true, .receive 1]) = some s ∧
      s.history.map (·.gsn) = [5, 7, 6] ∧ ¬ Later 7 6 ∧
      steps (step Watch.sampleHandle)
        (armed Watch.sampleHandle (constArr 32 0) s.persisted (constArr 6 9) [])
        (sampleBroadcast 7) = some r ∧
      s.delivered.map eventKey = [(11, 6), (11, 7)] ∧ r.shared.events.map eventKey = [(11, 7)] := by
  have hrun : (steps (step Watch.sampleHandle) (sampleArmed 5)
      (pumpThenCall ++ [.callSave true, .pumpSave true, .receive 1])).map sampleResult =
        some ⟨[5, 7, 6], [(11, 6), (11, 7)], [(11, 6), (11, 7)], 2, some ⟨constArr 32 0, 6⟩⟩ := by
    decide +kernel
  have hagain : (steps (step Watch.sampleHandle) (sampleArmed 6) (sampleBroadcast 7)).map
      sampleResult = some ⟨[6], [], [(11, 7)], 1, some ⟨constArr 32 0, 6⟩⟩ := by
    decide +kernel
  obtain ⟨s, hs, hresult⟩ := Option.map_eq_some_iff.mp hrun
  obtain ⟨r, hr, hresult'⟩ := Option.map_eq_some_iff.mp hagain
  obtain ⟨hhistory, hdelivered, -, -, hpersisted⟩ := SampleResult.mk.inj hresult
  obtain ⟨-, -, hevents, -, -⟩ := SampleResult.mk.inj hresult'
  rw [sampleArmed, ← hpersisted] at hr
  exact ⟨s, r, hs, hhistory, by decide, hr, hdelivered, hevents⟩

end SleepyWatch
end HapRust.Controller
