import HapRust.Ble.SleepyOnce

/-! Any number of watches armed on one handle. A loop that decrypts a broadcast reads the last
GSN, and later writes the GSN it found without looking again: the last GSN moves forward with
every write if no other loop has written it in between. -/

namespace HapRust.Ble
open Lib

structure SleepySystem where
  shared : Shared
  watches : List Watch

inductive SleepyAction where
  | arm (deviceId : Arr 6) (pollIids : List (UInt64 × UInt64))
  | watch (i : Nat) (action : WatchAction)

namespace SleepySystem
variable (H : SleepyHandle)

def new (initialGsn : UInt16) : SleepySystem := ⟨.new initialGsn, []⟩

def step (s : SleepySystem) : SleepyAction → Option SleepySystem
  | .arm deviceId pollIids => some { s with watches := s.watches ++ [.new H deviceId pollIids] }
  | .watch i action => do
    let w ← s.watches[i]?
    let (shared, w) ← w.step H s.shared action
    return ⟨shared, s.watches.set i w⟩

def stillLast (s : SleepySystem) (w : Watch) : Bool :=
  match w.adverts with
  | .storing start _ _ => s.shared.lastGsn == start
  | _ => true

def undisturbed (s : SleepySystem) : SleepyAction → Bool
  | .watch i .store => (s.watches[i]?).all s.stillLast
  | _ => true

structure Inv (s : SleepySystem) : Prop where
  storing : ∀ {w start gsn pt}, w ∈ s.watches → w.adverts = .storing start gsn pt →
    gsnIsNewer gsn start = true
  writes : ∀ w ∈ s.shared.writes, gsnIsNewer w.2 w.1 = true

variable {H} {s t : SleepySystem}

theorem step_watch {i : Nat} {action : WatchAction} (h : s.step H (.watch i action) = some t) :
    ∃ w v, s.watches[i]? = some w ∧ w.step H s.shared action = some (t.shared, v) ∧
      t.watches = s.watches.set i v := by
  obtain ⟨w, hw, h⟩ := Option.bind_eq_some_iff.mp h
  obtain ⟨⟨shared, v⟩, hstep, h⟩ := Option.bind_eq_some_iff.mp h
  obtain rfl := Option.some.inj h
  exact ⟨w, v, hw, hstep, rfl⟩

theorem newer_of_moves {shared : Shared} {w v : Watch} {action : WatchAction} {start gsn : UInt16}
    {pt : Bytes} (hmoves : Watch.Moves H s.shared w action shared v)
    (hw : ∀ {start gsn pt}, w.adverts = .storing start gsn pt → gsnIsNewer gsn start = true)
    (hv : v.adverts = .storing start gsn pt) : gsnIsNewer gsn start = true := by
  cases hmoves with
  | receive mfg => exact absurd hv Watch.classify_not_storing
  | sample => exact gsnIsNewer_iff.mpr (Watch.decrypted_storing hv).2
  | @store start' gsn' pt' hstoring =>
    rcases Watch.decoded_cases H gsn' pt' with heq | ⟨iid, value, heq⟩
    · cases heq.symm.trans hv
    · cases heq.symm.trans hv
  | bump | suppress | emit | close => cases hv
  | wake | read | skip | pollEmit => exact hw hv

theorem writes_of_moves {shared : Shared} {w v : Watch} {action : WatchAction}
    (hmoves : Watch.Moves H s.shared w action shared v)
    (hstoring : ∀ {start gsn pt}, w.adverts = .storing start gsn pt → gsnIsNewer gsn start = true)
    (hstill : action = .store → s.stillLast w = true) :
    shared.writes = s.shared.writes ∨
      ∃ gsn, gsnIsNewer gsn s.shared.lastGsn = true ∧
        shared.writes = s.shared.writes ++ [(s.shared.lastGsn, gsn)] := by
  cases hmoves with
  | @bump gsn hw hnew => exact .inr ⟨gsn, hnew, rfl⟩
  | @store start gsn pt hw =>
    have hlast := hstill rfl
    simp only [stillLast, hw, beq_iff_eq] at hlast
    have hnew := hstoring hw
    rw [← hlast] at hnew
    exact .inr ⟨gsn, hnew, rfl⟩
  | emit => exact .inl (Shared.emit_cases _ _ _).2.1
  | pollEmit => exact .inl (Shared.emit_cases _ _ _).2.1
  | receive | suppress | sample | close | wake | read | skip => exact .inl rfl

theorem inv_new (initialGsn : UInt16) : (new initialGsn).Inv where
  storing hw := by cases hw
  writes w hw := by cases hw

theorem inv_step {a : SleepyAction} (h : s.Inv)
    (hstep : restrict (step H) (fun s a => s.undisturbed a = true) s a = some t) : t.Inv := by
  obtain ⟨hcond, hstep⟩ := restrict_eq_some.mp hstep
  cases a with
  | arm deviceId pollIids =>
    obtain rfl := Option.some.inj hstep
    refine ⟨?_, h.writes⟩
    intro w start gsn pt hw hphase
    rcases List.mem_append.mp hw with hw | hw
    · exact h.storing hw hphase
    · obtain rfl := List.mem_singleton.mp hw
      cases hphase
  | watch i action =>
    obtain ⟨w, v, hw, hwatch, hset⟩ := step_watch hstep
    have hmoves := Watch.moves_of_step hwatch
    have hmem : w ∈ s.watches := List.mem_of_getElem? hw
    have hstoring {start gsn pt} (hphase : w.adverts = .storing start gsn pt) :
        gsnIsNewer gsn start = true := h.storing hmem hphase
    refine ⟨?_, ?_⟩
    · intro w' start gsn pt hw' hphase
      rw [hset] at hw'
      rcases List.mem_or_eq_of_mem_set hw' with hw' | rfl
      · exact h.storing hw' hphase
      · exact newer_of_moves hmoves hstoring hphase
    · have hstill : action = .store → s.stillLast w = true := by
        rintro rfl
        simpa [undisturbed, hw] using hcond
      intro write hwrite
      rcases writes_of_moves hmoves hstoring hstill with hsame | ⟨gsn, hnew, happend⟩
      · rw [hsame] at hwrite
        exact h.writes write hwrite
      · rw [happend] at hwrite
        rcases List.mem_append.mp hwrite with hwrite | hwrite
        · exact h.writes write hwrite
        · obtain rfl := List.mem_singleton.mp hwrite
          exact hnew

/-- However many watches are armed and however their loops interleave: if no loop writes the
last GSN while another one is between reading it and writing it, every write moves it forward. -/
theorem writes_newer_of_undisturbed (H : SleepyHandle) (initialGsn : UInt16)
    (actions : List SleepyAction) {s : SleepySystem}
    (h : steps (restrict (step H) fun s a => s.undisturbed a = true) (new initialGsn) actions =
      some s) : ∀ w ∈ s.shared.writes, gsnIsNewer w.2 w.1 = true :=
  (steps_invariant inv_step actions (inv_new initialGsn) h).writes

def armTwice : List SleepyAction := [.arm (constArr 6 9) [], .arm (constArr 6 9) []]

theorem writes_newer_of_undisturbed_two :
    ∃ s, steps (restrict (step Watch.sampleHandle) fun s a => s.undisturbed a = true) (new 5)
        (armTwice ++ ([.watch 0 (.receive (Watch.broadcastAdvert 6 1)), .watch 0 .sample,
          .watch 1 (.receive (Watch.regularAdvert 7)), .watch 0 .store, .watch 1 .compare] :
          List SleepyAction)) = some s ∧
      s.shared.writes = [(5, 6), (6, 7)] ∧ ∀ w ∈ s.shared.writes, gsnIsNewer w.2 w.1 = true := by
  refine exists_of_view (·.shared.writes) [(5, 6), (6, 7)] (by decide +kernel) ?_
  intro s hs hwrites
  exact ⟨hwrites, writes_newer_of_undisturbed _ _ _ hs⟩

/-- The first loop opens a broadcast with GSN 6; before it writes that, the second one accepts
a regular advertisement with GSN 7. -/
theorem gsn_moves_back :
    ∃ s, steps (step Watch.sampleHandle) (new 5)
        (armTwice ++ ([.watch 0 (.receive (Watch.broadcastAdvert 6 1)), .watch 0 .sample,
          .watch 1 (.receive (Watch.regularAdvert 7)), .watch 1 .compare, .watch 0 .store] :
          List SleepyAction)) = some s ∧
      s.shared.writes = [(5, 7), (7, 6)] ∧ s.shared.lastGsn = 6 ∧
      ¬ ∀ w ∈ s.shared.writes, gsnIsNewer w.2 w.1 = true := by
  refine exists_of_view (fun s => (s.shared.writes, s.shared.lastGsn)) ([(5, 7), (7, 6)], 6)
    (by decide +kernel) ?_
  intro s hs hstate
  obtain ⟨hwrites, hlast⟩ := Prod.mk.inj hstate
  refine ⟨hwrites, hlast, ?_⟩
  intro hall
  rw [hwrites] at hall
  have hback := hall (7, 6) (by simp)
  revert hback
  decide

end SleepySystem
end HapRust.Ble
