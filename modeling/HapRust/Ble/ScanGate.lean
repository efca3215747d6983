import HapRust.Lib.Run

/-! The gate between the scan for advertisements and the connects, which must not run at the same
time. A connect raises the pause flag and waits until the scan task reports that it has dropped
its scan. The task looks at the flag, starts a scan, and reports the scan only when it has
started. Every step runs up to the next point at which its task may be suspended. -/

namespace HapRust.Ble
open Lib

structure Signal where
  value : Bool
  version : Nat
  deriving DecidableEq

def Signal.send (c : Signal) (value : Bool) : Signal := ⟨value, c.version + 1⟩

inductive ScanPhase where
  | spawned
  | holdingOff (seen : Nat)
  | starting (seen : Nat)
  | scanning (seen : Nat)
  | ended
  deriving DecidableEq

inductive Guard where
  | acking (seen : Nat)
  | held (timedOut : Bool)
  deriving DecidableEq

structure ScanGate where
  pause : Signal
  scanning : Signal
  scan : ScanPhase
  guard : Option Guard
  waiting : Nat
  deriving DecidableEq

inductive ScanGateAction where
  | enter
  | resume
  | started
  | startFailed
  | notice
  | stop
  | call
  | acquire
  | acknowledge
  | timeout
  | dropWaiting
  | dropGuard
  deriving DecidableEq

def ScanPhase.live : ScanPhase → Bool
  | scanning _ => true
  | _ => false

def ScanPhase.isStarting : ScanPhase → Bool
  | starting _ => true
  | _ => false

namespace ScanGate

def new : ScanGate := ⟨⟨false, 0⟩, ⟨false, 0⟩, .spawned, none, 0⟩

def holdOff (s : ScanGate) : ScanPhase :=
  if s.pause.value then .holdingOff s.pause.version else .starting s.pause.version

def await (s : ScanGate) : Guard :=
  if s.scanning.value then .acking s.scanning.version else .held false

def step (s : ScanGate) : ScanGateAction → Option ScanGate
  | .enter =>
    match s.scan with
    | .spawned => some { s with scan := s.holdOff }
    | _ => none
  | .resume =>
    match s.scan with
    | .holdingOff seen =>
      if seen ≠ s.pause.version then some { s with scan := s.holdOff } else none
    | _ => none
  | .started =>
    match s.scan with
    | .starting seen => some { s with scan := .scanning seen, scanning := s.scanning.send true }
    | _ => none
  | .startFailed =>
    match s.scan with
    | .starting _ => some { s with scan := .ended }
    | _ => none
  | .notice =>
    match s.scan with
    | .scanning seen =>
      if seen ≠ s.pause.version then
        if s.pause.value then
          some { s with scan := s.holdOff, scanning := s.scanning.send false }
        else some { s with scan := .scanning s.pause.version }
      else none
    | _ => none
  | .stop =>
    match s.scan with
    | .scanning _ => some { s with scan := .ended, scanning := s.scanning.send false }
    | _ => none
  | .call => some { s with waiting := s.waiting + 1 }
  | .acquire =>
    match s.waiting, s.guard with
    | n + 1, none => some { s with waiting := n, guard := some s.await, pause := s.pause.send true }
    | _, _ => none
  | .acknowledge =>
    match s.guard with
    | some (.acking seen) =>
      if seen ≠ s.scanning.version then some { s with guard := some s.await } else none
    | _ => none
  | .timeout =>
    match s.guard with
    | some (.acking _) => some { s with guard := some (.held true) }
    | _ => none
  | .dropWaiting =>
    match s.waiting with
    | n + 1 => some { s with waiting := n }
    | 0 => none
  | .dropGuard =>
    match s.guard with
    | some _ => some { s with guard := none, pause := s.pause.send false }
    | none => none

def undisturbed (s : ScanGate) : ScanGateAction → Bool
  | .acquire => !s.scan.isStarting
  | _ => true

inductive Moves (s : ScanGate) : ScanGateAction → ScanGate → Prop
  | look {a : ScanGateAction} (hscan : s.scan.live = false) : Moves s a { s with scan := s.holdOff }
  | started {seen : Nat} (hscan : s.scan = .starting seen) :
      Moves s .started { s with scan := .scanning seen, scanning := s.scanning.send true }
  | startFailed {seen : Nat} (hscan : s.scan = .starting seen) :
      Moves s .startFailed { s with scan := .ended }
  | dropScan : Moves s .notice { s with scan := s.holdOff, scanning := s.scanning.send false }
  | goOn {seen : Nat} (hscan : s.scan = .scanning seen) (hpause : s.pause.value = false) :
      Moves s .notice { s with scan := .scanning s.pause.version }
  | stop : Moves s .stop { s with scan := .ended, scanning := s.scanning.send false }
  | queue {a : ScanGateAction} (n : Nat) : Moves s a { s with waiting := n }
  | acquire (n : Nat) (hguard : s.guard = none) :
      Moves s .acquire { s with waiting := n, guard := some s.await, pause := s.pause.send true }
  | acknowledge {seen : Nat} (hguard : s.guard = some (.acking seen)) :
      Moves s .acknowledge { s with guard := some s.await }
  | timeout {seen : Nat} (hguard : s.guard = some (.acking seen)) :
      Moves s .timeout { s with guard := some (.held true) }
  | dropGuard : Moves s .dropGuard { s with guard := none, pause := s.pause.send false }

variable {s t : ScanGate} {a : ScanGateAction}

theorem moves_of_step (h : s.step a = some t) : Moves s a t := by
  cases a with
  | enter =>
    simp only [step] at h
    split at h
    · next hscan =>
      cases h
      exact .look (by rw [hscan]; rfl)
    · cases h
  | resume =>
    simp only [step] at h
    split at h
    · next seen hscan =>
      split_ifs at h
      cases h
      exact .look (by rw [hscan]; rfl)
    · cases h
  | started =>
    simp only [step] at h
    split at h
    · next seen hscan =>
      cases h
      exact .started hscan
    · cases h
  | startFailed =>
    simp only [step] at h
    split at h
    · next seen hscan =>
      cases h
      exact .startFailed hscan
    · cases h
  | notice =>
    simp only [step] at h
    split at h
    · next seen hscan =>
      split_ifs at h with hseen hpause
      · cases h
        exact .dropScan
      · cases h
        exact .goOn hscan (Bool.eq_false_iff.mpr hpause)
    · cases h
  | stop =>
    simp only [step] at h
    split at h
    · cases h
      exact .stop
    · cases h
  | call =>
    cases h
    exact .queue _
  | acquire =>
    simp only [step] at h
    split at h
    · next n _ hguard =>
      cases h
      exact .acquire n hguard
    · cases h
  | acknowledge =>
    simp only [step] at h
    split at h
    · next seen hguard =>
      split_ifs at h
      cases h
      exact .acknowledge hguard
    · cases h
  | timeout =>
    simp only [step] at h
    split at h
    · next seen hguard =>
      cases h
      exact .timeout hguard
    · cases h
  | dropWaiting =>
    simp only [step] at h
    split at h
    · cases h
      exact .queue _
    · cases h
  | dropGuard =>
    simp only [step] at h
    split at h
    · cases h
      exact .dropGuard
    · cases h

/-! ## What holds in every run -/

structure Flags (s : ScanGate) : Prop where
  pause : s.pause.value = s.guard.isSome
  scanning : s.scanning.value = s.scan.live

theorem live_holdOff (s : ScanGate) : s.holdOff.live = false := by
  unfold holdOff
  split_ifs <;> rfl

theorem Flags.of_moves (h : Flags s) (hmoves : Moves s a t) : Flags t := by
  cases hmoves with
  | look hscan => exact ⟨h.pause, by rw [h.scanning, hscan, live_holdOff]⟩
  | started hscan => exact ⟨h.pause, rfl⟩
  | startFailed hscan =>
    refine ⟨h.pause, ?_⟩
    rw [h.scanning, hscan]
    rfl
  | dropScan => exact ⟨h.pause, (live_holdOff s).symm⟩
  | goOn hscan hpause =>
    refine ⟨h.pause, ?_⟩
    rw [h.scanning, hscan]
    rfl
  | stop => exact ⟨h.pause, rfl⟩
  | queue n => exact ⟨h.pause, h.scanning⟩
  | acquire n hguard => exact ⟨rfl, h.scanning⟩
  | acknowledge hguard =>
    refine ⟨?_, h.scanning⟩
    rw [h.pause, hguard]
    rfl
  | timeout hguard =>
    refine ⟨?_, h.scanning⟩
    rw [h.pause, hguard]
    rfl
  | dropGuard => exact ⟨rfl, h.scanning⟩

theorem flags_of_run {actions : List ScanGateAction} (h : steps step new actions = some s) : Flags s :=
  steps_invariant (fun hs hstep => hs.of_moves (moves_of_step hstep)) actions ⟨rfl, rfl⟩ h

/-! ## What holds if no scan is being started when the lock is taken -/

structure Exclusive (s : ScanGate) : Prop where
  starting : s.guard.isSome = true → s.scan.isStarting = false
  live : s.guard = some (.held false) → s.scan.live = false

theorem Flags.isStarting_holdOff (h : Flags s) (hguard : s.guard.isSome = true) :
    s.holdOff.isStarting = false := by
  unfold holdOff
  rw [h.pause, if_pos hguard]
  rfl

theorem Flags.live_of_await (h : Flags s) (hawait : s.await = .held false) : s.scan.live = false := by
  unfold await at hawait
  rw [← h.scanning]
  split_ifs at hawait with hscanning
  exact Bool.eq_false_iff.mpr hscanning

theorem Exclusive.of_moves (hflags : Flags s) (h : Exclusive s) (hcond : s.undisturbed a = true)
    (hmoves : Moves s a t) : Exclusive t := by
  cases hmoves with
  | look hscan => exact ⟨hflags.isStarting_holdOff, fun _ => live_holdOff s⟩
  | @started seen hscan =>
    refine ⟨fun _ => rfl, ?_⟩
    intro hguard
    have hidle := h.starting (by rw [show s.guard = _ from hguard]; rfl)
    rw [hscan] at hidle
    cases hidle
  | startFailed hscan => exact ⟨fun _ => rfl, fun _ => rfl⟩
  | dropScan => exact ⟨hflags.isStarting_holdOff, fun _ => live_holdOff s⟩
  | goOn hscan hpause =>
    refine ⟨fun _ => rfl, ?_⟩
    intro hguard
    have hnone := hflags.pause
    rw [hpause, show s.guard = _ from hguard] at hnone
    cases hnone
  | stop => exact ⟨fun _ => rfl, fun _ => rfl⟩
  | queue n => exact ⟨h.starting, h.live⟩
  | acquire n hguard =>
    refine ⟨fun _ => ?_, ?_⟩
    · simpa [undisturbed] using hcond
    · intro hawait
      exact hflags.live_of_await (Option.some.inj hawait)
  | acknowledge hguard =>
    refine ⟨fun _ => h.starting (by rw [hguard]; rfl), ?_⟩
    intro hawait
    exact hflags.live_of_await (Option.some.inj hawait)
  | timeout hguard =>
    refine ⟨fun _ => h.starting (by rw [hguard]; rfl), ?_⟩
    intro hheld
    cases hheld
  | dropGuard => exact ⟨fun hguard => (by cases hguard), fun hguard => (by cases hguard)⟩

/-- Whatever number of connects there is, however their steps and those of the scan task
interleave, and wherever their futures are dropped: the pause flag is raised exactly while there
is a guard. If moreover no connect gets the lock while a scan is being started, then no scan is
live while a guard is held for which `pause` did not time out. -/
theorem no_scan_of_undisturbed (actions : List ScanGateAction) (s : ScanGate) :
    (steps step new actions = some s → s.pause.value = s.guard.isSome) ∧
      (steps (restrict step fun s a => s.undisturbed a = true) new actions = some s →
        s.guard = some (.held false) → s.scan.live = false) := by
  refine ⟨fun h => (flags_of_run h).pause, ?_⟩
  intro h
  have hinv : Flags s ∧ Exclusive s := by
    refine steps_invariant (I := fun s => Flags s ∧ Exclusive s) ?_ actions
      ⟨⟨rfl, rfl⟩, fun hguard => (by cases hguard), fun hguard => (by cases hguard)⟩ h
    rintro s a t ⟨hflags, hexclusive⟩ hstep
    obtain ⟨hcond, hstep⟩ := restrict_eq_some.mp hstep
    have hmoves := moves_of_step hstep
    exact ⟨hflags.of_moves hmoves, hexclusive.of_moves hflags hcond hmoves⟩
  exact hinv.2.live

def pauseLive : List ScanGateAction :=
  [.enter, .started, .call, .acquire, .call, .notice, .acknowledge]

theorem no_scan_of_undisturbed_pauseLive :
    ∃ s, steps (restrict step fun s a => s.undisturbed a = true) new pauseLive = some s ∧
      s.guard = some (.held false) ∧ s.pause.value = s.guard.isSome ∧ s.scan.live = false := by
  refine exists_of_view (·.guard) (some (.held false)) (by decide) ?_
  intro s hs hguard
  obtain ⟨hflag, hlive⟩ := no_scan_of_undisturbed pauseLive s
  exact ⟨hguard, hflag (steps_of_restrict hs), hlive hs hguard⟩

/-- The scan task has seen the flag lowered and waits for the adapter; a connect finds that no
scan is reported, and has its guard when the scan starts. -/
theorem scan_starts_under_guard :
    ∃ s, steps step new [.enter, .call, .acquire, .started] = some s ∧
      s.guard = some (.held false) ∧ s.scan.live = true := by
  refine exists_of_view (fun s => (s.guard, s.scan.live)) (some (.held false), true) (by decide) ?_
  intro s hs hstate
  exact Prod.mk.inj hstate

end ScanGate
end HapRust.Ble
