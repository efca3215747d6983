import HapRust.Controller.Handle

/-! The subscriptions of a fresh session. The supervisor copies the recorded ids,
writes each to the fresh session and publishes it, whatever came of the writes;
the handle records an id only when the response to its own write has arrived. -/

namespace HapRust.Controller
open Lib

namespace HandleState

/-- A session that the supervisor is about to publish has what the calls that
returned asked for. -/
def Resubscribed (s : HandleState) : Prop :=
  ∀ k, s.supervisor = .resubscribing k [] → ∀ id,
    (s.settled id = some true → id ∈ s.watching k) ∧
    (s.settled id = some false → id ∉ s.watching k)

def recordsNothing (s : HandleState) : Bool :=
  match s.call with
  | .asking (.subscribe id) _ _ _ => id ∈ s.subscribed
  | .asking (.unsubscribe id) _ _ _ => id ∉ s.subscribed
  | _ => true

def copied (s : HandleState) : Bool :=
  match s.supervisor with
  | .resubscribing _ _ => true
  | _ => false

/-- The accessory accepts every id that is written again, and between the copy of
the recorded ids and the publication no call changes them. -/
def Steady (s : HandleState) : HandleAction → Prop
  | .resubscribed accepted => accepted = true
  | .succeeds => s.copied = true → s.recordsNothing = true
  | _ => True

instance (s : HandleState) : (a : HandleAction) → Decidable (s.Steady a)
  | .resubscribed accepted => inferInstanceAs (Decidable (accepted = true))
  | .succeeds => inferInstanceAs (Decidable (s.copied = true → s.recordsNothing = true))
  | .begin _ | .handled _ | .fails | .dies | .elapsed | .wakes | .takeEvents | .sessionEnds
  | .reconnected _ | .snapshot | .publish => isTrue trivial

structure SubInv (s : HandleState) : Prop where
  recorded : ∀ id, (s.settled id = some true → id ∈ s.subscribed) ∧
    (s.settled id = some false → id ∉ s.subscribed)
  current : s.current < s.made
  called : ∀ k, s.call.session = some k → k ≤ s.current
  fresh : ∀ k, s.supervisor.fresh = some k → s.current < k ∧ k < s.made
  unmade : ∀ k, s.made ≤ k → s.watching k = []
  connected : ∀ k, s.supervisor = .connected k → s.watching k = []
  copied : ∀ k ids, s.supervisor = .resubscribing k ids →
    ∀ id, id ∈ s.subscribed ↔ id ∈ s.watching k ∨ id ∈ ids

theorem subInv_new : SubInv new where
  recorded _ := ⟨nofun, nofun⟩
  current := Nat.zero_lt_one
  called _ h := by cases h
  fresh _ h := by cases h
  unmade _ _ := rfl
  connected _ h := by cases h
  copied _ _ h := by cases h

variable {s t : HandleState}

theorem SubInv.resubscribed (h : s.SubInv) : s.Resubscribed := by
  intro k hk id
  have hcopied := h.copied k [] hk id
  rw [List.mem_nil_iff, or_false] at hcopied
  rw [← hcopied]
  exact h.recorded id

theorem SubInv.same (h : s.SubInv) (hsupervisor : t.supervisor = s.supervisor)
    (hsessions : t.current = s.current ∧ t.made = s.made) (hsubscribed : t.subscribed = s.subscribed)
    (hwatching : t.watching = s.watching) (hsettled : t.settled = s.settled)
    (hcall : ∀ k, t.call.session = some k → k ≤ t.current) : t.SubInv := by
  obtain ⟨hcurrent, hmade⟩ := hsessions
  obtain ⟨hrecorded, hlt, -, hfresh, hunmade, hconnected, hcopied⟩ := h
  refine ⟨?_, ?_, hcall, ?_, ?_, ?_, ?_⟩
  · rwa [hsettled, hsubscribed]
  · rwa [hcurrent, hmade]
  · rwa [hsupervisor, hcurrent, hmade]
  · rwa [hmade, hwatching]
  · rwa [hsupervisor, hwatching]
  · rwa [hsupervisor, hwatching, hsubscribed]

theorem SubInv.ask (h : s.SubInv) (op : Op) (again : Bool) : (s.ask op again).SubInv := by
  refine h.same rfl ⟨rfl, rfl⟩ rfl rfl rfl ?_
  intro k hk
  exact Nat.le_of_eq (Option.some.inj hk).symm

theorem SubInv.idle (h : s.SubInv) (hsupervisor : t.supervisor = s.supervisor)
    (hsessions : t.current = s.current ∧ t.made = s.made) (hsubscribed : t.subscribed = s.subscribed)
    (hwatching : t.watching = s.watching) (hsettled : t.settled = s.settled)
    (hcall : t.call.session = none) : t.SubInv := by
  refine h.same hsupervisor hsessions hsubscribed hwatching hsettled ?_
  intro k hk
  rw [hcall] at hk
  cases hk

theorem SubInv.accessories (h : s.SubInv) : s.accessories.SubInv := by
  unfold HandleState.accessories
  split
  · have hcleared : SubInv { s with needsRefresh := false, cached := none } :=
      h.same rfl ⟨rfl, rfl⟩ rfl rfl rfl h.called
    exact hcleared.ask .accessories false
  · exact h.same rfl ⟨rfl, rfl⟩ rfl rfl rfl h.called

theorem SubInv.unfreshed (h : s.SubInv) {p : Supervisor} (hp : p.fresh = none) {k : Nat}
    (hmade : k < s.made) (hcurrent : s.current ≤ k) :
    SubInv { s with supervisor := p, current := k } where
  recorded := h.recorded
  current := hmade
  called j hj := Nat.le_trans (h.called j hj) hcurrent
  fresh j hj := by
    rw [show p.fresh = some j from hj] at hp
    cases hp
  unmade := h.unmade
  connected j hj := by
    rw [show p = .connected j from hj] at hp
    cases hp
  copied j ids hj := by
    rw [show p = .resubscribing j ids from hj] at hp
    cases hp

theorem SubInv.watch (h : s.SubInv) {k : Nat} (hk : s.call.session = some k) (ids : List CharId) :
    (s.watch k ids).SubInv := by
  have hle := h.called k hk
  have hother : ∀ j, s.current < j → (s.watch k ids).watching j = s.watching j := by
    intro j hj
    exact Function.update_of_ne (by omega) ..
  refine ⟨h.recorded, h.current, h.called, h.fresh, ?_, ?_, ?_⟩
  · intro j hj
    rw [hother j (Nat.lt_of_lt_of_le h.current hj)]
    exact h.unmade j hj
  · intro j hj
    rw [hother j (h.fresh j (by rw [show s.supervisor = _ from hj]; rfl)).1]
    exact h.connected j hj
  · intro j rest hj
    rw [hother j (h.fresh j (by rw [show s.supervisor = _ from hj]; rfl)).1]
    exact h.copied j rest hj

theorem SubInv.handle (h : s.SubInv) {config : UInt32} (hstep : s.handle config = some t) :
    t.SubInv := by
  unfold HandleState.handle at hstep
  split at hstep
  · next k again tree hcall =>
    obtain rfl := Option.some.inj hstep
    exact h.same rfl ⟨rfl, rfl⟩ rfl rfl rfl fun j hj => h.called j (by rw [hcall]; exact hj)
  · next id k again tree hcall =>
    obtain rfl := Option.some.inj hstep
    exact h.watch (by rw [hcall]; rfl) _
  · next id k again tree hcall =>
    obtain rfl := Option.some.inj hstep
    exact h.watch (by rw [hcall]; rfl) _
  · cases hstep

theorem SubInv.record (h : s.SubInv) {id : CharId} {on : Bool} {ids : List CharId}
    (hids : ∀ j, j ∈ ids ↔ if j = id then on = true else j ∈ s.subscribed)
    (hsteady : s.copied = true → (id ∈ s.subscribed ↔ on = true)) :
    SubInv { s with
      subscribed := ids, settled := Function.update s.settled id (some on), call := .idle } := by
  refine ⟨?_, h.current, ?_, h.fresh, h.unmade, h.connected, ?_⟩
  · intro j
    rw [hids j]
    by_cases hj : j = id
    · rw [if_pos hj, hj]
      simp only [Function.update_self, Option.some.injEq]
      cases on <;> simp
    · rw [if_neg hj]
      simp only [Function.update_of_ne hj]
      exact h.recorded j
  · intro k hk
    cases hk
  · intro k rest hk j
    have hcopied := h.copied k rest hk j
    rw [hids j, ← hcopied]
    by_cases hj : j = id
    · rw [if_pos hj, hj]
      exact (hsteady (by rw [HandleState.copied, show s.supervisor = _ from hk])).symm
    · rw [if_neg hj]

theorem SubInv.succeed (h : s.SubInv) (hsteady : s.copied = true → s.recordsNothing = true)
    (hstep : s.succeed = some t) : t.SubInv := by
  unfold HandleState.succeed at hstep
  split at hstep
  · obtain rfl := Option.some.inj hstep
    exact h.idle rfl ⟨rfl, rfl⟩ rfl rfl rfl rfl
  · next id k again tree hcall =>
    obtain rfl := Option.some.inj hstep
    refine h.record ?_ ?_
    · intro j
      by_cases hj : j = id <;> by_cases hid : id ∈ s.subscribed <;> simp [hj, hid]
    · intro hcopied
      have hnothing := hsteady hcopied
      rw [recordsNothing, hcall] at hnothing
      simpa using hnothing
  · next id k again tree hcall =>
    obtain rfl := Option.some.inj hstep
    refine h.record ?_ ?_
    · intro j
      by_cases hj : j = id <;> simp [hj]
    · intro hcopied
      have hnothing := hsteady hcopied
      rw [recordsNothing, hcall] at hnothing
      simpa using hnothing
  · cases hstep

theorem SubInv.reconnect (h : s.SubInv) (config : Option UInt32) : (s.reconnect config).SubInv := by
  have hchecked : ∀ config, (s.checkConfig config).SubInv := by
    intro config
    refine h.same rfl ⟨rfl, rfl⟩ rfl rfl rfl ?_
    intro k hk
    refine h.called k ?_
    rw [← hk]
    cases hcall : s.call <;> simp [checkConfig, hcall, Call.report, Call.session]
  have hconnect : ∀ {r : HandleState}, r.SubInv →
      SubInv { r with supervisor := .connected r.made, made := r.made + 1 } := by
    intro r hr
    refine ⟨hr.recorded, Nat.lt_succ_of_lt hr.current, hr.called, ?_, ?_, ?_, ?_⟩
    · intro k hk
      obtain rfl := Option.some.inj hk
      exact ⟨hr.current, Nat.lt_succ_self _⟩
    · intro k hk
      exact hr.unmade k (Nat.le_of_succ_le hk)
    · intro k hk
      obtain rfl := Supervisor.connected.inj hk
      exact hr.unmade _ (Nat.le_refl _)
    · intro k ids hk
      cases hk
  cases config with
  | none => exact hconnect h
  | some config => exact hconnect (hchecked config)

theorem SubInv.resubscribe (h : s.SubInv) {k : Nat} {id : CharId} {ids : List CharId}
    (hsupervisor : s.supervisor = .resubscribing k (id :: ids)) :
    SubInv { s.watch k (s.watching k ++ [id]) with supervisor := .resubscribing k ids } := by
  obtain ⟨hcurrent, hmade⟩ := h.fresh k (by rw [hsupervisor]; rfl)
  refine ⟨h.recorded, h.current, h.called, ?_, ?_, ?_, ?_⟩
  · intro j hj
    obtain rfl := Option.some.inj hj
    exact ⟨hcurrent, hmade⟩
  · intro j hj
    have hne : j ≠ k := by
      have hle : s.made ≤ j := hj
      omega
    have hsame : (s.watch k (s.watching k ++ [id])).watching j = s.watching j :=
      Function.update_of_ne hne ..
    exact hsame.trans (h.unmade j hj)
  · intro j hj
    cases hj
  · intro j rest hj x
    obtain ⟨rfl, rfl⟩ := Supervisor.resubscribing.inj hj
    have hself : (s.watch k (s.watching k ++ [id])).watching k = s.watching k ++ [id] :=
      Function.update_self ..
    change x ∈ s.subscribed ↔ x ∈ (s.watch k (s.watching k ++ [id])).watching k ∨ x ∈ ids
    rw [hself, h.copied k _ hsupervisor x, List.mem_append, List.mem_singleton, List.mem_cons,
      or_assoc]

theorem subInv_step {a : HandleAction} (h : s.SubInv)
    (hstep : restrict step Steady s a = some t) : t.SubInv := by
  rw [restrict_eq_some] at hstep
  obtain ⟨hsteady, hstep⟩ := hstep
  cases a with
  | begin op =>
    simp only [step] at hstep
    split at hstep
    · obtain rfl := Option.some.inj hstep
      exact h.accessories
    · obtain rfl := Option.some.inj hstep
      exact h.ask _ false
    · cases hstep
  | handled config => exact h.handle hstep
  | succeeds => exact h.succeed hsteady hstep
  | fails =>
    obtain ⟨-, rfl⟩ := guarded_eq_some.mp hstep
    exact h.idle rfl ⟨rfl, rfl⟩ rfl rfl rfl rfl
  | dies =>
    simp only [step] at hstep
    split at hstep
    · obtain rfl := Option.some.inj hstep
      exact h.idle rfl ⟨rfl, rfl⟩ rfl rfl rfl rfl
    · cases hstep
  | elapsed =>
    simp only [step] at hstep
    split at hstep
    · split_ifs at hstep
      · obtain rfl := Option.some.inj hstep
        exact h.idle rfl ⟨rfl, rfl⟩ rfl rfl rfl rfl
      · obtain rfl := Option.some.inj hstep
        exact h.ask _ true
    · cases hstep
  | wakes =>
    simp only [step] at hstep
    split at hstep
    · obtain ⟨-, rfl⟩ := guarded_eq_some.mp hstep
      exact h.ask _ true
    · cases hstep
  | reconnected config =>
    obtain ⟨-, rfl⟩ := guarded_eq_some.mp hstep
    exact h.reconnect config
  | takeEvents | sessionEnds =>
    simp only [step] at hstep
    split at hstep
    · obtain rfl := Option.some.inj hstep
      exact h.unfreshed rfl h.current (Nat.le_refl _)
    · cases hstep
  | snapshot =>
    simp only [step] at hstep
    split at hstep
    · next k hk =>
      obtain rfl := Option.some.inj hstep
      refine ⟨h.recorded, h.current, h.called, ?_, h.unmade, ?_, ?_⟩
      · intro j hj
        obtain rfl := Option.some.inj hj
        exact h.fresh k (by rw [hk]; rfl)
      · intro j hj
        cases hj
      · intro j ids hj id
        obtain ⟨rfl, rfl⟩ := Supervisor.resubscribing.inj hj
        change id ∈ s.subscribed ↔ id ∈ s.watching k ∨ id ∈ s.subscribed
        rw [h.connected k hk]
        simp
    · cases hstep
  | resubscribed accepted =>
    obtain rfl : accepted = true := hsteady
    simp only [step] at hstep
    split at hstep
    · next k id ids hk =>
      obtain rfl := Option.some.inj hstep
      exact h.resubscribe hk
    · cases hstep
  | publish =>
    simp only [step] at hstep
    split at hstep
    · next k hk =>
      obtain rfl := Option.some.inj hstep
      obtain ⟨hcurrent, hmade⟩ := h.fresh k (by rw [hk]; rfl)
      exact h.unfreshed rfl hmade (Nat.le_of_lt hcurrent)
    · cases hstep

/-- In every run in which the accessory accepts each id that is written again, and
no call changes the recorded ids between their copy and the publication, a
session is published with what the calls that returned asked for. -/
theorem resubscribed_of_steady (actions : List HandleAction)
    (h : steps (restrict step Steady) new actions = some s) : s.Resubscribed :=
  (steps_invariant subInv_step actions subInv_new h).resubscribed

def subscribeTo (id : CharId) : List HandleAction :=
  [.begin (.subscribe id), .handled 1, .succeeds]

theorem resubscribed_of_steady_two :
    ∃ s, steps (restrict step Steady) new
        (([.takeEvents] : List HandleAction) ++ subscribeTo (1, 10) ++ subscribeTo (1, 11) ++
          ([.begin (.unsubscribe (1, 10)), .handled 1, .succeeds, .sessionEnds, .reconnected none,
            .snapshot, .resubscribed true] : List HandleAction)) = some s ∧
      s.supervisor = .resubscribing 1 [] ∧ s.settled (1, 11) = some true ∧
      s.settled (1, 10) = some false ∧ s.Resubscribed := by
  refine exists_of_view (fun s => (s.supervisor, s.settled (1, 11), s.settled (1, 10)))
    (.resubscribing 1 [], some true, some false) (by decide +kernel) ?_
  intro s hs hstate
  simp only [Prod.mk.injEq] at hstate
  exact ⟨hstate.1, hstate.2.1, hstate.2.2, resubscribed_of_steady _ hs⟩

/-- The accessory refuses the id when it is written again: the session is published
without it. -/
theorem refused_id_published :
    ∃ s, steps step new
        (([.takeEvents] : List HandleAction) ++ subscribeTo (1, 10) ++
          ([.sessionEnds, .reconnected none, .snapshot, .resubscribed false] :
            List HandleAction)) = some s ∧
      s.supervisor = .resubscribing 1 [] ∧ s.settled (1, 10) = some true ∧ s.watching 1 = [] ∧
      ¬ s.Resubscribed := by
  refine exists_of_view (fun s => (s.supervisor, s.settled (1, 10), s.watching 1))
    (.resubscribing 1 [], some true, []) (by decide +kernel) ?_
  intro s hs hstate
  simp only [Prod.mk.injEq] at hstate
  obtain ⟨hsupervisor, hsettled, hwatching⟩ := hstate
  refine ⟨hsupervisor, hsettled, hwatching, ?_⟩
  intro hall
  have hmem := (hall 1 hsupervisor (1, 10)).1 hsettled
  rw [hwatching] at hmem
  cases hmem

end HandleState
end HapRust.Controller
