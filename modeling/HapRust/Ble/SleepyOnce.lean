import HapRust.Ble.SleepyReach

/-! One watch over a handle. Every GSN that is accepted is further along than all before it, so
each belongs to a broadcast or to one poll, and the events of one GSN are of different
characteristics. -/

namespace HapRust.Ble
open Lib

def PollPhase.left : PollPhase → List Target
  | waiting => []
  | reading _ targets => targets
  | emitting _ target _ rest => target :: rest

theorem Shared.nodup_emit {s : Shared} {gsn : UInt16} {event : CharacteristicEvent}
    (h : (s.events.map eventKey).Nodup) (hfresh : (event.iid, gsn) ∉ s.events.map eventKey) :
    ((s.emit gsn event).events.map eventKey).Nodup := by
  obtain ⟨-, -, -, ⟨hsame, -⟩ | happend⟩ := emit_cases s gsn event
  · rw [hsame]
    exact h
  · rw [happend, List.map_append]
    refine List.nodup_append.mpr ⟨h, List.nodup_singleton _, ?_⟩
    rintro a ha b hb rfl
    obtain rfl := List.mem_singleton.mp hb
    exact hfresh ha

namespace Watch

structure Fresh (s : Shared) (w : Watch) (gsn : UInt16) : Prop where
  events : ∀ e ∈ s.events, e.1 ≠ gsn
  poll : w.poll.gsn ≠ some gsn
  bump : w.changed = true → w.bump ≠ gsn

structure Once (s : Shared) (w : Watch) : Prop where
  nodup : (s.events.map eventKey).Nodup
  loop : ∀ {gsn}, w.adverts.gsn = some gsn → Fresh s w gsn
  unpolled : w.changed = true → (∀ e ∈ s.events, e.1 ≠ w.bump) ∧ w.poll.gsn ≠ some w.bump
  pending : ∀ {gsn}, w.poll.gsn = some gsn → ∀ e ∈ s.events, e.1 = gsn →
    e.2.iid ∉ w.poll.left.map (·.iid)
  targets : (w.targets.map (·.iid)).Nodup
  left : (w.poll.left.map (·.iid)).Nodup

variable {H : SleepyHandle} {o gsn : UInt16} {s t : Shared} {w v : Watch} {a : WatchAction}

theorem left_goOn (gsn : UInt16) (rest : List Target) : (goOn gsn rest).left = rest := by
  cases rest <;> rfl

theorem Reach.fresh (h : Reach o s w) (hlt : s.advance < ahead o gsn) : Fresh s w gsn where
  events e he heq := by
    have hle := (h.events e he).2
    rw [heq] at hle
    omega
  poll hpoll := by
    have hle := (h.carried (.poll hpoll)).2
    omega
  bump hchanged hbump := by
    have hle := (h.carried (.bump hchanged hbump)).2
    omega

/-! ### The loop over the advertisements -/

theorem Once.goto (h : Once s w) {phase : AdvertPhase} (hphase : phase.gsn = none) :
    Once s { w with adverts := phase } where
  nodup := h.nodup
  loop hg := by cases hphase.symm.trans hg
  unpolled := h.unpolled
  pending := h.pending
  targets := h.targets
  left := h.left

theorem Once.bump (h : Once s w) (hfresh : Fresh s w gsn) :
    Once (s.setGsn gsn) { w with adverts := .receiving, bump := gsn, changed := true } where
  nodup := h.nodup
  loop hg := by cases hg
  unpolled _ := ⟨hfresh.events, hfresh.poll⟩
  pending := h.pending
  targets := h.targets
  left := h.left

theorem Once.store (h : Once s w) (hfresh : Fresh s w gsn) {phase : AdvertPhase}
    (hphase : phase.gsn = none ∨ phase.gsn = some gsn) :
    Once (s.setGsn gsn) { w with adverts := phase } where
  nodup := h.nodup
  loop {g} hg := by
    rcases hphase with hnone | hsome
    · cases hnone.symm.trans hg
    · obtain rfl := Option.some.inj (hsome.symm.trans hg)
      exact ⟨hfresh.events, hfresh.poll, hfresh.bump⟩
  unpolled := h.unpolled
  pending := h.pending
  targets := h.targets
  left := h.left

theorem Once.emit (h : Once s w) {iid : UInt64} {value : CharValue}
    (hw : w.adverts = .emitting gsn iid value) :
    Once (s.emit gsn ⟨1, iid, value⟩) { w with adverts := .receiving } := by
  have hfresh : Fresh s w gsn := h.loop (by rw [hw]; rfl)
  have hnone : (iid, gsn) ∉ s.events.map eventKey := by
    intro hmem
    obtain ⟨e, he, heq⟩ := List.mem_map.mp hmem
    exact hfresh.events e he (Prod.mk.inj heq).2
  refine ⟨Shared.nodup_emit h.nodup hnone, ?_, ?_, ?_, h.targets, h.left⟩
  · intro g hg
    cases hg
  · intro hchanged
    refine ⟨?_, (h.unpolled hchanged).2⟩
    intro e he
    rcases Shared.events_emit he with he | rfl
    · exact (h.unpolled hchanged).1 e he
    · exact (hfresh.bump hchanged).symm
  · intro g hg e he heq
    rcases Shared.events_emit he with he | rfl
    · exact h.pending hg e he heq
    · obtain rfl : gsn = g := heq
      exact absurd hg hfresh.poll

/-! ### The poll task -/

theorem Once.wake (h : Once s w) (hchanged : w.changed = true) :
    Once s { w with changed := false, poll := .reading w.bump w.targets } := by
  refine ⟨h.nodup, ?_, ?_, ?_, h.targets, h.targets⟩
  · intro g hg
    have hfresh := h.loop hg
    refine ⟨hfresh.events, ?_, fun hc => by cases hc⟩
    intro heq
    exact hfresh.bump hchanged (Option.some.inj heq)
  · intro hc
    cases hc
  · intro g hg e he heq
    obtain rfl := Option.some.inj hg
    exact absurd heq ((h.unpolled hchanged).1 e he)

theorem Once.poll (h : Once s w) {phase : PollPhase}
    (hgsn : ∀ {g}, phase.gsn = some g → w.poll.gsn = some g)
    (hleft : phase.left.Sublist w.poll.left) : Once s { w with poll := phase } := by
  have hiids := hleft.map (·.iid)
  refine ⟨h.nodup, ?_, ?_, ?_, h.targets, hiids.nodup h.left⟩
  · intro g hg
    have hfresh := h.loop hg
    exact ⟨hfresh.events, fun hp => hfresh.poll (hgsn hp), hfresh.bump⟩
  · intro hchanged
    exact ⟨(h.unpolled hchanged).1, fun hg => (h.unpolled hchanged).2 (hgsn hg)⟩
  · intro g hg e he heq hmem
    exact h.pending (hgsn hg) e he heq (hiids.subset hmem)

theorem Once.pollEmit (h : Once s w) {target : Target} {value : CharValue} {rest : List Target}
    (hw : w.poll = .emitting gsn target value rest) :
    Once (s.emit gsn ⟨target.aid, target.iid, value⟩) { w with poll := goOn gsn rest } := by
  have hgsn : w.poll.gsn = some gsn := by rw [hw]; rfl
  have hleft : w.poll.left = target :: rest := by rw [hw]; rfl
  have hnodup := h.left
  rw [hleft, List.map_cons, List.nodup_cons] at hnodup
  have hnone : (target.iid, gsn) ∉ s.events.map eventKey := by
    intro hmem
    obtain ⟨e, he, heq⟩ := List.mem_map.mp hmem
    obtain ⟨hiid, hg⟩ := Prod.mk.inj heq
    have hpending := h.pending hgsn e he hg
    rw [hleft, hiid] at hpending
    exact hpending (List.mem_cons_self ..)
  have hp : Once s { w with poll := goOn gsn rest } := by
    refine h.poll ?_ ?_
    · intro g hg
      rw [gsn_goOn hg]
      exact hgsn
    · rw [left_goOn, hleft]
      exact List.sublist_cons_self ..
  refine ⟨Shared.nodup_emit h.nodup hnone, ?_, ?_, ?_, hp.targets, hp.left⟩
  · intro g hg
    have hfresh := hp.loop hg
    refine ⟨?_, hfresh.poll, hfresh.bump⟩
    intro e he
    rcases Shared.events_emit he with he | rfl
    · exact hfresh.events e he
    · rintro rfl
      exact (h.loop hg).poll hgsn
  · intro hchanged
    refine ⟨?_, (hp.unpolled hchanged).2⟩
    intro e he
    rcases Shared.events_emit he with he | rfl
    · exact (hp.unpolled hchanged).1 e he
    · intro heq
      exact (h.unpolled hchanged).2 (hgsn.trans (congrArg some heq))
  · intro g hg e he heq
    rcases Shared.events_emit he with he | rfl
    · exact hp.pending hg e he heq
    · show target.iid ∉ (goOn gsn rest).left.map (·.iid)
      rw [left_goOn]
      exact hnodup.1

theorem Once.of_moves (hreach : Reach o s w) (h : Once s w) (hmoves : Moves H s w a t v)
    (hmax : t.advance < 2 ^ 15) : Once t v := by
  cases hmoves with
  | receive mfg hw => exact h.goto (gsn_classify w mfg)
  | bump hw hnew => exact h.bump (hreach.fresh (hreach.lt_setGsn (gsnIsNewer_iff.mp hnew) hmax).1)
  | suppress hw => exact h.goto rfl
  | sample hw => exact h.goto (gsn_decrypted w _ _)
  | @store start g pt hw =>
    obtain ⟨rfl, hnew⟩ := hreach.storing hw
    refine h.store (hreach.fresh (hreach.lt_setGsn hnew hmax).1) ?_
    rcases decoded_cases H g pt with heq | ⟨iid, value, heq⟩
    · exact .inl (by rw [heq]; rfl)
    · exact .inr (by rw [heq]; rfl)
  | emit hw => exact h.emit hw
  | close hw => exact h.goto rfl
  | wake hw hchanged => exact h.wake hchanged
  | read raw value hw =>
    refine h.poll ?_ ?_
    · intro g hg
      rw [hw]
      exact hg
    · rw [hw]
      exact List.Sublist.refl _
  | skip raw hw =>
    refine h.poll ?_ ?_
    · intro g hg
      rw [hw, gsn_goOn hg]
      rfl
    · rw [hw, left_goOn]
      exact List.sublist_cons_self ..
  | pollEmit hw => exact h.pollEmit hw

/-! ### Whole runs -/

theorem targets_nodup (H : SleepyHandle) {pollIids : List (UInt64 × UInt64)}
    (h : pollIids.Nodup) : ((H.targets pollIids).map (·.iid)).Nodup := by
  rw [SleepyHandle.targets, List.map_filterMap]
  have hid : ∀ (p : UInt64 × UInt64) (iid : UInt64),
      (((H.lookUp p.1 p.2).map fun found => (⟨p.1, p.2, found.1, found.2⟩ : Target)).map (·.iid)) =
        some iid → p = (1, iid) := by
    rintro ⟨aid, iid⟩ b hb
    obtain ⟨target, htarget, rfl⟩ := Option.map_eq_some_iff.mp hb
    obtain ⟨found, hfound, rfl⟩ := Option.map_eq_some_iff.mp htarget
    obtain ⟨rfl, -⟩ := Option.ite_none_right_eq_some.mp hfound
    rfl
  refine List.Nodup.filterMap ?_ h
  intro p p' iid hp hp'
  exact (hid p iid hp).trans (hid p' iid hp').symm

theorem once_new (H : SleepyHandle) (o : UInt16) (deviceId : Arr 6)
    {pollIids : List (UInt64 × UInt64)} (h : pollIids.Nodup) :
    Once (.new o) (.new H deviceId pollIids) where
  nodup := List.nodup_nil
  loop hg := by cases hg
  unpolled hc := by cases hc
  pending hg := by cases hg
  targets := targets_nodup H h
  left := List.nodup_nil

structure Inv (o : UInt16) (s : Shared) (w : Watch) : Prop where
  reach : Reach o s w
  recorded : s.Recorded
  once : Once s w

theorem Inv.of_moves (h : Inv o s w) (hmoves : Moves H s w a t v) (hmax : t.advance < 2 ^ 15) :
    Inv o t v :=
  ⟨h.reach.of_moves hmoves hmax, recorded_of_moves h.recorded hmoves,
    h.once.of_moves h.reach hmoves hmax⟩

theorem Inv.record_le (h : Inv o s w) {iid : UInt64} (hgsn : s.emitted iid = some gsn) :
    ahead o gsn ≤ s.advance := by
  obtain ⟨e, he, heq⟩ := List.mem_map.mp (h.recorded iid gsn hgsn)
  obtain ⟨-, rfl⟩ := Prod.mk.inj heq
  exact (h.reach.events e he).2

def Grows (o : UInt16) (s t : Shared) : Prop :=
  ahead o s.lastGsn ≤ ahead o t.lastGsn ∧ ∀ {iid p}, s.emitted iid = some p →
    ∃ q, t.emitted iid = some q ∧ ahead o p ≤ ahead o q

theorem Grows.refl (o : UInt16) (s : Shared) : Grows o s s :=
  ⟨Nat.le_refl _, fun hp => ⟨_, hp, Nat.le_refl _⟩⟩

theorem Grows.trans {u : Shared} (h : Grows o s t) (h' : Grows o t u) : Grows o s u := by
  refine ⟨h.1.trans h'.1, ?_⟩
  intro iid p hp
  obtain ⟨q, hq, hpq⟩ := h.2 hp
  obtain ⟨r, hr, hqr⟩ := h'.2 hq
  exact ⟨r, hr, hpq.trans hqr⟩

theorem grows_setGsn (h : Reach o s w) (hnew : Newer gsn s.lastGsn)
    (hmax : (s.setGsn gsn).advance < 2 ^ 15) : Grows o s (s.setGsn gsn) := by
  obtain ⟨hlt, -⟩ := h.lt_setGsn hnew hmax
  refine ⟨?_, fun hp => ⟨_, hp, Nat.le_refl _⟩⟩
  rw [h.position]
  exact hlt.le

theorem grows_emit (h : Inv o s w) (hmax : s.advance < 2 ^ 15) (hgsn : w.Carries gsn)
    (event : CharacteristicEvent) : Grows o s (s.emit gsn event) := by
  obtain ⟨hlast, -, hemitted, -⟩ := Shared.emit_cases s gsn event
  refine ⟨by rw [hlast], ?_⟩
  intro iid p hp
  rcases hemitted with hsame | ⟨hnew, hupdate⟩
  · exact ⟨p, by rw [hsame, hp], Nat.le_refl _⟩
  · by_cases hiid : iid = event.iid
    · subst hiid
      rw [hp, Option.all_some] at hnew
      have hple := h.record_le hp
      have hle := (h.reach.carried hgsn).2
      have hlt := (newer_iff_lt (o := o) (by omega) (by omega)).mp (gsnIsNewer_iff.mp hnew)
      exact ⟨gsn, by rw [hupdate, Function.update_self], hlt.le⟩
    · exact ⟨p, by rw [hupdate, Function.update_of_ne hiid, hp], Nat.le_refl _⟩

theorem grows_of_moves (h : Inv o s w) (hmoves : Moves H s w a t v) (hmax : t.advance < 2 ^ 15) :
    Grows o s t := by
  cases hmoves with
  | bump hw hnew => exact grows_setGsn h.reach (gsnIsNewer_iff.mp hnew) hmax
  | store hw =>
    obtain ⟨rfl, hnew⟩ := h.reach.storing hw
    exact grows_setGsn h.reach hnew hmax
  | emit hw =>
    rw [Shared.advance_emit] at hmax
    exact grows_emit h hmax (.loop (by rw [hw]; rfl)) _
  | pollEmit hw =>
    rw [Shared.advance_emit] at hmax
    exact grows_emit h hmax (.poll (by rw [hw]; rfl)) _
  | receive | suppress | sample | close | wake | read | skip => exact Grows.refl o s

theorem inv_grows_of_run {p q : Shared × Watch} (hp : p.1.advance < 2 ^ 15 → Inv o p.1 p.2)
    (actions : List WatchAction) (hrun : steps (alone H) p actions = some q)
    (hmax : q.1.advance < 2 ^ 15) : Inv o q.1 q.2 ∧ Grows o p.1 q.1 := by
  refine steps_invariant
    (I := fun q => q.1.advance < 2 ^ 15 → Inv o q.1 q.2 ∧ Grows o p.1 q.1) ?_ actions
    (fun hmax => ⟨hp hmax, Grows.refl o p.1⟩) hrun hmax
  rintro ⟨s, w⟩ a ⟨t, v⟩ ih hstep hmax
  have hmoves := moves_of_step hstep
  have hle := advance_le_of_moves hmoves
  obtain ⟨hinv, hgrows⟩ := ih (Nat.lt_of_le_of_lt hle hmax)
  exact ⟨hinv.of_moves hmoves hmax, hgrows.trans (grows_of_moves hinv hmoves hmax)⟩

/-- As long as the last GSN moves forward by less than half the range in all, whatever
advertisements arrive and however the poll task is delayed: no two events have the same
characteristic and GSN; the last GSN never moves back; and the record of a characteristic is
never replaced by an older GSN. -/
theorem events_once (H : SleepyHandle) (initialGsn : UInt16) (deviceId : Arr 6)
    {pollIids : List (UInt64 × UInt64)} (hnodup : pollIids.Nodup) {before actions : List WatchAction}
    {p q : Shared × Watch} (hbefore : before <+: actions)
    (hp : steps (alone H) (.new initialGsn, .new H deviceId pollIids) before = some p)
    (hq : steps (alone H) (.new initialGsn, .new H deviceId pollIids) actions = some q)
    (hmax : q.1.advance < 2 ^ 15) :
    (q.1.events.map eventKey).Nodup ∧ Later p.1.lastGsn q.1.lastGsn ∧
      ∀ iid gsn, p.1.emitted iid = some gsn →
        ∃ gsn', q.1.emitted iid = some gsn' ∧ Later gsn gsn' := by
  obtain ⟨after, rfl⟩ := hbefore
  rw [steps_append, hp, Option.bind_some] at hq
  have hinit : Inv initialGsn (.new initialGsn) (.new H deviceId pollIids) :=
    ⟨reach_new H initialGsn deviceId pollIids, fun iid gsn he => (by cases he),
      once_new H initialGsn deviceId hnodup⟩
  obtain ⟨hinv, hgrows⟩ := inv_grows_of_run (o := initialGsn)
    (fun hmax => (inv_grows_of_run (fun _ => hinit) before hp hmax).1) after hq hmax
  have hlast := hinv.reach.position
  refine ⟨hinv.once.nodup, ?_, ?_⟩
  · exact (later_iff_le (by have := hgrows.1; omega) (by omega)).mpr hgrows.1
  · intro iid gsn hgsn
    obtain ⟨gsn', hgsn', hle⟩ := hgrows.2 hgsn
    have hle' := hinv.record_le hgsn'
    exact ⟨gsn', hgsn', (later_iff_le (by omega) (by omega)).mpr hle⟩

def sampleHandle : SleepyHandle where
  chars iid := if iid = 11 then some ("11", .bool) else none
  openBroadcast gsn payload _ := if u16Le payload = gsn then some payload else none

def regularAdvert (gsn : UInt8) : Bytes :=
  [0x06, 0x21, 0x00] ++ List.replicate 6 9 ++ [0x01, 0x00, gsn, 0x00]

def broadcastAdvert (gsn value : UInt8) : Bytes :=
  [0x11, 0x00] ++ List.replicate 6 9 ++ [gsn, 0, 11, 0, value, 0, 0, 0, 0, 0, 0, 0]

def slowPoll : List WatchAction :=
  [.receive (broadcastAdvert 6 1), .sample, .store, .emit, .receive (regularAdvert 7), .compare,
    .wake, .receive (regularAdvert 7), .compare, .receive (broadcastAdvert 8 0), .sample, .store,
    .emit, .read (some [1]), .pollEmit]

theorem events_once_slowPoll :
    ∃ q, steps (alone sampleHandle) (.new 5, .new sampleHandle (constArr 6 9) [(1, 11)]) slowPoll =
        some q ∧
      q.1.events.map eventKey = [(11, 6), (11, 8), (11, 7)] ∧ (q.1.events.map eventKey).Nodup ∧
      Later 5 q.1.lastGsn := by
  refine exists_of_view (fun q => (q.1.events.map eventKey, q.1.advance))
    ([(11, 6), (11, 8), (11, 7)], 3) (by decide +kernel) ?_
  intro q hq hstate
  obtain ⟨hevents, hadvance⟩ := Prod.mk.inj hstate
  obtain ⟨hnodup, hlater, -⟩ := events_once sampleHandle 5 (constArr 6 9) (by decide)
    (List.nil_prefix) rfl hq (by rw [hadvance]; decide)
  exact ⟨hevents, hnodup, hlater⟩

end Watch
end HapRust.Ble
