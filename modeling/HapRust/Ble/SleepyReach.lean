import HapRust.Ble.Sleepy

/-! How far the GSNs of one watch have come. The last GSN has one writer, so with every write it
moves further away from where it began; whatever is emitted, or may yet be, has been reached by
it. Positions are distances from the beginning, as long as these stay below half the range. -/

namespace HapRust.Ble
open Lib

def AdvertPhase.gsn : AdvertPhase → Option UInt16
  | emitting gsn _ _ => some gsn
  | _ => none

def PollPhase.gsn : PollPhase → Option UInt16
  | waiting => none
  | reading gsn _ | emitting gsn _ _ _ => some gsn

def eventKey (e : UInt16 × CharacteristicEvent) : UInt64 × UInt16 := (e.2.iid, e.1)

namespace Shared
variable {s : Shared} {gsn : UInt16} {event : CharacteristicEvent}

def Reached (o : UInt16) (s : Shared) (gsn : UInt16) : Prop :=
  0 < ahead o gsn ∧ ahead o gsn ≤ s.advance

def Recorded (s : Shared) : Prop :=
  ∀ iid gsn, s.emitted iid = some gsn → (iid, gsn) ∈ s.events.map eventKey

theorem emitted_emit {iid : UInt64} {p : UInt16} (h : (s.emit gsn event).emitted iid = some p) :
    s.emitted iid = some p ∨ iid = event.iid ∧ p = gsn := by
  obtain ⟨-, -, hsame | ⟨-, hupdate⟩, -⟩ := emit_cases s gsn event
  · rw [hsame] at h
    exact .inl h
  · rw [hupdate] at h
    by_cases hiid : iid = event.iid
    · subst hiid
      rw [Function.update_self] at h
      exact .inr ⟨rfl, (Option.some.inj h).symm⟩
    · rw [Function.update_of_ne hiid] at h
      exact .inl h

theorem events_emit {e : UInt16 × CharacteristicEvent} (he : e ∈ (s.emit gsn event).events) :
    e ∈ s.events ∨ e = (gsn, event) := by
  obtain ⟨-, -, -, ⟨hsame, -⟩ | happend⟩ := emit_cases s gsn event
  · rw [hsame] at he
    exact .inl he
  · rw [happend] at he
    rcases List.mem_append.mp he with he | he
    · exact .inl he
    · exact .inr (List.mem_singleton.mp he)

theorem mem_events_emit {e : UInt16 × CharacteristicEvent} (he : e ∈ s.events) :
    e ∈ (s.emit gsn event).events := by
  obtain ⟨-, -, -, ⟨hsame, -⟩ | happend⟩ := emit_cases s gsn event
  · rw [hsame]
    exact he
  · rw [happend]
    exact List.mem_append_left _ he

theorem Recorded.key_mem_emit (h : s.Recorded) :
    (event.iid, gsn) ∈ (s.emit gsn event).events.map eventKey := by
  obtain ⟨-, -, -, ⟨hsame, hdup⟩ | happend⟩ := emit_cases s gsn event
  · rw [hsame]
    exact h _ _ hdup
  · rw [happend, List.map_append]
    exact List.mem_append_right _ (List.mem_singleton.mpr rfl)

theorem Recorded.emit (h : s.Recorded) : (s.emit gsn event).Recorded := by
  intro iid p hp
  rcases emitted_emit hp with hp | ⟨rfl, rfl⟩
  · obtain ⟨e, he, heq⟩ := List.mem_map.mp (h _ _ hp)
    exact List.mem_map.mpr ⟨e, mem_events_emit he, heq⟩
  · exact h.key_mem_emit

end Shared

namespace Watch

inductive Carries (w : Watch) (gsn : UInt16) : Prop
  | loop (hadverts : w.adverts.gsn = some gsn)
  | bump (hchanged : w.changed = true) (hbump : w.bump = gsn)
  | poll (hpoll : w.poll.gsn = some gsn)

variable {H : SleepyHandle} {o gsn : UInt16} {s t : Shared} {w v : Watch} {a : WatchAction}

theorem gsn_goOn {gsn g : UInt16} {rest : List Target} (h : (goOn gsn rest).gsn = some g) :
    g = gsn := by
  cases rest with
  | nil => cases h
  | cons target rest => exact (Option.some.inj h).symm

theorem classify_not_storing {mfg : Bytes} {start : UInt16} {pt : Bytes} :
    w.classify mfg ≠ .storing start gsn pt := by
  unfold classify
  split
  · split_ifs <;> exact fun h => by cases h
  · split_ifs <;> exact fun h => by cases h
  · exact fun h => by cases h

theorem gsn_classify (w : Watch) (mfg : Bytes) : (w.classify mfg).gsn = none := by
  unfold classify
  split
  · split_ifs <;> rfl
  · split_ifs <;> rfl
  · rfl

theorem gsn_decrypted (w : Watch) (last : UInt16) (payload : Bytes) :
    (w.decrypted H last payload).gsn = none := by
  unfold decrypted
  split
  · split_ifs <;> rfl
  · rfl

theorem decrypted_storing {last start : UInt16} {payload pt : Bytes}
    (h : w.decrypted H last payload = .storing start gsn pt) : start = last ∧ Newer gsn start := by
  unfold decrypted at h
  split at h
  · split_ifs at h with hnew
    obtain ⟨rfl, rfl, rfl⟩ := AdvertPhase.storing.inj h
    exact ⟨rfl, gsnIsNewer_iff.mp hnew⟩
  · cases h

theorem decoded_cases (H : SleepyHandle) (gsn : UInt16) (pt : Bytes) :
    decoded H gsn pt = .receiving ∨ ∃ iid value, decoded H gsn pt = .emitting gsn iid value := by
  unfold decoded
  split
  · exact .inl rfl
  · split
    · exact .inr ⟨_, _, rfl⟩
    · exact .inl rfl

/-! ## What a step does -/

def Storing (s : Shared) (w : Watch) : Prop :=
  ∀ {start gsn pt}, w.adverts = .storing start gsn pt → start = s.lastGsn ∧ Newer gsn start

theorem storing_of_moves (h : Storing s w) (hmoves : Moves H s w a t v) : Storing t v := by
  intro start gsn pt hv
  cases hmoves with
  | receive mfg hw => exact absurd hv classify_not_storing
  | sample hw => exact decrypted_storing hv
  | @store start' g pt' hw =>
    rcases decoded_cases H g pt' with heq | ⟨iid, value, heq⟩
    · cases heq.symm.trans hv
    · cases heq.symm.trans hv
  | bump | suppress | emit | close => cases hv
  | pollEmit hw =>
    rw [(Shared.emit_cases s _ _).1]
    exact h hv
  | wake | read | skip => exact h hv

theorem shared_of_moves (h : Storing s w) (hmoves : Moves H s w a t v) :
    t.lastGsn = s.lastGsn ∧ t.advance = s.advance ∨
      ∃ gsn, Newer gsn s.lastGsn ∧ t = s.setGsn gsn := by
  cases hmoves with
  | bump hw hnew => exact .inr ⟨_, gsnIsNewer_iff.mp hnew, rfl⟩
  | store hw =>
    obtain ⟨rfl, hnew⟩ := h hw
    exact .inr ⟨_, hnew, rfl⟩
  | emit | pollEmit => exact .inl ⟨(Shared.emit_cases s _ _).1, Shared.advance_emit s _ _⟩
  | receive | suppress | sample | close | wake | read | skip => exact .inl ⟨rfl, rfl⟩

theorem Carries.of_loop {phase : AdvertPhase} (h : ({ w with adverts := phase } : Watch).Carries gsn)
    (hphase : phase.gsn = none) : w.Carries gsn := by
  cases h with
  | loop hadverts => cases hphase.symm.trans hadverts
  | bump hchanged hbump => exact .bump hchanged hbump
  | poll hpoll => exact .poll hpoll

theorem Carries.of_poll {phase : PollPhase} (h : ({ w with poll := phase } : Watch).Carries gsn)
    (hphase : ∀ g, phase.gsn = some g → w.poll.gsn = some g) : w.Carries gsn := by
  cases h with
  | loop hadverts => exact .loop hadverts
  | bump hchanged hbump => exact .bump hchanged hbump
  | poll hpoll => exact .poll (hphase gsn hpoll)

theorem carries_of_moves (hs : Storing s w) (h : Moves H s w a t v) (hv : v.Carries gsn) :
    w.Carries gsn ∨ Newer gsn s.lastGsn ∧ t = s.setGsn gsn := by
  cases h with
  | receive mfg hw => exact .inl (hv.of_loop (gsn_classify w mfg))
  | bump hw hnew =>
    cases hv with
    | loop hadverts => cases hadverts
    | bump hchanged hbump =>
      obtain rfl := hbump
      exact .inr ⟨gsnIsNewer_iff.mp hnew, rfl⟩
    | poll hpoll => exact .inl (.poll hpoll)
  | suppress hw => exact .inl (hv.of_loop rfl)
  | sample hw => exact .inl (hv.of_loop (gsn_decrypted w _ _))
  | @store start g pt hw =>
    obtain ⟨rfl, hnew⟩ := hs hw
    rcases decoded_cases H g pt with heq | ⟨iid, value, heq⟩
    · exact .inl (hv.of_loop (by rw [heq]; rfl))
    · cases hv with
      | loop hadverts =>
        rw [heq] at hadverts
        obtain rfl := Option.some.inj hadverts
        exact .inr ⟨hnew, rfl⟩
      | bump hchanged hbump => exact .inl (.bump hchanged hbump)
      | poll hpoll => exact .inl (.poll hpoll)
  | emit hw => exact .inl (hv.of_loop rfl)
  | close hw => exact .inl (hv.of_loop rfl)
  | wake hw hchanged =>
    cases hv with
    | loop hadverts => exact .inl (.loop hadverts)
    | bump hc => cases hc
    | poll hpoll => exact .inl (.bump hchanged (Option.some.inj hpoll))
  | read raw value hw => exact .inl (hv.of_poll fun g hg => by rw [hw]; exact hg)
  | skip raw hw => exact .inl (hv.of_poll fun g hg => by rw [hw, gsn_goOn hg]; rfl)
  | pollEmit hw => exact .inl (hv.of_poll fun g hg => by rw [hw, gsn_goOn hg]; rfl)

theorem events_of_moves (h : Moves H s w a t v) {e : UInt16 × CharacteristicEvent}
    (he : e ∈ t.events) : e ∈ s.events ∨ w.Carries e.1 := by
  cases h with
  | emit hw =>
    rcases Shared.events_emit he with he | rfl
    · exact .inl he
    · exact .inr (.loop (by rw [hw]; rfl))
  | pollEmit hw =>
    rcases Shared.events_emit he with he | rfl
    · exact .inl he
    · exact .inr (.poll (by rw [hw]; rfl))
  | bump | store => exact .inl he
  | receive | suppress | sample | close | wake | read | skip => exact .inl he

theorem events_subset_of_moves (h : Moves H s w a t v) : s.events ⊆ t.events := by
  cases h with
  | emit | pollEmit => exact fun e he => Shared.mem_events_emit he
  | bump | store => exact fun e he => he
  | receive | suppress | sample | close | wake | read | skip => exact fun e he => he

theorem recorded_of_moves (h : s.Recorded) (hmoves : Moves H s w a t v) : t.Recorded := by
  cases hmoves with
  | emit | pollEmit => exact h.emit
  | bump | store => exact h
  | receive | suppress | sample | close | wake | read | skip => exact h

theorem advance_le_of_moves (h : Moves H s w a t v) : s.advance ≤ t.advance := by
  cases h with
  | bump hw hnew =>
    rw [Shared.advance_setGsn]
    exact Nat.le_add_right _ _
  | store hw =>
    rw [Shared.advance_setGsn]
    exact Nat.le_add_right _ _
  | emit hw => rw [Shared.advance_emit]
  | pollEmit hw => rw [Shared.advance_emit]
  | receive | suppress | sample | close | wake | read | skip => exact Nat.le_refl _

/-! ## Positions -/

structure Reach (o : UInt16) (s : Shared) (w : Watch) : Prop where
  position : ahead o s.lastGsn = s.advance
  storing : Storing s w
  carried : ∀ {gsn}, w.Carries gsn → s.Reached o gsn
  events : ∀ e ∈ s.events, s.Reached o e.1

theorem reach_new (H : SleepyHandle) (o : UInt16) (deviceId : Arr 6)
    (pollIids : List (UInt64 × UInt64)) : Reach o (.new o) (.new H deviceId pollIids) where
  position := ahead_self o
  storing hw := by cases hw
  carried h := by
    cases h with
    | loop hadverts => cases hadverts
    | bump hchanged => cases hchanged
    | poll hpoll => cases hpoll
  events e he := by cases he

theorem Reach.lt_setGsn (h : Reach o s w) (hnew : Newer gsn s.lastGsn)
    (hmax : (s.setGsn gsn).advance < 2 ^ 15) :
    s.advance < ahead o gsn ∧ ahead o gsn = (s.setGsn gsn).advance := by
  rw [Shared.advance_setGsn] at hmax ⊢
  have hsum := ahead_add (a := o) (b := s.lastGsn) (c := gsn) (by rw [h.position]; omega)
  rw [h.position] at hsum
  have hpos := hnew.1
  omega

theorem Reach.of_moves (h : Reach o s w) (hmoves : Moves H s w a t v)
    (hmax : t.advance < 2 ^ 15) : Reach o t v := by
  have hle := advance_le_of_moves hmoves
  have hmono {gsn} (hr : s.Reached o gsn) : t.Reached o gsn := ⟨hr.1, hr.2.trans hle⟩
  refine ⟨?_, storing_of_moves h.storing hmoves, ?_, ?_⟩
  · rcases shared_of_moves h.storing hmoves with ⟨hlast, hadvance⟩ | ⟨gsn, hnew, rfl⟩
    · rw [hlast, hadvance]
      exact h.position
    · exact (h.lt_setGsn hnew hmax).2
  · intro gsn hv
    rcases carries_of_moves h.storing hmoves hv with hw | ⟨hnew, rfl⟩
    · exact hmono (h.carried hw)
    · obtain ⟨hlt, heq⟩ := h.lt_setGsn hnew hmax
      exact ⟨by omega, heq.le⟩
  · intro e he
    rcases events_of_moves hmoves he with he | hw
    · exact hmono (h.events e he)
    · exact hmono (h.carried hw)

/-! ## Whole runs of one watch -/

def alone (H : SleepyHandle) (p : Shared × Watch) (a : WatchAction) : Option (Shared × Watch) :=
  p.2.step H p.1 a

end Watch
end HapRust.Ble
