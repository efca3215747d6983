import HapRust.Ble.SleepyOnce
import HapRust.Crypto.Broadcast

/-! Where the events of a watch come from. What the loop over the advertisements sends has been
on the air in this run, and a handle that opens broadcasts with its key sends only what was
sealed under that key, for the device and the GSN of the event. -/

namespace HapRust.Ble
open Lib Crypto

theorem SleepyHandle.opens_of_decrypt {H : SleepyHandle} {start gsn : UInt16} {payload pt : Bytes}
    {id : Arr 6} (h : H.decrypt start payload id = some (gsn, pt)) :
    H.openBroadcast gsn payload id = some pt ∧ u16Le pt = gsn := by
  obtain ⟨g, -, hg⟩ := List.exists_of_findSome?_eq_some h
  obtain ⟨pt', hopen, hchecks⟩ := Option.bind_eq_some_iff.mp hg
  obtain ⟨⟨-, hnamed⟩, hpair⟩ := Option.ite_none_right_eq_some.mp hchecks
  cases hpair
  exact ⟨hopen, hnamed⟩

namespace Watch
section
variable (H : SleepyHandle) (deviceId : Arr 6) (actions : List WatchAction)

/-- There was an advertisement of the device with this payload. -/
def Arrived (payload : Bytes) : Prop :=
  ∃ mfg, .receive mfg ∈ actions ∧
    HapAdvert.parse mfg = some (.encryptedNotification deviceId payload)

def Opened (gsn : UInt16) (pt : Bytes) : Prop :=
  u16Le pt = gsn ∧ ∃ payload, Arrived deviceId actions payload ∧
    H.openBroadcast gsn payload deviceId = some pt

def FromBroadcast (gsn : UInt16) (event : CharacteristicEvent) : Prop :=
  ∃ pt, Opened H deviceId actions gsn pt ∧ event.aid = 1 ∧
    decoded H gsn pt = .emitting gsn event.iid event.value

def Founded : AdvertPhase → Prop
  | .sampling payload => Arrived deviceId actions payload
  | .storing _ gsn pt => Opened H deviceId actions gsn pt
  | .emitting gsn iid value => FromBroadcast H deviceId actions gsn ⟨1, iid, value⟩
  | .receiving | .comparing _ | .ended => True

structure Sourced (targets : List Target) (s : Shared) (w : Watch) : Prop where
  deviceId_eq : w.deviceId = deviceId
  targets_eq : w.targets = targets
  left : w.poll.left ⊆ targets
  loop : Founded H deviceId actions w.adverts
  events : ∀ e ∈ s.events, (∃ target ∈ targets, e.2.aid = target.aid ∧ e.2.iid = target.iid) ∨
    FromBroadcast H deviceId actions e.1 e.2

end

variable {H : SleepyHandle} {deviceId : Arr 6} {actions : List WatchAction} {targets : List Target}
  {s t : Shared} {w v : Watch} {a : WatchAction}

theorem founded_classify (hid : w.deviceId = deviceId) {mfg : Bytes}
    (hmfg : .receive mfg ∈ actions) : Founded H deviceId actions (w.classify mfg) := by
  unfold classify
  split
  · split_ifs <;> trivial
  · next hparse =>
    split_ifs with hsame
    · rw [hsame, hid] at hparse
      exact ⟨mfg, hmfg, hparse⟩
    · trivial
  · trivial

theorem founded_decrypted (hid : w.deviceId = deviceId) (last : UInt16) {payload : Bytes}
    (harrived : Arrived deviceId actions payload) :
    Founded H deviceId actions (w.decrypted H last payload) := by
  unfold decrypted
  split
  · next hdecrypt =>
    split_ifs
    · rw [hid] at hdecrypt
      obtain ⟨hopen, hnamed⟩ := SleepyHandle.opens_of_decrypt hdecrypt
      exact ⟨hnamed, payload, harrived, hopen⟩
    · trivial
  · trivial

theorem founded_decoded {gsn : UInt16} {pt : Bytes} (hopened : Opened H deviceId actions gsn pt) :
    Founded H deviceId actions (decoded H gsn pt) := by
  rcases decoded_cases H gsn pt with heq | ⟨iid, value, heq⟩
  · rw [heq]
    trivial
  · rw [heq]
    exact ⟨pt, hopened, rfl, heq⟩

theorem Sourced.of_moves (h : Sourced H deviceId actions targets s w) (ha : a ∈ actions)
    (hmoves : Moves H s w a t v) : Sourced H deviceId actions targets t v := by
  have hloop := h.loop
  have hleft := h.left
  cases hmoves with
  | receive mfg hw => exact { h with loop := founded_classify h.deviceId_eq ha }
  | bump | suppress | close => exact { h with loop := trivial }
  | sample hw =>
    rw [hw] at hloop
    exact { h with loop := founded_decrypted h.deviceId_eq _ hloop }
  | store hw =>
    rw [hw] at hloop
    exact { h with loop := founded_decoded hloop }
  | emit hw =>
    rw [hw] at hloop
    refine { h with loop := trivial, events := ?_ }
    intro e he
    rcases Shared.events_emit he with he | rfl
    · exact h.events e he
    · exact .inr hloop
  | wake hw hchanged => exact { h with left := fun target htarget => h.targets_eq ▸ htarget }
  | read raw value hw =>
    rw [hw] at hleft
    exact { h with left := hleft }
  | skip raw hw =>
    rw [hw] at hleft
    refine { h with left := ?_ }
    rw [left_goOn]
    exact List.subset_of_cons_subset hleft
  | pollEmit hw =>
    rw [hw] at hleft
    refine { h with left := ?_, events := ?_ }
    · rw [left_goOn]
      exact List.subset_of_cons_subset hleft
    · intro e he
      rcases Shared.events_emit he with he | rfl
      · exact h.events e he
      · exact .inl ⟨_, hleft (List.mem_cons_self ..), rfl, rfl⟩

theorem sourced_of_steps {initialGsn : UInt16} {pollIids : List (UInt64 × UInt64)}
    {q : Shared × Watch}
    (hq : steps (alone H) (.new initialGsn, .new H deviceId pollIids) actions = some q) :
    Sourced H deviceId actions (H.targets pollIids) q.1 q.2 := by
  refine steps_invariant_of (p := (· ∈ actions))
    (I := fun p : Shared × Watch => Sourced H deviceId actions (H.targets pollIids) p.1 p.2)
    (fun h ha hstep => h.of_moves ha (moves_of_step hstep)) (fun a ha => ha) ?_ hq
  exact ⟨rfl, rfl, List.nil_subset _, trivial, fun e he => by cases he⟩

end Watch

/-! ## Handles with a key -/

def SleepyHandle.ofKey (C : Components) (key : BroadcastKey)
    (chars : UInt64 → Option (String × CharFormat)) : SleepyHandle where
  chars := chars
  openBroadcast gsn payload advertisingId := (key.open C gsn payload advertisingId).toOption

variable {C : Components} {key : BroadcastKey} {chars : UInt64 → Option (String × CharFormat)}

theorem openBroadcast_ofKey {gsn : UInt16} {payload pt : Bytes} {id : Arr 6} :
    (SleepyHandle.ofKey C key chars).openBroadcast gsn payload id = some pt ↔
      payload = key.seal C gsn pt id := by
  rw [← open_eq_ok_iff]
  change (key.open C gsn payload id).toOption = some pt ↔ _
  cases key.open C gsn payload id with
  | error e => simp [Except.toOption]
  | ok pt' => simp [Except.toOption]

/-- In every run of a watch an event is of a characteristic that is polled, or it is the value
of a broadcast that arrived in this run and was sealed under the key, for the device and the GSN
of the event. -/
theorem polled_or_sealed {initialGsn : UInt16} {deviceId : Arr 6}
    {pollIids : List (UInt64 × UInt64)} {actions : List WatchAction} {q : Shared × Watch}
    (hq : steps (Watch.alone (.ofKey C key chars))
      (.new initialGsn, .new (.ofKey C key chars) deviceId pollIids) actions = some q)
    {e : UInt16 × CharacteristicEvent} (he : e ∈ q.1.events) :
    (∃ target ∈ (SleepyHandle.ofKey C key chars).targets pollIids,
      e.2.aid = target.aid ∧ e.2.iid = target.iid) ∨
    ∃ pt, Watch.Arrived deviceId actions (key.seal C e.1 pt deviceId) ∧ u16Le pt = e.1 ∧
      e.2.aid = 1 ∧
      Watch.decoded (.ofKey C key chars) e.1 pt = .emitting e.1 e.2.iid e.2.value := by
  rcases (Watch.sourced_of_steps hq).events e he with hpolled | ⟨pt, hopened, haid, hdecoded⟩
  · exact .inl hpolled
  · obtain ⟨hnamed, payload, harrived, hopen⟩ := hopened
    obtain rfl := openBroadcast_ofKey.mp hopen
    exact .inr ⟨pt, harrived, hnamed, haid, hdecoded⟩

def zeroComponents : Components := ⟨fun _ _ _ => 0, fun _ _ => constArr 16 0⟩

theorem polled_or_sealed_broadcast :
    let H := SleepyHandle.ofKey zeroComponents ⟨constArr 32 7⟩ Watch.sampleHandle.chars
    let actions : List WatchAction :=
      [.receive (Watch.broadcastAdvert 6 1 ++ List.replicate 4 0), .sample, .store, .emit]
    ∃ q, steps (Watch.alone H) (.new 5, .new H (constArr 6 9) []) actions = some q ∧
      ∃ e ∈ q.1.events, ∃ pt, Watch.decoded H e.1 pt = .emitting e.1 e.2.iid e.2.value := by
  intro H actions
  refine exists_of_view (·.1.events.length) 1 (by decide +kernel) ?_
  intro q hq hlength
  obtain ⟨e, hevents⟩ := List.length_eq_one_iff.mp hlength
  have he : e ∈ q.1.events := hevents ▸ List.mem_singleton_self e
  rcases polled_or_sealed hq he with ⟨target, htarget, -⟩ | ⟨pt, -, -, -, hdecoded⟩
  · cases htarget
  · exact ⟨e, he, pt, hdecoded⟩

end HapRust.Ble
