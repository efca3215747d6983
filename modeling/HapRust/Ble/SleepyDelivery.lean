import HapRust.Ble.SleepyOnce

/-! What becomes of a broadcast. One that is newer than the last GSN on arrival is delivered,
whatever the poll task does meanwhile. One that carries the last GSN itself leaves no trace: the
loop takes it for a repetition, although a regular advertisement may have moved the last GSN
before any value of it was delivered. -/

namespace HapRust.Ble
open Lib

/-- A broadcast that the accessory sealed under a GSN, of a characteristic that the handle
knows and with a value in its format. -/
structure AuthenticBroadcast (H : SleepyHandle) (deviceId : Arr 6) where
  mfg : Bytes
  payload : Bytes
  gsn : UInt16
  pt : Bytes
  format : CharFormat
  value : CharValue
  parsed : HapAdvert.parse mfg = some (.encryptedNotification deviceId payload)
  opens : H.openBroadcast gsn payload deviceId = some pt
  only : ∀ g, g ≠ gsn → H.openBroadcast g payload deviceId = none
  complete : 12 ≤ pt.length
  named : u16Le pt = gsn
  known : H.formats (broadcastIid pt) = some format
  decodes : decodeValue ((pt.drop 4).take 8) format = .ok value

namespace SleepyHandle

theorem mem_candidates {start gsn : UInt16} (h : ahead start gsn ≤ 100) :
    gsn ∈ candidates start := by
  have hgsn : gsn = start + UInt16.ofNat (ahead start gsn) := by
    rw [ahead, UInt16.ofNat_toNat, UInt16.add_comm, UInt16.sub_add_cancel]
  generalize ahead start gsn = d at h hgsn
  subst hgsn
  rcases d with _ | _ | d
  · rw [show start + UInt16.ofNat 0 = start from UInt16.add_zero start]
    exact .tail _ (.head _)
  · exact .head _
  · refine .tail _ (.tail _ (List.mem_map.mpr ⟨d + 2, ?_, rfl⟩))
    exact List.mem_range'_1.mpr ⟨by omega, by omega⟩

end SleepyHandle

namespace AuthenticBroadcast
variable {H : SleepyHandle} {deviceId : Arr 6} (b : AuthenticBroadcast H deviceId)

def key : UInt64 × UInt16 := (broadcastIid b.pt, b.gsn)

theorem tryGsn_eq (g : UInt16) :
    H.tryGsn b.payload deviceId g = if g = b.gsn then some (b.gsn, b.pt) else none := by
  unfold SleepyHandle.tryGsn
  split_ifs with hg
  · subst hg
    rw [b.opens, Option.bind_eq_bind, Option.bind_some, if_pos ⟨b.complete, b.named⟩]
  · rw [b.only g hg]
    rfl

theorem decrypt_eq {start : UInt16} (h : ahead start b.gsn ≤ 100) :
    H.decrypt start b.payload deviceId = some (b.gsn, b.pt) := by
  unfold SleepyHandle.decrypt
  have hsome : ((SleepyHandle.candidates start).findSome? (H.tryGsn b.payload deviceId)).isSome := by
    refine List.findSome?_isSome_iff.mpr ⟨b.gsn, SleepyHandle.mem_candidates h, ?_⟩
    rw [b.tryGsn_eq, if_pos rfl]
    rfl
  obtain ⟨found, hfound⟩ := Option.isSome_iff_exists.mp hsome
  obtain ⟨g, -, hg⟩ := List.exists_of_findSome?_eq_some hfound
  rw [b.tryGsn_eq] at hg
  rw [hfound, ← (Option.ite_none_right_eq_some.mp hg).2]

theorem classify_eq {w : Watch} (hw : w.deviceId = deviceId) :
    w.classify b.mfg = .sampling b.payload := by
  rw [Watch.classify, b.parsed]
  exact if_pos hw.symm

theorem newer_of_window {last : UInt16} (h : ahead last b.gsn ≤ 100) (hne : b.gsn ≠ last) :
    gsnIsNewer b.gsn last = true := by
  refine gsnIsNewer_iff.mpr ⟨?_, by omega⟩
  refine Nat.pos_of_ne_zero ?_
  intro hzero
  exact hne (eq_of_ahead_eq (hzero.trans (ahead_self last).symm))

theorem decrypted_eq {w : Watch} (hw : w.deviceId = deviceId) {last : UInt16}
    (h : ahead last b.gsn ≤ 100) :
    w.decrypted H last b.payload = if b.gsn = last then .receiving else .storing last b.gsn b.pt := by
  rw [Watch.decrypted, hw, b.decrypt_eq h]
  split_ifs with heq
  · have hold : gsnIsNewer b.gsn last = false := by
      rw [heq, gsnIsNewer, UInt16.sub_self]
      rfl
    simp only [hold, Bool.false_eq_true, if_false]
  · simp only [b.newer_of_window h heq, if_true]

theorem decoded_eq : Watch.decoded H b.gsn b.pt = .emitting b.gsn (broadcastIid b.pt) b.value := by
  rw [Watch.decoded, b.known]
  simp only [b.decodes]

end AuthenticBroadcast

namespace Watch
variable {H : SleepyHandle} {deviceId : Arr 6} {s t : Shared} {w v : Watch} {a : WatchAction}

theorem deviceId_of_moves (h : Moves H s w a t v) : v.deviceId = w.deviceId := by
  cases h <;> rfl

inductive Delivery (b : AuthenticBroadcast H deviceId) (last : UInt16) (s : Shared) (w : Watch) : Prop
  | sampling (hw : w.adverts = .sampling b.payload) (hlast : s.lastGsn = last)
  | storing (hw : w.adverts = .storing last b.gsn b.pt)
  | emitting (hw : w.adverts = .emitting b.gsn (broadcastIid b.pt) b.value)
  | delivered (h : b.key ∈ s.events.map eventKey)

section Loop
variable {b : AuthenticBroadcast H deviceId} {last : UInt16}

theorem Delivery.keep (h : Delivery b last s w) (hadverts : v.adverts = w.adverts)
    (hlast : t.lastGsn = s.lastGsn) (hevents : s.events ⊆ t.events) : Delivery b last t v := by
  cases h with
  | sampling hw hl => exact .sampling (hadverts.trans hw) (hlast.trans hl)
  | storing hw => exact .storing (hadverts.trans hw)
  | emitting hw => exact .emitting (hadverts.trans hw)
  | delivered h => exact .delivered (List.map_subset _ hevents h)

theorem Delivery.of_moves (hwindow : ahead last b.gsn ≤ 100) (hne : b.gsn ≠ last)
    (hid : w.deviceId = deviceId) (hrec : s.Recorded) (h : Delivery b last s w)
    (hmoves : Moves H s w a t v) : Delivery b last t v := by
  by_cases hdone : b.key ∈ s.events.map eventKey
  · exact .delivered (List.map_subset _ (events_subset_of_moves hmoves) hdone)
  have hphase : w.adverts = .sampling b.payload ∧ s.lastGsn = last ∨
      w.adverts = .storing last b.gsn b.pt ∨
      w.adverts = .emitting b.gsn (broadcastIid b.pt) b.value := by
    cases h with
    | sampling hw hlast => exact .inl ⟨hw, hlast⟩
    | storing hw => exact .inr (.inl hw)
    | emitting hw => exact .inr (.inr hw)
    | delivered h => exact absurd h hdone
  cases hmoves with
  | receive mfg hw => simp [hw] at hphase
  | bump hw => simp [hw] at hphase
  | suppress hw => simp [hw] at hphase
  | close hw => simp [hw] at hphase
  | sample hw =>
    simp only [hw, AdvertPhase.sampling.injEq, reduceCtorEq, or_false] at hphase
    obtain ⟨rfl, hlast⟩ := hphase
    refine .storing ?_
    rw [hlast, b.decrypted_eq hid hwindow, if_neg hne]
  | store hw =>
    simp only [hw, AdvertPhase.storing.injEq, reduceCtorEq, false_and, or_false, false_or] at hphase
    obtain ⟨rfl, rfl, rfl⟩ := hphase
    exact .emitting b.decoded_eq
  | emit hw =>
    simp only [hw, AdvertPhase.emitting.injEq, reduceCtorEq, false_and, false_or] at hphase
    obtain ⟨rfl, rfl, rfl⟩ := hphase
    exact .delivered hrec.key_mem_emit
  | pollEmit hw =>
    exact h.keep rfl (Shared.emit_cases _ _ _).1 (fun e he => Shared.mem_events_emit he)
  | wake | read | skip => exact h.keep rfl rfl (fun e he => he)

theorem Delivery.finish (hwindow : ahead last b.gsn ≤ 100) (hne : b.gsn ≠ last)
    (hid : w.deviceId = deviceId) (hrec : s.Recorded) (h : Delivery b last s w) :
    ∃ more q, more <:+ [WatchAction.sample, .store, .emit] ∧
      steps (alone H) (s, w) more = some q ∧ b.key ∈ q.1.events.map eventKey := by
  cases h with
  | sampling hw hlast =>
    have hnew : w.decrypted H s.lastGsn b.payload = .storing last b.gsn b.pt := by
      rw [hlast, b.decrypted_eq hid hwindow, if_neg hne]
    refine ⟨_, ((s.setGsn b.gsn).emit b.gsn ⟨1, broadcastIid b.pt, b.value⟩,
      { w with adverts := .receiving }), List.suffix_refl _, ?_, ?_⟩
    · simp [steps, alone, step, hw, hnew, b.decoded_eq]
    · exact Shared.Recorded.key_mem_emit (s := s.setGsn b.gsn) hrec
  | storing hw =>
    refine ⟨[.store, .emit], ((s.setGsn b.gsn).emit b.gsn ⟨1, broadcastIid b.pt, b.value⟩,
      { w with adverts := .receiving }), List.suffix_cons .., ?_, ?_⟩
    · simp [steps, alone, step, hw, b.decoded_eq]
    · exact Shared.Recorded.key_mem_emit (s := s.setGsn b.gsn) hrec
  | emitting hw =>
    refine ⟨[.emit], (s.emit b.gsn ⟨1, broadcastIid b.pt, b.value⟩,
      { w with adverts := .receiving }), ⟨[.sample, .store], rfl⟩, ?_, hrec.key_mem_emit⟩
    simp [steps, alone, step, hw]
  | delivered h => exact ⟨[], (s, w), List.nil_suffix, rfl, h⟩

end Loop

def Good (deviceId : Arr 6) (p : Shared × Watch) : Prop := p.1.Recorded ∧ p.2.deviceId = deviceId

theorem good_of_moves (h : Good deviceId (s, w)) (hmoves : Moves H s w a t v) :
    Good deviceId (t, v) :=
  ⟨recorded_of_moves h.1 hmoves, (deviceId_of_moves hmoves).trans h.2⟩

theorem good_of_run {initialGsn : UInt16} {pollIids : List (UInt64 × UInt64)}
    {actions : List WatchAction} {p : Shared × Watch}
    (h : steps (alone H) (.new initialGsn, .new H deviceId pollIids) actions = some p) :
    Good deviceId p :=
  steps_invariant (fun hgood hstep => good_of_moves hgood (moves_of_step hstep)) actions
    ⟨fun iid gsn he => (by cases he), rfl⟩ h

theorem delivery_of_run {b : AuthenticBroadcast H deviceId} {last : UInt16}
    (hwindow : ahead last b.gsn ≤ 100) (hne : b.gsn ≠ last) {p q : Shared × Watch}
    (hgood : Good deviceId p) (hp : Delivery b last p.1 p.2) {actions : List WatchAction}
    (hrun : steps (alone H) p actions = some q) : Good deviceId q ∧ Delivery b last q.1 q.2 := by
  refine steps_invariant
    (I := fun p : Shared × Watch => Good deviceId p ∧ Delivery b last p.1 p.2) ?_ actions
    ⟨hgood, hp⟩ hrun
  rintro ⟨s, w⟩ a ⟨t, v⟩ ⟨hgood, hdelivery⟩ hstep
  have hmoves := moves_of_step hstep
  exact ⟨good_of_moves hgood hmoves, hdelivery.of_moves hwindow hne hgood.2 hgood.1 hmoves⟩

theorem mem_events_of_run {b : AuthenticBroadcast H deviceId} {p q : Shared × Watch}
    (hp : b.key ∈ p.1.events.map eventKey) {actions : List WatchAction}
    (hrun : steps (alone H) p actions = some q) : b.key ∈ q.1.events.map eventKey := by
  refine steps_invariant (I := fun p : Shared × Watch => b.key ∈ p.1.events.map eventKey) ?_
    actions hp hrun
  intro p a q hmem hstep
  exact List.map_subset _ (events_subset_of_moves (moves_of_step hstep)) hmem

/-- A broadcast within the window ahead of the last GSN arrives. If it does not carry the last
GSN itself, or there has been an event for it already, then whatever is received and polled from
then on, it has been delivered when the loop is done with it, and three steps of the loop are
enough for that. If it carries the last GSN, the loop is back where it was, and nothing of the
broadcast is left. -/
theorem broadcast_delivered_of_newer (H : SleepyHandle) (initialGsn : UInt16) (deviceId : Arr 6)
    (pollIids : List (UInt64 × UInt64)) (b : AuthenticBroadcast H deviceId)
    {before : List WatchAction} {p : Shared × Watch}
    (hp : steps (alone H) (.new initialGsn, .new H deviceId pollIids) before = some p)
    (harrival : p.2.adverts = .receiving) (hwindow : ahead p.1.lastGsn b.gsn ≤ 100) :
    (b.gsn ≠ p.1.lastGsn ∨ b.key ∈ p.1.events.map eventKey →
      ∀ after q, steps (alone H) p (.receive b.mfg :: after) = some q →
      (q.2.adverts = .receiving ∨ q.2.adverts = .ended → b.key ∈ q.1.events.map eventKey) ∧
        ∃ more r, more <:+ [WatchAction.sample, .store, .emit] ∧
          steps (alone H) q more = some r ∧ b.key ∈ r.1.events.map eventKey) ∧
      (b.gsn = p.1.lastGsn → steps (alone H) p [.receive b.mfg, .sample] = some p) := by
  obtain ⟨hrec, hid⟩ := good_of_run hp
  obtain ⟨s, w⟩ := p
  dsimp only at harrival hwindow hrec hid ⊢
  have hreceive : alone H (s, w) (.receive b.mfg) =
      some (s, { w with adverts := .sampling b.payload }) := by
    simp only [alone, step, harrival, b.classify_eq hid]
  refine ⟨?_, ?_⟩
  · intro hcase after q hq
    rw [steps_cons hreceive] at hq
    by_cases hseen : b.key ∈ s.events.map eventKey
    · have hkept := mem_events_of_run hseen hq
      exact ⟨fun _ => hkept, [], q, List.nil_suffix, rfl, hkept⟩
    have hne : b.gsn ≠ s.lastGsn := hcase.resolve_right hseen
    obtain ⟨⟨hrec', hid'⟩, hdelivery⟩ := delivery_of_run hwindow hne
      (p := (s, { w with adverts := .sampling b.payload })) ⟨hrec, hid⟩ (.sampling rfl rfl) hq
    refine ⟨?_, hdelivery.finish hwindow hne hid' hrec'⟩
    intro hdone
    cases hdelivery with
    | sampling hw => simp [hw] at hdone
    | storing hw => simp [hw] at hdone
    | emitting hw => simp [hw] at hdone
    | delivered h => exact h
  · intro heq
    have hsample : ({ w with adverts := .sampling b.payload } : Watch).decrypted H s.lastGsn
        b.payload = w.adverts := by
      rw [b.decrypted_eq (w := { w with adverts := .sampling b.payload }) hid hwindow, if_pos heq,
        harrival]
    have hdropped : alone H (s, { w with adverts := .sampling b.payload }) .sample = some (s, w) := by
      simp only [alone, step, hsample]
    rw [steps_cons hreceive, steps_cons hdropped]
    rfl

def sampleBroadcast : AuthenticBroadcast sampleHandle (constArr 6 9) where
  mfg := broadcastAdvert 7 1
  payload := [7, 0, 11, 0, 1, 0, 0, 0, 0, 0, 0, 0]
  gsn := 7
  pt := [7, 0, 11, 0, 1, 0, 0, 0, 0, 0, 0, 0]
  format := .bool
  value := .bool true
  parsed := by decide
  opens := by decide
  only g hg := if_neg fun h => hg (h.symm.trans (by decide))
  complete := by decide
  named := by decide
  known := by decide
  decodes := rfl

theorem broadcast_delivered_of_newer_duringPoll :
    ∃ p q, steps (alone sampleHandle) (.new 5, .new sampleHandle (constArr 6 9) [(1, 11)])
        [.receive (regularAdvert 6), .compare] = some p ∧
      steps (alone sampleHandle) p (.receive sampleBroadcast.mfg ::
        [.wake, .sample, .store, .read none, .emit]) = some q ∧
      sampleBroadcast.key ∈ q.1.events.map eventKey := by
  have hdelivered := (@broadcast_delivered_of_newer sampleHandle 5 (constArr 6 9) [(1, 11)]
    sampleBroadcast [.receive (regularAdvert 6), .compare] _ rfl rfl (by decide)).1 (.inl (by decide))
  refine ⟨_, _, rfl, rfl, (hdelivered [.wake, .sample, .store, .read none, .emit] _ rfl).1 ?_⟩
  exact .inl rfl

/-- No characteristic is polled, and a regular advertisement with GSN 7 comes first. The
broadcast is newer than the GSN that the watch started with and not older than the last one, but
there is no event, and nothing is left to be done but to wait for advertisements. -/
theorem broadcast_lost :
    ∃ p q, steps (alone sampleHandle) (.new 5, .new sampleHandle (constArr 6 9) [])
        [.receive (regularAdvert 7), .compare] = some p ∧
      steps (alone sampleHandle) p [.receive sampleBroadcast.mfg, .sample] = some q ∧
      Newer sampleBroadcast.gsn 5 ∧ ahead p.1.lastGsn sampleBroadcast.gsn ≤ 100 ∧
      Later p.1.lastGsn sampleBroadcast.gsn ∧ q.1.events.map eventKey = [] ∧
      ∀ a r, alone sampleHandle q a = some r → (∃ mfg, a = .receive mfg) ∨ a = .close := by
  refine ⟨_, _, rfl, rfl, by decide, by decide, by decide, rfl, ?_⟩
  intro a r h
  cases a with
  | receive mfg => exact .inl ⟨mfg, rfl⟩
  | close => exact .inr rfl
  | compare | sample | store | emit | wake | read | pollEmit => cases h

end Watch
end HapRust.Ble
