import HapRust.ThreadDut.Events

/-! Every event reaches a stream. Left to themselves, the watcher, the post in
progress and the caller bring all that has arrived to the current stream. -/

namespace HapRust.ThreadDut

def EventAction.watches : EventAction → Bool
  | .controller .watch => true
  | _ => false

def EventAction.takes : EventAction → Bool
  | .controller (.take _) => true
  | _ => false

namespace EventSystem
open Lib Crypto Thread

variable {P : Primitives} {s s' : EventSystem} {sent opened : Nat}

def Draining (_ : EventSystem) : EventAction → Prop
  | .controller (.take k) | .controller (.resume k) | .controller (.send k) |
    .controller (.next k) => k = none
  | .controller (.reply _) | .controller .cancel => True
  | _ => False

instance (s : EventSystem) : (a : EventAction) → Decidable (s.Draining a)
  | .controller (.take k) | .controller (.resume k) | .controller (.send k) |
    .controller (.next k) => inferInstanceAs (Decidable (k = none))
  | .controller (.reply _) | .controller .cancel => isTrue trivial
  | .controller .watch | .controller (.dropStream _) | .controller (.stop _) |
    .controller (.post _) | .push _ | .request _ | .deliver _ => isFalse id

theorem orderly_of_draining [CoapLite] {a : EventAction} (h : s.Draining a) : s.Orderly a := by
  cases a with
  | controller act =>
    cases act with
    | take k => exact h
    | watch | dropStream => exact h.elim
    | _ => trivial
  | _ => exact h.elim

def Drained (s : EventSystem) : Prop :=
  ∃ w, s.controller.current = some w ∧ w.phase = .waiting ∧ w.channel = [] ∧
    s.controller.udp.events = []

def backlog (s : EventSystem) : Nat :=
  4 * s.controller.udp.events.length +
    (s.controller.current.elim 0 fun w => w.phase.weight + w.channel.length) +
    s.controller.locked.toNat

theorem exists_draining [CoapLite] (h : s.Inv P sent opened) (hcurrent : s.controller.current.isSome)
    (hdrained : ¬ s.Drained) : ∃ a s', restrict (step P) Draining s a = some s' := by
  have henabled : ∀ act, s.Draining (.controller act) → (s.controller.step P act).isSome →
      ∃ a s', restrict (step P) Draining s a = some s' := by
    intro act hdraining hsome
    obtain ⟨c, hc⟩ := Option.isSome_iff_exists.mp hsome
    exact ⟨.controller act, _, restrict_eq_some.mpr ⟨hdraining, by rw [step, hc]; rfl⟩⟩
  obtain ⟨⟨phase, dropped, channel, yielded⟩, hw⟩ := Option.isSome_iff_exists.mp hcurrent
  have hhand := h.hand
  rw [hw, Option.map_some] at hhand
  obtain ⟨hrunning, rfl⟩ := hhand.running
  cases hlocked : s.controller.locked with
  | true =>
    refine henabled .cancel trivial ?_
    rw [ThreadAccessory.step, hlocked]
    rfl
  | false =>
    cases channel with
    | cons event rest =>
      refine henabled (.next none) rfl ?_
      rw [ThreadAccessory.step, ThreadAccessory.watcher, hw]
      rfl
    | nil =>
      cases phase with
      | waiting =>
        cases hevents : s.controller.udp.events with
        | nil => exact absurd ⟨_, hw, rfl, rfl, hevents⟩ hdrained
        | cons encrypted rest =>
          refine henabled (.take none) rfl ?_
          simp only [ThreadAccessory.step, ThreadAccessory.take, ThreadAccessory.watcher, hw, hevents,
            if_true, Option.isSome_some]
      | taken n encrypted =>
        refine henabled (.resume none) rfl ?_
        simp only [ThreadAccessory.step, ThreadAccessory.resume, ThreadAccessory.watcher, hw, hlocked,
          Bool.false_eq_true, if_false, Option.isSome_some]
      | sending n event rest =>
        refine henabled (.send none) rfl ?_
        rw [ThreadAccessory.step, ThreadAccessory.watcher, hw]
        rfl
      | stopped => exact absurd rfl hrunning

structure Shrinks (s : EventSystem) (c : ThreadAccessory) : Prop where
  current : c.current.isSome
  replaced : c.replaced = s.controller.replaced
  backlog : backlog { s with controller := c } < s.backlog

section
variable {c : ThreadAccessory}

theorem shrinks_unlock (hcurrent : s.controller.current.isSome) (hlocked : s.controller.locked = true)
    (session : CoapSession) : s.Shrinks { s.controller with session := session, locked := false } := by
  refine ⟨hcurrent, rfl, ?_⟩
  simp only [EventSystem.backlog, hlocked, Bool.toNat_true, Bool.toNat_false]
  omega

theorem shrinks_next (hc : s.controller.step P (.next none) = some c) : s.Shrinks c := by
  obtain ⟨w, hw, hset⟩ := Option.bind_eq_some_iff.mp hc
  obtain ⟨w', hnext, rfl⟩ := Option.map_eq_some_iff.mp hset
  have hcurrent : s.controller.current = some w := hw
  obtain ⟨hphase, -, -, hlen⟩ := Watcher.of_next hnext
  refine ⟨rfl, rfl, ?_⟩
  simp only [EventSystem.backlog, ThreadAccessory.setWatcher, hcurrent, Option.elim_some, hphase]
  omega

theorem Inv.shrinks_send (h : s.Inv P sent opened) (hc : s.controller.step P (.send none) = some c) :
    s.Shrinks c := by
  obtain ⟨w, hw, hset⟩ := Option.bind_eq_some_iff.mp hc
  obtain ⟨w', hsend, rfl⟩ := Option.map_eq_some_iff.mp hset
  have hcurrent : s.controller.current = some w := hw
  have hhand := h.hand
  rw [hcurrent, Option.map_some] at hhand
  obtain ⟨n, event, rest, hphase, rfl⟩ := Watcher.of_send hsend hhand.running.2
  rw [hphase] at hhand
  obtain ⟨-, -, -, -, rfl, -⟩ := hhand.of_sending
  refine ⟨rfl, rfl, ?_⟩
  simp only [EventSystem.backlog, ThreadAccessory.setWatcher, hcurrent, Option.elim_some, hphase,
    Watcher.forward, WatchPhase.weight, List.length_append, List.length_singleton]
  omega

theorem shrinks_take (hc : s.controller.take P none = some c) : s.Shrinks c := by
  obtain ⟨w, encrypted, rest, hcurrent, hwaiting, hevents, hcases⟩ := ThreadAccessory.take_cases hc
  have htaken : ∃ session phase, phase.weight ≤ 3 ∧ c =
      { s.controller.dequeue rest with session := session, current := some { w with phase := phase } } := by
    rcases hcases with ⟨-, rfl⟩ | ⟨-, rfl⟩
    · exact ⟨s.controller.session, .taken s.controller.taken encrypted, Nat.le_refl 3, rfl⟩
    · obtain ⟨session, phase, hweight, heq⟩ := ThreadAccessory.openEvent_cases (P := P)
        (s.controller.dequeue rest) w s.controller.taken encrypted
      exact ⟨session, phase, Nat.le_succ_of_le hweight, heq⟩
  obtain ⟨session, phase, hweight, rfl⟩ := htaken
  refine ⟨rfl, rfl, ?_⟩
  simp only [EventSystem.backlog, ThreadAccessory.dequeue, hcurrent, hevents, Option.elim_some,
    List.length_cons]
  omega

theorem shrinks_resume (hc : s.controller.resume P none = some c) : s.Shrinks c := by
  obtain ⟨w, n, encrypted, hcurrent, hphase, rfl⟩ := ThreadAccessory.resume_cases hc
  obtain ⟨session, phase, hweight, heq⟩ := ThreadAccessory.openEvent_cases (P := P) s.controller w n
    encrypted
  rw [heq]
  have hheld : w.phase.weight = 3 := by rw [hphase]; rfl
  refine ⟨rfl, rfl, ?_⟩
  simp only [EventSystem.backlog, hcurrent, Option.elim_some]
  omega

theorem shrinks_of_draining [CoapLite] (h : s.Inv P sent opened) (hcurrent : s.controller.current.isSome)
    {a : EventAction} (hdraining : s.Draining a) (hstep : s.step P a = some s') :
    ∃ c, s' = { s with controller := c } ∧ s.Shrinks c := by
  cases a with
  | push | request | deliver => exact hdraining.elim
  | controller act =>
    obtain ⟨c, hc, rfl⟩ := Option.map_eq_some_iff.mp hstep
    refine ⟨c, rfl, ?_⟩
    cases act with
    | watch | dropStream | stop | post => exact hdraining.elim
    | reply r =>
      obtain ⟨hlocked, rfl⟩ := guarded_eq_some.mp hc
      exact shrinks_unlock hcurrent hlocked _
    | cancel =>
      obtain ⟨hlocked, rfl⟩ := guarded_eq_some.mp hc
      exact shrinks_unlock hcurrent hlocked s.controller.session
    | next k =>
      obtain rfl := hdraining
      exact shrinks_next hc
    | send k =>
      obtain rfl := hdraining
      exact h.shrinks_send hc
    | take k =>
      obtain rfl := hdraining
      exact shrinks_take hc
    | resume k =>
      obtain rfl := hdraining
      exact shrinks_resume hc

end

structure Alike (s t : EventSystem) : Prop where
  pushed : t.pushed = s.pushed
  arrivedAt : t.arrivedAt = s.arrivedAt
  replaced : t.controller.replaced.length = s.controller.replaced.length

theorem ends_drained [CoapLite] (hA : P.chacha20Poly1305.Inverts) (h : s.Inv P sent opened)
    (hcurrent : s.controller.current.isSome) :
    Ends (restrict (step P) Draining)
      (fun t => t.Drained ∧ s.Alike t ∧ ∃ sent opened, t.Inv P sent opened) s := by
  by_cases hdrained : s.Drained
  · exact .stop ⟨hdrained, ⟨rfl, rfl, rfl⟩, sent, opened, h⟩
  refine Ends.of_measure (A := fun t => ¬ t.Drained ∧ t.controller.current.isSome ∧ s.Alike t ∧
    ∃ sent opened, t.Inv P sent opened) backlog ?_ ?_ ⟨hdrained, hcurrent, ⟨rfl, rfl, rfl⟩, sent, opened, h⟩
  · rintro t ⟨hdrained, hcurrent, -, sent, opened, h⟩
    exact exists_draining h hcurrent hdrained
  · rintro t a t' ⟨-, hcurrent, halike, sent, opened, h⟩ hs
    obtain ⟨hdraining, hstep⟩ := restrict_eq_some.mp hs
    have hinv := inv_step hA h (orderly_of_draining hdraining) hstep
    obtain ⟨c, rfl, hcurrent', hreplaced, hlt⟩ := shrinks_of_draining h hcurrent hdraining hstep
    have halike' : s.Alike { t with controller := c } :=
      ⟨halike.pushed, halike.arrivedAt, (congrArg List.length hreplaced).trans halike.replaced⟩
    by_cases hdrained' : Drained { t with controller := c }
    · exact .inr (.stop ⟨hdrained', halike', hinv⟩)
    · exact .inl ⟨⟨hdrained', hcurrent', halike', hinv⟩, hlt⟩

theorem Inv.streams_of_drained (h : s.Inv P sent opened) (hdrained : s.Drained) :
    s.controller.streams.flatten = numbered (s.pushed.take s.arrivedAt.length) := by
  obtain ⟨w, hcurrent, hwaiting, -, hevents⟩ := hdrained
  have hhand := h.hand
  rw [hcurrent, Option.map_some, hwaiting] at hhand
  obtain ⟨rfl, -, -⟩ := hhand.of_waiting
  have hqueue := congrArg List.length h.queue
  rw [hevents, List.length_map, List.length_drop, List.length_take, Nat.min_eq_left h.received] at hqueue
  have htaken := h.taken
  have hall : s.controller.taken = s.arrivedAt.length := by
    simp only [List.length_nil] at hqueue
    omega
  rw [h.streams, hall]

/-! ## One stream -/

/-- The stream is open, has yielded the first of the events that have arrived, in order and each
once, and will yield them all. -/
def Yields [CoapLite] (P : Primitives) (s : EventSystem) : Prop :=
  (∃ w, s.controller.current = some w ∧ w.phase ≠ .stopped ∧
    w.yielded <+: numbered (s.pushed.take s.arrivedAt.length)) ∧
  Ends (restrict (step P) Draining) (fun t => ∃ w, t.controller.current = some w ∧ w.phase ≠ .stopped ∧
    w.yielded = numbered (s.pushed.take s.arrivedAt.length)) s

/-- Every PUT is received once, in a datagram that fits, and the stream is neither dropped nor
replaced. -/
def Once [CoapLite] (s : EventSystem) (a : EventAction) : Prop := s.Orderly a ∧ a.watches = false

instance [CoapLite] (s : EventSystem) (a : EventAction) : Decidable (s.Once a) :=
  inferInstanceAs (Decidable (_ ∧ _))

theorem watchers_of_step [CoapLite] {a : EventAction} (h : s.step P a = some s') :
    (∃ act, a = .controller act ∧ s.controller.step P act = some s'.controller) ∨
      s'.controller.current = s.controller.current ∧ s'.controller.replaced = s.controller.replaced := by
  cases a with
  | push event =>
    simp only [step] at h
    split at h <;> cases h <;> exact .inr ⟨rfl, rfl⟩
  | request payload =>
    cases h
    exact .inr ⟨rfl, rfl⟩
  | deliver i =>
    rw [step] at h
    split_ifs at h
    obtain ⟨x, -, rfl⟩ := Option.map_eq_some_iff.mp h
    exact .inr ⟨rfl, rfl⟩
  | controller act =>
    obtain ⟨c, hc, rfl⟩ := Option.map_eq_some_iff.mp h
    exact .inl ⟨act, rfl, hc⟩

structure Sole (P : Primitives) (s : EventSystem) : Prop where
  current : s.controller.current.isSome
  replaced : s.controller.replaced = []
  inv : ∃ sent opened, s.Inv P sent opened

theorem sole_step [CoapLite] (hA : P.chacha20Poly1305.Inverts) {a : EventAction} (h : s.Sole P)
    (hs : restrict (step P) Once s a = some s') : s'.Sole P := by
  obtain ⟨⟨horderly, hwatches⟩, hstep⟩ := restrict_eq_some.mp hs
  obtain ⟨sent, opened, hinv⟩ := h.inv
  suffices hsole : s'.controller.current.isSome ∧ s'.controller.replaced = [] from
    ⟨hsole.1, hsole.2, inv_step hA hinv horderly hstep⟩
  rcases watchers_of_step hstep with ⟨act, rfl, hc⟩ | ⟨hcurrent, hreplaced⟩
  · rcases ThreadAccessory.same_or_moves hinv.idle horderly hc with hsame | hmoves
    · have hcurrent := congrArg Option.isSome hsame.current
      rw [Option.isSome_map, Option.isSome_map] at hcurrent
      have hcount := hsame.count
      rw [h.replaced] at hcount
      exact ⟨hcurrent.trans h.current, List.eq_nil_of_length_eq_zero hcount⟩
    · obtain ⟨hcurrent, hreplaced⟩ := hmoves.keeps fun hact => by
        rw [hact] at hwatches
        cases hwatches
      exact ⟨hcurrent, hreplaced.trans h.replaced⟩
  · exact ⟨hcurrent ▸ h.current, hreplaced.trans h.replaced⟩

theorem Sole.stream (h : s.Sole P) {w : Watcher} (hcurrent : s.controller.current = some w) :
    s.controller.streams.flatten = w.yielded ++ w.channel := by
  simp only [ThreadAccessory.streams, h.replaced, hcurrent, Option.map_some, Option.toList_some,
    List.map_nil, List.nil_append, List.flatten_singleton, Watcher.stream]

theorem Sole.yields [CoapLite] (hA : P.chacha20Poly1305.Inverts) (h : s.Sole P) : s.Yields P := by
  obtain ⟨sent, opened, hinv⟩ := h.inv
  obtain ⟨w, hcurrent⟩ := Option.isSome_iff_exists.mp h.current
  have hhand := hinv.hand
  rw [hcurrent, Option.map_some] at hhand
  refine ⟨⟨w, hcurrent, hhand.running.1, ?_⟩, (ends_drained hA hinv h.current).mono ?_⟩
  · have hstream := (h.stream hcurrent).symm.trans hinv.streams
    rw [numbered_take] at hstream ⊢
    exact (List.prefix_append_of_prefix (List.prefix_refl _)).trans
      (hstream ▸ List.take_prefix_take_left (hhand.sent_le.trans hinv.taken))
  · rintro t ⟨hdrained, halike, sent, opened, ht⟩
    have hflat := ht.streams_of_drained hdrained
    obtain ⟨w, hcurrent, hwaiting, hchannel, -⟩ := hdrained
    have hsole : t.Sole P := ⟨by rw [hcurrent]; rfl, ?_, sent, opened, ht⟩
    · rw [hsole.stream hcurrent, hchannel, List.append_nil, halike.pushed, halike.arrivedAt] at hflat
      exact ⟨w, hcurrent, by rw [hwaiting]; nofun, hflat⟩
    · have hcount := halike.replaced
      rw [h.replaced] at hcount
      exact List.eq_nil_of_length_eq_zero hcount

/-- In every run in which each PUT is received once, the stream yields each event once, in order,
and stays open. -/
theorem yields_of_once [CoapLite] (hA : P.chacha20Poly1305.Inverts) {s₀ : EventSystem} (hfresh : s₀.Fresh)
    (hwatch : s₀.controller.current = some .new) {actions : List EventAction}
    (hrun : steps (restrict (step P) Once) s₀ actions = some s) : s.Yields P :=
  (steps_invariant (I := Sole P) (sole_step hA) actions
    ⟨by rw [hwatch]; rfl, hfresh.replaced, 0, 0, hfresh.inv⟩ hrun).yields hA

def connected : EventSystem :=
  .start (.new .connect sampleSession)
    ⟨{ ReferenceAccessory.new "accessory" (constArr 32 9) none with
        session := some (.new (constArr 32 1) (constArr 32 2) (constArr 32 3))
        subscriptions := [9] }, 1, false, none, none⟩

def watching : EventSystem :=
  { connected with controller := { connected.controller with current := some .new } }

theorem connected_fresh : connected.Fresh :=
  ⟨⟨_, rfl, rfl, rfl⟩, rfl, rfl, rfl, .inl rfl, rfl, rfl, rfl⟩

theorem watching_fresh : watching.Fresh :=
  ⟨⟨_, rfl, rfl, rfl⟩, rfl, rfl, rfl, .inr rfl, rfl, rfl, rfl⟩

def twoEventsRun : List EventAction :=
  [.push (9, [1]), .push (9, [0]), .deliver 0, .controller (.post (readRequest [9])),
    .controller (.take none), .deliver 1, .controller (.reply (sealedReply readPayload)),
    .controller (.resume none), .controller (.send none), .controller (.next none),
    .controller (.take none), .controller (.send none), .controller (.next none)]

section
attribute [local instance] coapLite

theorem yields_of_once_two :
    ∃ s, steps (restrict (step plainPrimitives) Once) watching twoEventsRun = some s ∧
      s.controller.current = some ⟨.waiting, false, [], [(0, 9, [1]), (1, 9, [0])]⟩ ∧
      s.Yields plainPrimitives := by
  refine exists_of_view (·.controller.current)
    (some ⟨.waiting, false, [], [(0, 9, [1]), (1, 9, [0])]⟩) (by decide +kernel) ?_
  intro s hs hcurrent
  exact ⟨hcurrent, yields_of_once plainPrimitives_honest.aead watching_fresh rfl hs⟩

def retransmittedRun : List EventAction :=
  [.push (9, [1]), .deliver 0, .deliver 0, .controller (.take none), .controller (.send none),
    .controller (.next none), .controller (.take none)]

theorem stream_closed :
    ∃ s, steps (step plainPrimitives) watching retransmittedRun = some s ∧
      s.controller.current = some ⟨.stopped, false, [], [(0, 9, [1])]⟩ ∧ ¬ s.Yields plainPrimitives := by
  refine exists_of_view (·.controller.current) (some ⟨.stopped, false, [], [(0, 9, [1])]⟩)
    (by decide +kernel) ?_
  intro s hs hcurrent
  refine ⟨hcurrent, ?_⟩
  rintro ⟨⟨w, hw, hopen, -⟩, -⟩
  cases hcurrent.symm.trans hw
  exact hopen rfl

end

/-! ## Watchers that replace each other -/

/-- The counter counts the events taken off the queue. What has been sent to the streams are the
first of the events, in order and each once, and to streams that were current when or after they
arrived; and there all that has arrived gets to, if there is a watcher. -/
structure Delivers [CoapLite] (P : Primitives) (s : EventSystem) : Prop where
  counter : s.controller.session.eventCtr = UInt64.ofNat s.controller.taken
  inOrder : ∃ sent, s.controller.taken ≤ sent + 1 ∧ sent ≤ s.controller.taken ∧
    s.controller.streams.flatten = numbered (s.pushed.take sent)
  placed : Placed s.controller.streams s.arrivedAt
  delivered : s.controller.current.isSome → Ends (restrict (step P) Draining)
    (fun t => t.controller.streams.flatten = numbered (s.pushed.take s.arrivedAt.length) ∧
      Placed t.controller.streams s.arrivedAt) s

/-- Every PUT is received once, in a datagram that fits; an event is only taken off the queue by
the current watcher, and while no post holds the session; a watcher is not replaced before it has
sent the event it has taken, and its stream is not dropped before. -/
def Undisturbed [CoapLite] (s : EventSystem) (a : EventAction) : Prop :=
  s.Orderly a ∧ (a.takes = true → s.controller.locked = false)

instance [CoapLite] (s : EventSystem) (a : EventAction) : Decidable (s.Undisturbed a) :=
  inferInstanceAs (Decidable (_ ∧ _))

structure Unheld (P : Primitives) (s : EventSystem) : Prop where
  current : ∀ w, s.controller.current = some w → w.phase.weight ≤ 2
  inv : ∃ sent opened, s.Inv P sent opened

theorem unheld_step [CoapLite] (hA : P.chacha20Poly1305.Inverts) {a : EventAction} (h : s.Unheld P)
    (hs : restrict (step P) Undisturbed s a = some s') : s'.Unheld P := by
  obtain ⟨⟨horderly, hfree⟩, hstep⟩ := restrict_eq_some.mp hs
  obtain ⟨sent, opened, hinv⟩ := h.inv
  refine ⟨?_, inv_step hA hinv horderly hstep⟩
  rcases watchers_of_step hstep with ⟨act, rfl, hc⟩ | ⟨hcurrent, -⟩
  · rcases ThreadAccessory.same_or_moves hinv.idle horderly hc with hsame | hmoves
    · intro w hw
      have hcurrent := hsame.current
      rw [hw, Option.map_some] at hcurrent
      obtain ⟨w₀, hw₀, heq⟩ := Option.map_eq_some_iff.mp hcurrent.symm
      rw [← (Prod.mk.inj heq).1]
      exact h.current w₀ hw₀
    · refine hmoves.unheld fun hact => hfree ?_
      rw [hact]
      rfl
  · rw [hcurrent]
    exact h.current

theorem Hand.eq_taken {phase : Option (WatchPhase × Bool)} (h : Hand s sent opened phase)
    (hunheld : ∀ p ∈ phase, p.1.weight ≤ 2) : opened = s.controller.taken := by
  cases h with
  | none | waiting => rfl
  | sending hn => exact hn
  | taken => exact absurd (hunheld _ rfl) (Nat.not_le_of_lt (Nat.lt_succ_self 2))

theorem Unheld.delivers [CoapLite] (hA : P.chacha20Poly1305.Inverts) (h : s.Unheld P) : s.Delivers P := by
  obtain ⟨sent, opened, hinv⟩ := h.inv
  have hopened : opened = s.controller.taken := by
    refine hinv.hand.eq_taken fun p hp => ?_
    obtain ⟨w, hw, rfl⟩ := Option.map_eq_some_iff.mp hp
    exact h.current w hw
  refine ⟨by rw [hinv.counter, hopened], ⟨sent, hinv.hand.taken_le, hinv.hand.sent_le, hinv.streams⟩,
    hinv.placed, fun hcurrent => (ends_drained hA hinv hcurrent).mono ?_⟩
  rintro t ⟨hdrained, halike, sent, opened, ht⟩
  refine ⟨?_, ?_⟩
  · rw [ht.streams_of_drained hdrained, halike.pushed, halike.arrivedAt]
  · rw [← halike.arrivedAt]
    exact ht.placed

/-- In every such run the counter counts the events taken off the queue, and every event gets to
a stream that was current when or after it arrived. -/
theorem delivers_of_undisturbed [CoapLite] (hA : P.chacha20Poly1305.Inverts) {s₀ : EventSystem}
    (hfresh : s₀.Fresh) {actions : List EventAction}
    (hrun : steps (restrict (step P) Undisturbed) s₀ actions = some s) : s.Delivers P := by
  refine (steps_invariant (I := Unheld P) (unheld_step hA) actions ⟨?_, 0, 0, hfresh.inv⟩ hrun).delivers hA
  intro w hw
  rcases hfresh.current with hcurrent | hcurrent
  · cases hcurrent.symm.trans hw
  · cases hcurrent.symm.trans hw
    decide

structure Account where
  counter : UInt64
  taken : Nat
  streams : List (List (Nat × Event))
  deriving DecidableEq

def account (s : EventSystem) : Account :=
  ⟨s.controller.session.eventCtr, s.controller.taken, s.controller.streams⟩

def replacedRun : List EventAction :=
  [.controller .watch, .push (9, [1]), .deliver 0, .controller (.take none), .controller (.send none),
    .controller .watch, .push (9, [0]), .deliver 1, .controller (.stop 0), .controller (.take none),
    .controller (.send none)]

attribute [local instance] coapLite

theorem delivers_of_undisturbed_replaced :
    ∃ s, steps (restrict (step plainPrimitives) Undisturbed) connected replacedRun = some s ∧
      s.account = ⟨2, 2, [[(0, 9, [1])], [(1, 9, [0])]]⟩ ∧ s.Delivers plainPrimitives := by
  refine exists_of_view account ⟨2, 2, [[(0, 9, [1])], [(1, 9, [0])]]⟩ (by decide +kernel) ?_
  intro s hs haccount
  exact ⟨haccount, delivers_of_undisturbed plainPrimitives_honest.aead connected_fresh hs⟩

def abortedRun : List EventAction :=
  [.controller .watch, .push (9, [1]), .controller (.post (readRequest [9])), .deliver 0,
    .controller (.take none), .controller (.reply (sealedReply readPayload)), .controller .watch,
    .controller (.stop 0), .push (9, [0]), .deliver 1, .controller (.take none)]

theorem event_lost :
    ∃ s, steps (step plainPrimitives) connected abortedRun = some s ∧
      s.account = ⟨0, 2, [[], []]⟩ ∧ ¬ s.Delivers plainPrimitives := by
  refine exists_of_view account ⟨0, 2, [[], []]⟩ (by decide +kernel) ?_
  intro s hs haccount
  refine ⟨haccount, fun hdelivers => ?_⟩
  have hcounter : s.controller.session.eventCtr = 0 := congrArg Account.counter haccount
  have htaken : s.controller.taken = 2 := congrArg Account.taken haccount
  have h := hdelivers.counter
  rw [hcounter, htaken] at h
  cases h

end EventSystem
end HapRust.ThreadDut
