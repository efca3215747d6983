import HapRust.Controller.Handle
import HapRust.Transport.Demux

/-! The tasks and the bounded channels behind a handle. On every session a reader
task delivers responses and events; the receiver of the events is taken when the
supervisor has published the session, and a forwarder task then passes them on
to the supervisor. A send into a full channel waits. -/

namespace HapRust.Controller
open Lib Transport

inductive Reader where
  | reading
  | sending (m : Demuxed)
  | ending (e : TransportError)
  | done
  deriving DecidableEq

structure Link where
  inbox : List Demuxed
  reader : Reader
  responses : List (Except TransportError HapResponse)
  events : List EventNotification
  taken : Bool
  held : Option EventNotification
  forwarded : List Bytes
  closed : Bool
  sent : Nat
  deriving DecidableEq

namespace Link

def new : Link := ⟨[], .reading, [], [], false, none, [], false, 0⟩

def responseCapacity : Nat := 8
def eventCapacity : Nat := 32
def forwardCapacity : Nat := 64

def receive (l : Link) (m : Demuxed) : Link :=
  { l with
    inbox := l.inbox ++ [m]
    sent := match m with
      | .event _ => l.sent + 1
      | .response _ => l.sent }

def read (l : Link) : Option Link :=
  match l.reader, l.inbox with
  | .reading, m :: inbox => some { l with inbox := inbox, reader := .sending m }
  | _, _ => none

def fail (l : Link) (e : TransportError) : Option Link :=
  if l.reader = .reading then some { l with reader := .ending e } else none

def push (l : Link) : Option Link :=
  match l.reader with
  | .sending (.response r) =>
    if l.responses.length < responseCapacity then
      some { l with reader := .reading, responses := l.responses ++ [.ok r] }
    else none
  | .sending (.event ev) =>
    if l.events.length < eventCapacity then
      some { l with reader := .reading, events := l.events ++ [ev] }
    else none
  | .ending e =>
    if l.responses.length < responseCapacity then
      some { l with reader := .done, responses := l.responses ++ [.error e] }
    else none
  | _ => none

def forward (l : Link) : Option Link :=
  match l.events with
  | ev :: events =>
    if l.taken = true ∧ l.held = none ∧ l.closed = false then
      some { l with events := events, held := some ev }
    else none
  | [] => none

def pass (l : Link) : Option Link :=
  match l.held with
  | some ev =>
    if l.forwarded.length < forwardCapacity then
      some { l with held := none, forwarded := l.forwarded ++ [ev.body] }
    else none
  | none => none

def close (l : Link) : Option Link :=
  if l.taken = true ∧ l.held = none ∧ l.events = [] ∧ l.reader = .done then
    some { l with closed := true }
  else none

def takeResponse (l : Link) : Option Link :=
  match l.responses with
  | _ :: rest => some { l with responses := rest }
  | [] => none

def blocked (l : Link) : Bool :=
  match l.reader with
  | .sending (.event _) => eventCapacity ≤ l.events.length
  | _ => false

def undrained (l : Link) : Bool :=
  !l.taken || (l.held.isSome && forwardCapacity ≤ l.forwarded.length)

end Link

structure PumpState where
  supervisor : Supervisor
  made : Nat
  link : Nat → Link
  calls : List Nat

inductive PumpAction where
  | sends (k : Nat) (m : Demuxed)
  | reads (k : Nat)
  | fails (k : Nat) (e : TransportError)
  | pushes (k : Nat)
  | forwards (k : Nat)
  | passes (k : Nat)
  | closes (k : Nat)
  | calls (k : Nat)
  | returns (k : Nat)
  | takeEvents
  | drain
  | sessionEnds
  | reconnected
  | snapshot (ids : List CharId)
  | answered
  | unanswered
  | publish
  deriving DecidableEq

namespace PumpState

def new : PumpState := ⟨.taking 0, 1, fun _ => .new, []⟩

def onLink (s : PumpState) (k : Nat) (l : Option Link) : Option PumpState :=
  if k < s.made then l.map fun l => { s with link := Function.update s.link k l } else none

def step (s : PumpState) : PumpAction → Option PumpState
  | .sends k m => s.onLink k (some ((s.link k).receive m))
  | .reads k => s.onLink k (s.link k).read
  | .fails k e => s.onLink k ((s.link k).fail e)
  | .pushes k => s.onLink k (s.link k).push
  | .forwards k => s.onLink k (s.link k).forward
  | .passes k => s.onLink k (s.link k).pass
  | .closes k => s.onLink k (s.link k).close
  | .calls k =>
    if k < s.made ∧ s.supervisor.fresh ≠ some k then some { s with calls := s.calls ++ [k] }
    else none
  | .returns k =>
    if k ∈ s.calls then
      { s with calls := s.calls.erase k }.onLink k (s.link k).takeResponse
    else none
  | .takeEvents =>
    match s.supervisor with
    | .taking k =>
      { s with supervisor := .draining k }.onLink k (some { s.link k with taken := true })
    | _ => none
  | .drain =>
    match s.supervisor with
    | .draining k =>
      s.onLink k (match (s.link k).forwarded with
        | _ :: rest => some { s.link k with forwarded := rest }
        | [] => none)
    | _ => none
  | .sessionEnds =>
    match s.supervisor with
    | .draining k =>
      if (s.link k).closed = true ∧ (s.link k).forwarded = [] then
        some { s with supervisor := .reconnecting }
      else none
    | _ => none
  | .reconnected =>
    if s.supervisor = .reconnecting then
      some { s with supervisor := .connected s.made, made := s.made + 1 }
    else none
  | .snapshot ids =>
    match s.supervisor with
    | .connected k => some { s with supervisor := .resubscribing k ids }
    | _ => none
  | .answered =>
    match s.supervisor with
    | .resubscribing k (_ :: ids) =>
      { s with supervisor := .resubscribing k ids }.onLink k (s.link k).takeResponse
    | _ => none
  | .unanswered =>
    match s.supervisor with
    | .resubscribing k (_ :: ids) => some { s with supervisor := .resubscribing k ids }
    | _ => none
  | .publish =>
    match s.supervisor with
    | .resubscribing k [] => some { s with supervisor := .taking k }
    | _ => none

def awaits (s : PumpState) (k : Nat) : Bool :=
  match s.supervisor with
  | .resubscribing j (_ :: _) => j == k && (s.link k).responses.isEmpty
  | _ => false

def Deadlocked (s : PumpState) : Prop :=
  ∃ k, (s.link k).blocked = true ∧ (s.link k).undrained = true ∧ s.awaits k = true

/-- The accessory sends no more events than the channel holds before they are taken. -/
def Moderate (s : PumpState) : PumpAction → Prop
  | .sends k (.event _) => (s.link k).taken = true ∨ (s.link k).sent < Link.eventCapacity
  | _ => True

instance (s : PumpState) : (a : PumpAction) → Decidable (s.Moderate a)
  | .sends k (.event _) => inferInstanceAs
      (Decidable ((s.link k).taken = true ∨ (s.link k).sent < Link.eventCapacity))
  | .sends _ (.response _) | .reads _ | .fails _ _ | .pushes _ | .forwards _ | .passes _ | .closes _
  | .calls _ | .returns _ | .takeEvents | .drain | .sessionEnds | .reconnected | .snapshot _
  | .answered | .unanswered | .publish => isTrue trivial

end PumpState

/-! ## One session -/

namespace Link

def ahead (l : Link) : Nat :=
  l.inbox.countP (fun m => m matches .event _) +
    match l.reader with
    | .sending (.event _) => 1
    | _ => 0

structure Inv (l : Link) : Prop where
  room : l.taken = false → l.events.length + l.ahead ≤ l.sent ∧ l.sent ≤ eventCapacity
  closed : l.closed = true → l.reader = .done

theorem inv_new : Inv new := ⟨fun _ => ⟨Nat.le_refl _, Nat.zero_le _⟩, fun h => by cases h⟩

variable {l l' : Link}

theorem Inv.not_closed (h : l.Inv) {r : Reader} (hreader : l.reader = r) (hr : r ≠ .done) :
    ¬ l.closed = true := by
  intro hclosed
  exact hr (hreader.symm.trans (h.closed hclosed))

theorem Inv.taken_of_blocked (h : l.Inv) (hblocked : l.blocked = true) :
    l.taken = true ∧ l.closed = false := by
  unfold blocked at hblocked
  split at hblocked
  · next ev hreader =>
    rw [decide_eq_true_eq] at hblocked
    constructor
    · rw [← Bool.not_eq_false]
      intro htaken
      obtain ⟨hroom, hsent⟩ := h.room htaken
      have hahead : 1 ≤ l.ahead := by
        rw [ahead, hreader]
        exact Nat.le_add_left 1 _
      omega
    · rw [← Bool.not_eq_true]
      exact h.not_closed hreader nofun
  · cases hblocked

structure Moves (l l' : Link) : Prop where
  inv : l'.Inv
  taken : l'.taken = l.taken
  closed : l.closed = true → l'.closed = true

theorem Inv.receive (h : l.Inv) {m : Demuxed}
    (hmoderate : ∀ ev, m = .event ev → l.taken = true ∨ l.sent < eventCapacity) :
    l.Moves (l.receive m) := by
  refine ⟨⟨?_, h.closed⟩, rfl, id⟩
  intro htaken
  obtain ⟨hroom, hsent⟩ := h.room htaken
  cases m with
  | response r => simpa [Link.receive, ahead] using ⟨hroom, hsent⟩
  | event ev =>
    have hless : l.sent < eventCapacity := by
      rcases hmoderate ev rfl with ht | hlt
      · rw [show l.taken = false from htaken] at ht
        cases ht
      · exact hlt
    have hcount : (l.inbox ++ [Demuxed.event ev]).countP (fun m => m matches .event _) =
        l.inbox.countP (fun m => m matches .event _) + 1 := by
      rw [List.countP_append]
      rfl
    simp only [Link.receive, ahead, hcount] at hroom ⊢
    omega

theorem Inv.read (h : l.Inv) (hstep : l.read = some l') : l.Moves l' := by
  unfold Link.read at hstep
  split at hstep
  · next m inbox hreader hinbox =>
    obtain rfl := Option.some.inj hstep
    refine ⟨⟨?_, ?_⟩, rfl, id⟩
    · intro htaken
      obtain ⟨hroom, hsent⟩ := h.room htaken
      refine ⟨?_, hsent⟩
      rw [ahead, hreader, hinbox] at hroom
      cases m <;> simp [ahead] at hroom ⊢ <;> omega
    · intro hclosed
      exact absurd hclosed (h.not_closed hreader nofun)
  · cases hstep

theorem Inv.fail (h : l.Inv) {e : TransportError} (hstep : l.fail e = some l') : l.Moves l' := by
  obtain ⟨hreader, rfl⟩ := guarded_eq_some.mp hstep
  refine ⟨⟨?_, ?_⟩, rfl, id⟩
  · intro htaken
    have hroom := h.room htaken
    rw [ahead, hreader] at hroom
    exact hroom
  · intro hclosed
    exact absurd hclosed (h.not_closed hreader nofun)

theorem Inv.push (h : l.Inv) (hstep : l.push = some l') : l.Moves l' := by
  unfold Link.push at hstep
  split at hstep
  · next r hreader =>
    obtain ⟨-, rfl⟩ := guarded_eq_some.mp hstep
    refine ⟨⟨?_, fun hclosed => ?_⟩, rfl, id⟩
    · intro htaken
      have hroom := h.room htaken
      rw [ahead, hreader] at hroom
      exact hroom
    · exact absurd hclosed (h.not_closed hreader nofun)
  · next ev hreader =>
    obtain ⟨-, rfl⟩ := guarded_eq_some.mp hstep
    refine ⟨⟨?_, fun hclosed => ?_⟩, rfl, id⟩
    · intro htaken
      have hroom := h.room htaken
      rw [ahead, hreader] at hroom
      simp only [ahead, List.length_append, List.length_singleton] at hroom ⊢
      omega
    · exact absurd hclosed (h.not_closed hreader nofun)
  · next e hreader =>
    obtain ⟨-, rfl⟩ := guarded_eq_some.mp hstep
    refine ⟨⟨?_, fun _ => rfl⟩, rfl, id⟩
    intro htaken
    have hroom := h.room htaken
    rw [ahead, hreader] at hroom
    exact hroom
  · cases hstep

theorem Inv.forward (h : l.Inv) (hstep : l.forward = some l') : l.Moves l' := by
  unfold Link.forward at hstep
  split at hstep
  · obtain ⟨⟨htaken, -⟩, rfl⟩ := guarded_eq_some.mp hstep
    refine ⟨⟨fun hnot => ?_, h.closed⟩, rfl, id⟩
    rw [show l.taken = false from hnot] at htaken
    cases htaken
  · cases hstep

theorem Inv.pass (h : l.Inv) (hstep : l.pass = some l') : l.Moves l' := by
  unfold Link.pass at hstep
  split at hstep
  · obtain ⟨-, rfl⟩ := guarded_eq_some.mp hstep
    exact ⟨⟨h.room, h.closed⟩, rfl, id⟩
  · cases hstep

theorem Inv.close (h : l.Inv) (hstep : l.close = some l') : l.Moves l' := by
  obtain ⟨⟨-, -, -, hdone⟩, rfl⟩ := guarded_eq_some.mp hstep
  exact ⟨⟨h.room, fun _ => hdone⟩, rfl, fun _ => rfl⟩

theorem Inv.takeResponse (h : l.Inv) (hstep : l.takeResponse = some l') : l.Moves l' := by
  unfold Link.takeResponse at hstep
  split at hstep
  · obtain rfl := Option.some.inj hstep
    exact ⟨⟨h.room, h.closed⟩, rfl, id⟩
  · cases hstep

end Link

/-! ## The system -/

namespace PumpState

structure Inv (s : PumpState) : Prop where
  links : ∀ k, (s.link k).Inv
  drained : ∀ k, (s.link k).taken = true → s.supervisor = .draining k ∨ (s.link k).closed = true

theorem inv_new : Inv new := ⟨fun _ => Link.inv_new, fun _ h => by cases h⟩

variable {s t : PumpState}

theorem onLink_eq_some {k : Nat} {l : Option Link} (h : s.onLink k l = some t) :
    ∃ l', l = some l' ∧ t = { s with link := Function.update s.link k l' } := by
  obtain ⟨-, h⟩ := Option.ite_none_right_eq_some.mp h
  obtain ⟨l', hl, rfl⟩ := Option.map_eq_some_iff.mp h
  exact ⟨l', hl, rfl⟩

theorem Inv.moves (h : s.Inv) {k : Nat} {l : Link} (hl : (s.link k).Moves l) :
    Inv { s with link := Function.update s.link k l } := by
  constructor
  · refine (Function.forall_update_iff s.link fun _ l => l.Inv).mpr ?_
    exact ⟨hl.inv, fun j _ => h.links j⟩
  · refine (Function.forall_update_iff s.link fun j l =>
      l.taken = true → s.supervisor = .draining j ∨ l.closed = true).mpr ⟨?_, fun j _ => h.drained j⟩
    intro htaken
    rw [hl.taken] at htaken
    exact (h.drained k htaken).imp id hl.closed

theorem Inv.onLink (h : s.Inv) {k : Nat} {l : Option Link}
    (hl : ∀ l', l = some l' → (s.link k).Moves l') (hstep : s.onLink k l = some t) : t.Inv := by
  obtain ⟨l', hl', rfl⟩ := onLink_eq_some hstep
  exact h.moves (hl l' hl')

theorem Inv.goto (h : s.Inv) (hnot : ∀ k, s.supervisor ≠ .draining k) (supervisor : Supervisor)
    (made : Nat) (calls : List Nat) :
    Inv { s with supervisor := supervisor, made := made, calls := calls } := by
  refine ⟨h.links, ?_⟩
  intro k htaken
  exact .inr ((h.drained k htaken).resolve_left (hnot k))

theorem Inv.takeEvents (h : s.Inv) (hstep : s.step .takeEvents = some t) : t.Inv := by
  simp only [step] at hstep
  split at hstep
  · next k hk =>
    obtain ⟨l, hl, rfl⟩ := onLink_eq_some hstep
    obtain rfl := Option.some.inj hl
    constructor
    · refine (Function.forall_update_iff s.link fun _ l => l.Inv).mpr ?_
      exact ⟨⟨fun htaken => (by cases htaken), (h.links k).closed⟩, fun j _ => h.links j⟩
    · refine (Function.forall_update_iff s.link fun j l => l.taken = true →
        Supervisor.draining k = .draining j ∨ l.closed = true).mpr ⟨fun _ => .inl rfl, ?_⟩
      intro j _ htaken
      refine .inr ((h.drained j htaken).resolve_left ?_)
      rw [hk]
      simp
  · cases hstep

theorem Inv.drain (h : s.Inv) (hstep : s.step .drain = some t) : t.Inv := by
  simp only [step] at hstep
  split at hstep
  · next k hk =>
    refine h.onLink ?_ hstep
    intro l hl
    split at hl
    · obtain rfl := Option.some.inj hl
      exact ⟨⟨(h.links k).room, (h.links k).closed⟩, rfl, id⟩
    · cases hl
  · cases hstep

theorem Inv.sessionEnds (h : s.Inv) (hstep : s.step .sessionEnds = some t) : t.Inv := by
  simp only [step] at hstep
  split at hstep
  · next k hk =>
    obtain ⟨⟨hclosed, -⟩, rfl⟩ := guarded_eq_some.mp hstep
    refine ⟨h.links, ?_⟩
    intro j htaken
    rcases h.drained j htaken with hj | hj
    · obtain rfl : k = j := Supervisor.draining.inj (hk.symm.trans hj)
      exact .inr hclosed
    · exact .inr hj
  · cases hstep

theorem inv_step {a : PumpAction} (h : s.Inv) (hstep : restrict step Moderate s a = some t) :
    t.Inv := by
  rw [restrict_eq_some] at hstep
  obtain ⟨hmoderate, hstep⟩ := hstep
  cases a with
  | sends k m =>
    refine h.onLink ?_ hstep
    intro l hl
    obtain rfl := Option.some.inj hl
    refine (h.links k).receive ?_
    rintro ev rfl
    exact hmoderate
  | reads k => exact h.onLink (fun l hl => (h.links k).read hl) hstep
  | fails k e => exact h.onLink (fun l hl => (h.links k).fail hl) hstep
  | pushes k => exact h.onLink (fun l hl => (h.links k).push hl) hstep
  | forwards k => exact h.onLink (fun l hl => (h.links k).forward hl) hstep
  | passes k => exact h.onLink (fun l hl => (h.links k).pass hl) hstep
  | closes k => exact h.onLink (fun l hl => (h.links k).close hl) hstep
  | calls k =>
    obtain ⟨-, rfl⟩ := guarded_eq_some.mp hstep
    exact ⟨h.links, h.drained⟩
  | returns k =>
    obtain ⟨-, hstep⟩ := Option.ite_none_right_eq_some.mp hstep
    have hcalls : Inv { s with calls := s.calls.erase k } := ⟨h.links, h.drained⟩
    exact hcalls.onLink (fun l hl => (h.links k).takeResponse hl) hstep
  | takeEvents => exact h.takeEvents hstep
  | drain => exact h.drain hstep
  | sessionEnds => exact h.sessionEnds hstep
  | reconnected =>
    obtain ⟨hk, rfl⟩ := guarded_eq_some.mp hstep
    exact h.goto (by simp [hk]) _ _ s.calls
  | snapshot ids =>
    simp only [step] at hstep
    split at hstep
    · next k hk =>
      obtain rfl := Option.some.inj hstep
      exact h.goto (by simp [hk]) _ s.made s.calls
    · cases hstep
  | answered =>
    simp only [step] at hstep
    split at hstep
    · next k id ids hk =>
      have hmoved : Inv { s with supervisor := .resubscribing k ids } :=
        h.goto (by simp [hk]) _ s.made s.calls
      exact hmoved.onLink (fun l hl => (h.links k).takeResponse hl) hstep
    · cases hstep
  | unanswered =>
    simp only [step] at hstep
    split at hstep
    · next k id ids hk =>
      obtain rfl := Option.some.inj hstep
      exact h.goto (by simp [hk]) _ s.made s.calls
    · cases hstep
  | publish =>
    simp only [step] at hstep
    split at hstep
    · next k hk =>
      obtain rfl := Option.some.inj hstep
      exact h.goto (by simp [hk]) _ s.made s.calls
    · cases hstep

theorem Inv.draining_of_blocked (h : s.Inv) {k : Nat} (hblocked : (s.link k).blocked = true) :
    s.supervisor = .draining k := by
  obtain ⟨htaken, hclosed⟩ := (h.links k).taken_of_blocked hblocked
  refine (h.drained k htaken).resolve_right ?_
  rw [hclosed]
  simp

/-- In every run in which the accessory sends no more events on a session than the
channel holds before they are taken, no reader waits on a supervisor that waits on it. -/
theorem not_deadlocked_of_moderate (actions : List PumpAction)
    (h : steps (restrict step Moderate) new actions = some s) : ¬ s.Deadlocked := by
  rintro ⟨k, hblocked, -, hawaits⟩
  have hinv := steps_invariant inv_step actions inv_new h
  rw [awaits, hinv.draining_of_blocked hblocked] at hawaits
  cases hawaits

def sampleEvent : Demuxed := .event ⟨[]⟩

def secondSession : List PumpAction :=
  [.takeEvents, .fails 0 .connectionClosed, .pushes 0, .closes 0, .sessionEnds, .reconnected,
    .snapshot [(1, 10)]]

def burst (k : Nat) : Nat → List PumpAction
  | 0 => []
  | n + 1 => [.sends k sampleEvent, .reads k, .pushes k] ++ burst k n

theorem not_deadlocked_of_moderate_burst :
    ∃ s, steps (restrict step Moderate) new (secondSession ++ burst 1 32) = some s ∧
      s.awaits 1 = true ∧ (s.link 1).events.length = 32 ∧ ¬ s.Deadlocked := by
  refine exists_of_view (fun s => (s.awaits 1, (s.link 1).events.length)) (true, 32)
    (by decide +kernel) ?_
  intro s hs hstate
  simp only [Prod.mk.injEq] at hstate
  exact ⟨hstate.1, hstate.2, not_deadlocked_of_moderate _ hs⟩

/-- One event more, and the response that the supervisor waits for cannot pass. -/
theorem reader_and_supervisor_deadlocked :
    ∃ s, steps step new (secondSession ++ burst 1 32 ++
        ([.sends 1 sampleEvent, .reads 1, .sends 1 (.response ⟨204, "", []⟩)] :
          List PumpAction)) = some s ∧ s.Deadlocked := by
  refine exists_of_view (fun s => ((s.link 1).blocked, (s.link 1).undrained, s.awaits 1))
    (true, true, true) (by decide +kernel) ?_
  intro s hs hstate
  simp only [Prod.mk.injEq] at hstate
  exact ⟨1, hstate⟩

end PumpState
end HapRust.Controller
