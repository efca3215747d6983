import HapRust.Thread.Accessory

/-! The watchers of a connected accessory. The task that `watch_events` starts takes
the events off the transport's queue, opens them with the session, which a post may
be holding, and sends them to its stream. The next call replaces it. -/

namespace HapRust.Thread
open Lib Crypto

def streamCapacity : Nat := 64

inductive WatchPhase where
  | waiting
  | taken (number : Nat) (encrypted : Bytes)
  | sending (number : Nat) (event : Event) (rest : List Event)
  | stopped
  deriving DecidableEq

def WatchPhase.weight : WatchPhase → Nat
  | waiting | stopped => 0
  | taken _ _ => 3
  | sending _ _ _ => 2

/-- The task, and the stream it sends to. The events are numbered as they were taken off
the queue. -/
structure Watcher where
  phase : WatchPhase
  dropped : Bool
  channel : List (Nat × Event)
  yielded : List (Nat × Event)
  deriving DecidableEq

namespace Watcher

def new : Watcher := ⟨.waiting, false, [], []⟩

def stream (w : Watcher) : List (Nat × Event) := w.yielded ++ w.channel

def forward (w : Watcher) (number : Nat) : List Event → Watcher
  | [] => { w with phase := .waiting }
  | event :: rest => { w with phase := .sending number event rest }

def send (w : Watcher) : Option Watcher :=
  match w.phase with
  | .sending number event rest =>
    if w.dropped then some { w with phase := .stopped }
    else if w.channel.length < streamCapacity then
      some ({ w with channel := w.channel ++ [(number, event)] }.forward number rest)
    else none
  | _ => none

def next (w : Watcher) : Option Watcher :=
  match w.channel with
  | event :: rest =>
    if w.dropped then none else some { w with channel := rest, yielded := w.yielded ++ [event] }
  | [] => none

theorem of_next {w w' : Watcher} (h : w.next = some w') :
    w'.phase = w.phase ∧ w'.dropped = w.dropped ∧ w'.stream = w.stream ∧
      w'.channel.length < w.channel.length := by
  unfold next at h
  split at h
  · next event rest hchannel =>
    split_ifs at h
    obtain rfl := Option.some.inj h
    refine ⟨rfl, rfl, ?_, ?_⟩
    · simp only [stream, hchannel, List.append_assoc, List.singleton_append]
    · rw [hchannel]
      exact Nat.lt_succ_self _
  · cases h

theorem weight_forward (w : Watcher) (number : Nat) (events : List Event) :
    (w.forward number events).phase.weight ≤ 2 := by
  cases events with
  | nil => exact Nat.zero_le 2
  | cons event rest => exact Nat.le_refl 2

theorem weight_send {w w' : Watcher} (h : w.send = some w') : w'.phase.weight ≤ 2 := by
  unfold send at h
  split at h
  · split_ifs at h
    · obtain rfl := Option.some.inj h
      exact Nat.zero_le 2
    · obtain rfl := Option.some.inj h
      exact weight_forward ..
  · cases h

theorem of_send {w w' : Watcher} (h : w.send = some w') (hdropped : w.dropped = false) :
    ∃ number event rest, w.phase = .sending number event rest ∧
      w' = { w with channel := w.channel ++ [(number, event)] }.forward number rest := by
  unfold send at h
  split at h
  · next number event rest hphase =>
    rw [hdropped, if_neg Bool.false_ne_true] at h
    obtain ⟨-, rfl⟩ := guarded_eq_some.mp h
    exact ⟨number, event, rest, hphase, by rw [hdropped]⟩
  · cases h

end Watcher

structure ThreadAccessory where
  udp : UdpCoapTransport
  session : CoapSession
  locked : Bool
  current : Option Watcher
  replaced : List Watcher
  taken : Nat

inductive WatchAction where
  | watch
  | take (k : Option Nat)
  | resume (k : Option Nat)
  | send (k : Option Nat)
  | next (k : Option Nat)
  | dropStream (k : Option Nat)
  | stop (k : Nat)
  | post (pdu : Bytes)
  | reply (r : Except CoapError CoapResponse)
  | cancel

namespace ThreadAccessory

def new (udp : UdpCoapTransport) (session : CoapSession) : ThreadAccessory :=
  ⟨udp, session, false, none, [], 0⟩

def watcher (a : ThreadAccessory) : Option Nat → Option Watcher
  | none => a.current
  | some k => a.replaced[k]?

def setWatcher (a : ThreadAccessory) (k : Option Nat) (w : Watcher) : ThreadAccessory :=
  match k with
  | none => { a with current := some w }
  | some k => { a with replaced := a.replaced.set k w }

def streams (a : ThreadAccessory) : List (List (Nat × Event)) :=
  a.replaced.map Watcher.stream ++ (a.current.map Watcher.stream).toList

section
variable (P : Primitives)

def openEvent (a : ThreadAccessory) (k : Option Nat) (w : Watcher) (number : Nat) (encrypted : Bytes) :
    ThreadAccessory :=
  match a.session.openEvent P encrypted with
  | .error _ => a.setWatcher k { w with phase := .stopped }
  | .ok (plaintext, session) =>
    { a with session := session }.setWatcher k
      (match decodeEvents plaintext with
        | .ok events => w.forward number events
        | .error _ => { w with phase := .stopped })

def dequeue (a : ThreadAccessory) (rest : List Bytes) : ThreadAccessory :=
  { a with udp := { a.udp with events := rest }, taken := a.taken + 1 }

def take (a : ThreadAccessory) (k : Option Nat) : Option ThreadAccessory :=
  match a.watcher k, a.udp.events with
  | some w, encrypted :: rest =>
    if w.phase = .waiting then
      -- nothing is awaited for a session that is free
      some (if a.locked then (a.dequeue rest).setWatcher k { w with phase := .taken a.taken encrypted }
        else (a.dequeue rest).openEvent P k w a.taken encrypted)
    else none
  | _, _ => none

def resume (a : ThreadAccessory) (k : Option Nat) : Option ThreadAccessory :=
  match a.watcher k with
  | some w =>
    match w.phase with
    | .taken number encrypted => if a.locked then none else some (a.openEvent P k w number encrypted)
    | _ => none
  | none => none

def step (a : ThreadAccessory) : WatchAction → Option ThreadAccessory
  | .watch => some { a with current := some .new, replaced := a.replaced ++ a.current.toList }
  | .take k => a.take P k
  | .resume k => a.resume P k
  | .send k => (a.watcher k).bind fun w => w.send.map (a.setWatcher k)
  | .next k => (a.watcher k).bind fun w => w.next.map (a.setWatcher k)
  | .dropStream k => (a.watcher k).map fun w => a.setWatcher k { w with dropped := true }
  | .stop k => (a.replaced[k]?).map fun w => a.setWatcher (some k) { w with phase := .stopped }
  | .post pdu =>
    if a.locked then none
    else match a.session.sealRequest P pdu with
      | .ok (_, session) => some { a with session := session, locked := true }
      | .error _ => some a
  | .reply r =>
    if a.locked then some { a with session := (a.session.openReply P r).2, locked := false } else none
  | .cancel => if a.locked then some { a with locked := false } else none

end

/-! ## Steps that move no event -/

structure Same (a a' : ThreadAccessory) : Prop where
  events : a'.udp.events = a.udp.events
  taken : a'.taken = a.taken
  eventKey : a'.session.eventKey = a.session.eventKey
  eventCtr : a'.session.eventCtr = a.session.eventCtr
  current : a'.current.map (fun w => (w.phase, w.dropped)) = a.current.map fun w => (w.phase, w.dropped)
  streams : a'.streams = a.streams
  replaced : (∀ w ∈ a.replaced, w.phase = .waiting ∨ w.phase = .stopped) →
    ∀ w ∈ a'.replaced, w.phase = .waiting ∨ w.phase = .stopped
  count : a'.replaced.length = a.replaced.length

section
variable {P : Primitives} {a a' : ThreadAccessory} {w w' : Watcher}

theorem Same.of_session {session : CoapSession} (hkey : session.eventKey = a.session.eventKey)
    (hctr : session.eventCtr = a.session.eventCtr) (locked : Bool) :
    Same a { a with session := session, locked := locked } :=
  ⟨rfl, rfl, hkey, hctr, rfl, rfl, id, rfl⟩

theorem streams_setWatcher (h : a.current = some w) (hstream : w'.stream = w.stream) :
    (a.setWatcher none w').streams = a.streams := by
  simp only [streams, setWatcher, h, Option.map_some, hstream]

theorem Same.of_current (h : a.current = some w) (hphase : w'.phase = w.phase)
    (hdropped : w'.dropped = w.dropped) (hstream : w'.stream = w.stream) :
    Same a (a.setWatcher none w') where
  events := rfl
  taken := rfl
  eventKey := rfl
  eventCtr := rfl
  current := by simp only [setWatcher, h, Option.map_some, hphase, hdropped]
  streams := streams_setWatcher h hstream
  replaced := id
  count := rfl

theorem Same.of_replaced {k : Nat} (h : a.replaced[k]? = some w)
    (hphase : w'.phase = w.phase ∨ w'.phase = .stopped) (hstream : w'.stream = w.stream) :
    Same a (a.setWatcher (some k) w') where
  events := rfl
  taken := rfl
  eventKey := rfl
  eventCtr := rfl
  current := rfl
  streams := by
    obtain ⟨hk, rfl⟩ := List.getElem?_eq_some_iff.mp h
    have hmap : (a.replaced.set k w').map Watcher.stream = a.replaced.map Watcher.stream := by
      rw [List.map_set, hstream, ← List.getElem_map Watcher.stream, List.set_getElem_self]
      rwa [List.length_map]
    simp only [ThreadAccessory.streams, setWatcher, hmap]
  replaced hidle x hx := by
    rcases List.mem_or_eq_of_mem_set hx with hx | rfl
    · exact hidle x hx
    · rcases hphase with hphase | hphase
      · rw [hphase]
        exact hidle w (List.mem_of_getElem? h)
      · exact .inr hphase
  count := List.length_set

theorem Same.of_watcher {k : Option Nat} (h : a.watcher k = some w) (hphase : w'.phase = w.phase)
    (hdropped : w'.dropped = w.dropped) (hstream : w'.stream = w.stream) :
    Same a (a.setWatcher k w') := by
  cases k with
  | none => exact .of_current h hphase hdropped hstream
  | some k => exact .of_replaced h (.inl hphase) hstream

theorem openEvent_eq (a : ThreadAccessory) (w : Watcher) (number : Nat) (encrypted : Bytes) :
    ∃ session phase, phase.weight ≤ 2 ∧ ∀ (current : Option Watcher) (waited : WatchPhase),
      { a with current := current }.openEvent P none { w with phase := waited } number encrypted =
        { a with session := session, current := some { w with phase := phase } } := by
  unfold openEvent
  dsimp only
  cases a.session.openEvent P encrypted with
  | error e => exact ⟨a.session, .stopped, by decide, fun _ _ => rfl⟩
  | ok opened =>
    dsimp only
    cases decodeEvents opened.1 with
    | error e => exact ⟨opened.2, .stopped, by decide, fun _ _ => rfl⟩
    | ok events =>
      cases events with
      | nil => exact ⟨opened.2, .waiting, by decide, fun _ _ => rfl⟩
      | cons event rest => exact ⟨opened.2, .sending number event rest, Nat.le_refl 2, fun _ _ => rfl⟩

theorem openEvent_cases (a : ThreadAccessory) (w : Watcher) (number : Nat) (encrypted : Bytes) :
    ∃ session phase, phase.weight ≤ 2 ∧ a.openEvent P none w number encrypted =
      { a with session := session, current := some { w with phase := phase } } := by
  obtain ⟨session, phase, hweight, heq⟩ := openEvent_eq (P := P) a w number encrypted
  exact ⟨session, phase, hweight, heq a.current w.phase⟩

theorem take_cases (h : a.take P none = some a') :
    ∃ w encrypted rest, a.current = some w ∧ w.phase = .waiting ∧ a.udp.events = encrypted :: rest ∧
      (a.locked = true ∧ a' = (a.dequeue rest).setWatcher none { w with phase := .taken a.taken encrypted } ∨
        a.locked = false ∧ a' = (a.dequeue rest).openEvent P none w a.taken encrypted) := by
  unfold take at h
  split at h
  · next w encrypted rest hcurrent hevents =>
    split_ifs at h with hwaiting hlocked
    · exact ⟨w, encrypted, rest, hcurrent, hwaiting, hevents, .inl ⟨hlocked, (Option.some.inj h).symm⟩⟩
    · exact ⟨w, encrypted, rest, hcurrent, hwaiting, hevents,
        .inr ⟨Bool.eq_false_of_not_eq_true hlocked, (Option.some.inj h).symm⟩⟩
  · cases h

theorem resume_cases (h : a.resume P none = some a') :
    ∃ w number encrypted, a.current = some w ∧ w.phase = .taken number encrypted ∧
      a' = a.openEvent P none w number encrypted := by
  unfold resume at h
  split at h
  · next w hcurrent =>
    split at h
    · next number encrypted hphase =>
      split_ifs at h
      exact ⟨w, number, encrypted, hcurrent, hphase, (Option.some.inj h).symm⟩
    · cases h
  · cases h

def Orderly (a : ThreadAccessory) : WatchAction → Prop
  | .watch => a.current.all (fun w => decide (w.phase = .waiting)) = true
  | .take k => k = none
  | .dropStream k => k ≠ none
  | _ => True

instance (a : ThreadAccessory) : (act : WatchAction) → Decidable (a.Orderly act)
  | .watch => inferInstanceAs (Decidable (a.current.all _ = true))
  | .take k => inferInstanceAs (Decidable (k = none))
  | .dropStream k => inferInstanceAs (Decidable (k ≠ none))
  | .resume _ | .send _ | .next _ | .stop _ | .post _ | .reply _ | .cancel => isTrue trivial

inductive Moves (P : Primitives) (a : ThreadAccessory) (act : WatchAction) (a' : ThreadAccessory) : Prop
  | watch (hact : act = .watch) (hwaiting : ∀ w, a.current = some w → w.phase = .waiting)
      (h : a' = { a with current := some .new, replaced := a.replaced ++ a.current.toList })
  | take (hact : act = .take none) (h : a.take P none = some a')
  | resume (h : a.resume P none = some a')
  | send (w w' : Watcher) (hcurrent : a.current = some w) (hsend : w.send = some w')
      (h : a' = a.setWatcher none w')

theorem Moves.keeps {act : WatchAction} (h : Moves P a act a') (hact : act ≠ .watch) :
    a'.current.isSome ∧ a'.replaced = a.replaced := by
  cases h with
  | watch hwatch => exact absurd hwatch hact
  | take _ h =>
    obtain ⟨w, encrypted, rest, -, -, -, ⟨-, rfl⟩ | ⟨-, rfl⟩⟩ := take_cases h
    · exact ⟨rfl, rfl⟩
    · obtain ⟨session, phase, -, heq⟩ := openEvent_cases (P := P) (a.dequeue rest) w a.taken encrypted
      rw [heq]
      exact ⟨rfl, rfl⟩
  | resume h =>
    obtain ⟨w, number, encrypted, -, -, rfl⟩ := resume_cases h
    obtain ⟨session, phase, -, heq⟩ := openEvent_cases (P := P) a w number encrypted
    rw [heq]
    exact ⟨rfl, rfl⟩
  | send w w' _ _ h =>
    rw [h]
    exact ⟨rfl, rfl⟩

theorem Moves.unheld {act : WatchAction} (h : Moves P a act a')
    (hfree : act = .take none → a.locked = false) :
    ∀ w, a'.current = some w → w.phase.weight ≤ 2 := by
  intro x hx
  cases h with
  | watch _ _ h =>
    rw [h] at hx
    cases hx
    decide
  | take hact h =>
    obtain ⟨w, encrypted, rest, -, -, -, ⟨hlocked, -⟩ | ⟨-, rfl⟩⟩ := take_cases h
    · cases hlocked.symm.trans (hfree hact)
    · obtain ⟨session, phase, hweight, heq⟩ := openEvent_cases (P := P) (a.dequeue rest) w a.taken encrypted
      rw [heq] at hx
      cases hx
      exact hweight
  | resume h =>
    obtain ⟨w, number, encrypted, -, -, rfl⟩ := resume_cases h
    obtain ⟨session, phase, hweight, heq⟩ := openEvent_cases (P := P) a w number encrypted
    rw [heq] at hx
    cases hx
    exact hweight
  | send w w' _ hsend h =>
    rw [h] at hx
    cases hx
    exact Watcher.weight_send hsend

theorem openReply_frame (s : CoapSession) (r : Except CoapError CoapResponse) :
    (s.openReply P r).2.eventKey = s.eventKey ∧ (s.openReply P r).2.eventCtr = s.eventCtr := by
  unfold CoapSession.openReply
  rcases commit_cases s _ with ⟨e, h⟩ | ⟨pt, s', hok, h⟩
  · rw [h]
    exact ⟨rfl, rfl⟩
  · rw [h]
    obtain ⟨response, -, hok⟩ := bind_eq_ok.mp hok
    obtain ⟨payload, -, hok⟩ := bind_eq_ok.mp hok
    obtain ⟨opened, -, hok⟩ := bind_eq_ok.mp hok
    obtain ⟨-, rfl⟩ := Prod.mk.inj (Except.ok.inj hok)
    exact ⟨rfl, rfl⟩

theorem sealRequest_frame {s s' : CoapSession} {pdu sealed : Bytes}
    (h : s.sealRequest P pdu = .ok (sealed, s')) :
    s'.eventKey = s.eventKey ∧ s'.eventCtr = s.eventCtr := by
  obtain ⟨next, -, hok⟩ := bind_eq_ok.mp h
  obtain ⟨-, rfl⟩ := Prod.mk.inj (Except.ok.inj hok)
  exact ⟨rfl, rfl⟩

theorem same_or_moves {act : WatchAction}
    (hidle : ∀ w ∈ a.replaced, w.phase = .waiting ∨ w.phase = .stopped) (horderly : a.Orderly act)
    (h : a.step P act = some a') : Same a a' ∨ Moves P a act a' := by
  cases act with
  | watch =>
    refine .inr (.watch rfl ?_ (Option.some.inj h).symm)
    intro w hw
    rw [Orderly, hw] at horderly
    exact of_decide_eq_true horderly
  | take k =>
    obtain rfl := horderly
    exact .inr (.take rfl h)
  | resume k =>
    cases k with
    | none => exact .inr (.resume h)
    | some k =>
      simp only [step, resume, watcher] at h
      split at h
      · next w hw => rcases hidle w (List.mem_of_getElem? hw) with hw | hw <;> simp [hw] at h
      · cases h
  | send k =>
    obtain ⟨w, hw, hset⟩ := Option.bind_eq_some_iff.mp h
    obtain ⟨w', hsend, rfl⟩ := Option.map_eq_some_iff.mp hset
    cases k with
    | none => exact .inr (.send w w' hw hsend rfl)
    | some k =>
      rcases hidle w (List.mem_of_getElem? hw) with hw | hw <;> simp [Watcher.send, hw] at hsend
  | next k =>
    obtain ⟨w, hw, hset⟩ := Option.bind_eq_some_iff.mp h
    obtain ⟨w', hnext, rfl⟩ := Option.map_eq_some_iff.mp hset
    obtain ⟨hphase, hdropped, hstream, -⟩ := Watcher.of_next hnext
    exact .inl (.of_watcher hw hphase hdropped hstream)
  | dropStream k =>
    obtain ⟨w, hw, rfl⟩ := Option.map_eq_some_iff.mp h
    cases k with
    | none => exact absurd rfl horderly
    | some k => exact .inl (.of_replaced hw (.inl rfl) rfl)
  | stop k =>
    obtain ⟨w, hw, rfl⟩ := Option.map_eq_some_iff.mp h
    exact .inl (.of_replaced hw (.inr rfl) rfl)
  | post pdu =>
    simp only [step] at h
    split_ifs at h
    split at h
    · next session hseal =>
      obtain rfl := Option.some.inj h
      obtain ⟨hkey, hctr⟩ := sealRequest_frame hseal
      exact .inl (.of_session hkey hctr true)
    · obtain rfl := Option.some.inj h
      exact .inl (.of_session rfl rfl a.locked)
  | reply r =>
    obtain ⟨-, rfl⟩ := guarded_eq_some.mp h
    obtain ⟨hkey, hctr⟩ := openReply_frame (P := P) a.session r
    exact .inl (.of_session hkey hctr false)
  | cancel =>
    obtain ⟨-, rfl⟩ := guarded_eq_some.mp h
    exact .inl (.of_session rfl rfl false)

end

end ThreadAccessory
end HapRust.Thread
