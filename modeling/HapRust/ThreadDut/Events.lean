import HapRust.Thread.Blockwise
import HapRust.Thread.EventRecords
import HapRust.Thread.Watch
import HapRust.ThreadDut.Server

/-! Events on their way from the accessory that pushes them to the streams of the
controller's watchers. -/

namespace HapRust.ThreadDut
open Lib Crypto Thread

def eventRecord (event : Event) : Bytes :=
  [0] ++ leBytes 2 event.1.toNat ++ leBytes 2 (valueBody event.2).length ++ valueBody event.2

section
variable {events : List Event}

theorem decodeEvents_eventRecord_append {event : Event}
    (hbody : (valueBody event.2).length ≤ 65535) (rest : Bytes) :
    decodeEvents (eventRecord event ++ rest) = (decodeEvents rest).map (event :: ·) := by
  let record : EventRecord := ⟨0, event.1, valueBody event.2, hbody⟩
  have hevent : record.event = .ok event := by
    have hvalue : bodyValue (valueBody event.2) = .ok event.2 := bodyValue_encodeValueBody _
    rw [EventRecord.event, hvalue]
    rfl
  have hdecode := record.decodeEvents_bytes rest
  rw [hevent, ok_bind] at hdecode
  refine Eq.trans hdecode ?_
  cases decodeEvents rest <;> rfl

theorem decodeEvents_eventRecords (h : ∀ e ∈ events, (valueBody e.2).length ≤ 65535) :
    decodeEvents (events.flatMap eventRecord) = .ok events := by
  induction events with
  | nil => rfl
  | cons e events ih =>
    have hrest := ih fun e' he' => h e' (List.mem_cons_of_mem e he')
    rw [List.flatMap_cons, decodeEvents_eventRecord_append (h e (List.mem_cons_self ..)), hrest]
    rfl

/-- The records of the accessory are read back in order; the loop ends on every payload, and
accepts it just if it is a concatenation of whole records with valid bodies, so not if its last
record breaks off. -/
theorem decodeEvents_exact :
    (∀ events : List Event, (∀ e ∈ events, (valueBody e.2).length ≤ 65535) →
      decodeEvents (events.flatMap eventRecord) = .ok events) ∧
    (∀ payload rounds, payload.length < rounds →
      eventLoop payload rounds 0 [] = some (decodeEvents payload)) ∧
    (∀ payload events, decodeEvents payload = .ok events ↔
      ∃ records : List EventRecord, payload = records.flatMap EventRecord.bytes ∧
        records.mapM EventRecord.event = .ok events) ∧
    ∀ (records : List EventRecord) (record : EventRecord) front,
      front ≠ [] → front <+: record.bytes → front ≠ record.bytes →
        ∃ e, decodeEvents (records.flatMap EventRecord.bytes ++ front) = .error e := by
  refine ⟨fun events => decodeEvents_eventRecords, ?_,
    fun payload events => EventRecord.decodeEvents_eq_ok,
    fun records record front => EventRecord.decodeEvents_truncated records record⟩
  intro payload rounds hrounds
  have hloop := eventLoop_eq payload [] (show payload.length - 0 < rounds from hrounds)
  rw [List.drop_zero] at hloop
  rw [hloop]
  cases decodeEvents payload <;> rfl

theorem decodeEvents_exact_two :
    decodeEvents (eventRecord (9, List.replicate 255 7) ++ (eventRecord (10, []) ++ [])) =
      .ok [(9, List.replicate 255 7), (10, [])] := by
  refine decodeEvents_exact.1 [(9, List.replicate 255 7), (10, [])] ?_
  intro e he
  have hlength : (valueBody e.2).length = e.2.length + 2 * (e.2.length / 255 + 1) :=
    length_encodeValueBody e.2
  have hvalue : e.2.length ≤ 255 := by
    rcases List.mem_pair.mp he with rfl | rfl
    · rw [List.length_replicate]
    · exact Nat.zero_le 255
  omega

end

def Server.pushEvent (P : Primitives) (s : Server) (event : Event) :
    Except DutError (Option (Packet × Server)) :=
  if event.1 ∉ s.accessory.subscriptions then .ok none
  else if 65535 < (valueBody event.2).length then .ok none
  else
    match s.accessory.session with
    | none => .ok none
    | some session => do
      let (sealed, session') ← session.sealEvent P (eventRecord event)
      return some (⟨.confirmable, 0x03, s.nextMid, tokenBytes (s.nextMid + 1), "", none, sealed⟩,
        { s with
          accessory := { s.accessory with session := some session' }
          nextMid := s.nextMid + 2 })

structure EventSystem where
  controller : ThreadAccessory
  server : Server
  pushed : List (Event × Packet)
  arrivedAt : List Nat

inductive EventAction where
  | push (event : Event)
  | request (payload : Bytes)
  | deliver (i : Nat)
  | controller (act : WatchAction)

namespace EventSystem

def start (controller : ThreadAccessory) (server : Server) : EventSystem := ⟨controller, server, [], []⟩

def receive [CoapLite] (s : EventSystem) (i : Nat) (put : Packet) : EventSystem :=
  { s with
    controller :=
      { s.controller with udp := s.controller.udp.readerLoop (put.received Thread.recvBuf) }
    arrivedAt :=
      if i = s.arrivedAt.length then s.arrivedAt ++ [s.controller.streams.length] else s.arrivedAt }

section
variable (P : Primitives)

def step [CoapLite] (s : EventSystem) : EventAction → Option EventSystem
  | .push event =>
    match s.server.pushEvent P event with
    | .ok (some (put, server)) => some { s with server := server, pushed := s.pushed ++ [(event, put)] }
    | _ => some s
  | .request payload => some { s with
      server := { s.server with accessory := (s.server.accessory.securePdu P payload).2 } }
  -- the PUTs arrive in order, and each may arrive again
  | .deliver i =>
    if i ≤ s.arrivedAt.length then (s.pushed[i]?).map fun x => s.receive i x.2 else none
  | .controller act => (s.controller.step P act).map fun c => { s with controller := c }

end

def Orderly [CoapLite] (s : EventSystem) : EventAction → Prop
  | .deliver i => i = s.arrivedAt.length ∧
    (s.pushed[i]?).all (fun x => decide (x.2.Fits Thread.recvBuf)) = true
  | .controller act => s.controller.Orderly act
  | _ => True

instance [CoapLite] (s : EventSystem) : (a : EventAction) → Decidable (s.Orderly a)
  | .deliver i => inferInstanceAs (Decidable (i = s.arrivedAt.length ∧ (s.pushed[i]?).all _ = true))
  | .controller act => inferInstanceAs (Decidable (s.controller.Orderly act))
  | .push _ | .request _ => isTrue trivial

/-! ## Where the events are -/

def numbered (pushed : List (Event × Packet)) : List (Nat × Event) := pushed.mapIdx fun i x => (i, x.1)

theorem numbered_take (pushed : List (Event × Packet)) (n : Nat) :
    numbered (pushed.take n) = (numbered pushed).take n := by
  refine List.ext_getElem? fun i => ?_
  simp only [numbered, List.getElem?_mapIdx, List.getElem?_take]
  split_ifs <;> rfl

theorem numbered_take_succ {pushed : List (Event × Packet)} {n : Nat} {x : Event × Packet}
    (h : pushed[n]? = some x) :
    numbered (pushed.take (n + 1)) = numbered (pushed.take n) ++ [(n, x.1)] := by
  rw [numbered_take, numbered_take, List.take_add_one, numbered, List.getElem?_mapIdx, h]
  rfl

inductive Hand (s : EventSystem) : Nat → Nat → Option (WatchPhase × Bool) → Prop
  | none : Hand s s.controller.taken s.controller.taken none
  | waiting : Hand s s.controller.taken s.controller.taken (some (.waiting, false))
  | taken {n : Nat} {x : Event × Packet} (hn : n + 1 = s.controller.taken)
      (hx : s.pushed[n]? = some x) : Hand s n n (some (.taken n x.2.payload, false))
  | sending {n : Nat} {x : Event × Packet} (hn : n + 1 = s.controller.taken)
      (hx : s.pushed[n]? = some x) : Hand s n (n + 1) (some (.sending n x.1 [], false))

def IsPut (x : Event × Packet) : Prop := x.2.isEventPut = true ∧ (valueBody x.1.2).length ≤ 65535

def Channel (P : Primitives) (s : EventSystem) (opened : Nat) : Prop :=
  ∃ a, s.server.accessory.session = some a ∧ a.eventKey = s.controller.session.eventKey ∧
    InStep P.chacha20Poly1305 a.eventKey a.eventCtr s.controller.session.eventCtr
      ((s.pushed.drop opened).map (·.2.payload)) (s.pushed.map (eventRecord ·.1))
      ((s.pushed.take opened).map (eventRecord ·.1))

def Placed (streams : List (List (Nat × Event))) (arrivedAt : List Nat) : Prop :=
  ∀ (k : Nat) l j e n, streams[k]? = some l → (j, e) ∈ l → arrivedAt[j]? = some n → n ≤ k + 1

theorem placed_concat {streams : List (List (Nat × Event))} {arrivedAt : List Nat}
    {last : List (Nat × Event)} (h : Placed streams arrivedAt)
    (hlast : ∀ n ∈ arrivedAt, n ≤ streams.length + 1) : Placed (streams ++ [last]) arrivedAt := by
  intro k l j e n hl hj hn
  rcases Nat.lt_or_ge k streams.length with hk | hk
  · rw [List.getElem?_append_left hk] at hl
    exact h k l j e n hl hj hn
  · have hle := hlast n (List.mem_of_getElem? hn)
    omega

structure Inv (P : Primitives) (s : EventSystem) (sent opened : Nat) : Prop where
  channel : s.Channel P opened
  counter : s.controller.session.eventCtr = UInt64.ofNat opened
  hand : Hand s sent opened (s.controller.current.map fun w => (w.phase, w.dropped))
  streams : s.controller.streams.flatten = numbered (s.pushed.take sent)
  puts : ∀ x ∈ s.pushed, IsPut x
  received : s.arrivedAt.length ≤ s.pushed.length
  taken : s.controller.taken ≤ s.arrivedAt.length
  queue : s.controller.udp.events =
    ((s.pushed.take s.arrivedAt.length).drop s.controller.taken).map (·.2.payload)
  arrived : ∀ n ∈ s.arrivedAt, n ≤ s.controller.streams.length
  placed : Placed s.controller.streams s.arrivedAt
  idle : ∀ w ∈ s.controller.replaced, w.phase = .waiting ∨ w.phase = .stopped

section
variable {P : Primitives} {s : EventSystem} {sent opened : Nat}

theorem Hand.sent_le {phase : Option (WatchPhase × Bool)} (h : Hand s sent opened phase) :
    sent ≤ s.controller.taken := by
  cases h with
  | none | waiting => exact Nat.le_refl _
  | taken hn | sending hn => omega

theorem Hand.taken_le {phase : Option (WatchPhase × Bool)} (h : Hand s sent opened phase) :
    s.controller.taken ≤ sent + 1 := by
  cases h with
  | none | waiting => exact Nat.le_succ _
  | taken hn | sending hn => exact hn.ge

theorem Hand.opened_le {phase : Option (WatchPhase × Bool)} (h : Hand s sent opened phase) :
    opened ≤ s.controller.taken := by
  cases h with
  | none | waiting => exact Nat.le_refl _
  | taken hn | sending hn => omega

theorem Hand.congr {s' : EventSystem} {phase : Option (WatchPhase × Bool)}
    (h : Hand s sent opened phase) (htaken : s'.controller.taken = s.controller.taken)
    (hpushed : ∀ {n : Nat} {x}, s.pushed[n]? = some x → s'.pushed[n]? = some x) :
    Hand s' sent opened phase := by
  cases h with
  | none => exact htaken ▸ .none
  | waiting => exact htaken ▸ .waiting
  | taken hn hx => exact .taken (htaken ▸ hn) (hpushed hx)
  | sending hn hx => exact .sending (htaken ▸ hn) (hpushed hx)

theorem Hand.running {phase : WatchPhase} {dropped : Bool}
    (h : Hand s sent opened (some (phase, dropped))) : phase ≠ .stopped ∧ dropped = false := by
  cases h <;> exact ⟨nofun, rfl⟩

theorem Hand.of_waiting {dropped : Bool} (h : Hand s sent opened (some (.waiting, dropped))) :
    sent = s.controller.taken ∧ opened = s.controller.taken ∧ dropped = false := by
  cases h
  exact ⟨rfl, rfl, rfl⟩

theorem Hand.of_taken {n : Nat} {encrypted : Bytes} {dropped : Bool}
    (h : Hand s sent opened (some (.taken n encrypted, dropped))) :
    sent = n ∧ opened = n ∧ n + 1 = s.controller.taken ∧ dropped = false ∧
      ∃ x, s.pushed[n]? = some x ∧ encrypted = x.2.payload := by
  cases h with
  | taken hn hx => exact ⟨rfl, rfl, hn, rfl, _, hx, rfl⟩

theorem Hand.of_sending {n : Nat} {event : Event} {rest : List Event} {dropped : Bool}
    (h : Hand s sent opened (some (.sending n event rest, dropped))) :
    sent = n ∧ opened = n + 1 ∧ n + 1 = s.controller.taken ∧ dropped = false ∧ rest = [] ∧
      ∃ x, s.pushed[n]? = some x ∧ event = x.1 := by
  cases h with
  | sending hn hx => exact ⟨rfl, rfl, hn, rfl, rfl, _, hx, rfl⟩

theorem Inv.unsent (h : s.Inv P sent opened) {c : ThreadAccessory} {opened' : Nat}
    (hchannel : Channel P { s with controller := c } opened')
    (hcounter : c.session.eventCtr = UInt64.ofNat opened')
    (hhand : Hand { s with controller := c } sent opened'
      (c.current.map fun w => (w.phase, w.dropped)))
    (hstreams : c.streams = s.controller.streams) (htaken : c.taken ≤ s.arrivedAt.length)
    (hqueue : c.udp.events = ((s.pushed.take s.arrivedAt.length).drop c.taken).map (·.2.payload))
    (hidle : ∀ w ∈ c.replaced, w.phase = .waiting ∨ w.phase = .stopped) :
    Inv P { s with controller := c } sent opened' where
  channel := hchannel
  counter := hcounter
  hand := hhand
  streams := by rw [hstreams]; exact h.streams
  puts := h.puts
  received := h.received
  taken := htaken
  queue := hqueue
  arrived := by rw [hstreams]; exact h.arrived
  placed := by rw [hstreams]; exact h.placed
  idle := hidle

theorem Inv.same (h : s.Inv P sent opened) {c : ThreadAccessory} (hsame : s.controller.Same c) :
    Inv P { s with controller := c } sent opened := by
  obtain ⟨a, ha, hkey, hstep⟩ := h.channel
  refine h.unsent ?_ (hsame.eventCtr.trans h.counter) ?_ hsame.streams ?_ ?_ (hsame.replaced h.idle)
  · refine ⟨a, ha, hkey.trans hsame.eventKey.symm, ?_⟩
    rw [hsame.eventCtr]
    exact hstep
  · rw [hsame.current]
    exact h.hand.congr hsame.taken id
  · rw [hsame.taken]
    exact h.taken
  · rw [hsame.events, hsame.taken]
    exact h.queue

theorem Inv.watch (h : s.Inv P sent opened)
    (hwaiting : ∀ w, s.controller.current = some w → w.phase = .waiting) :
    Inv P { s with controller := { s.controller with
      current := some .new
      replaced := s.controller.replaced ++ s.controller.current.toList } } sent opened := by
  have hstreams : ThreadAccessory.streams { s.controller with
      current := some .new
      replaced := s.controller.replaced ++ s.controller.current.toList } =
      s.controller.streams ++ [[]] := by
    cases hcurrent : s.controller.current <;>
      simp [ThreadAccessory.streams, hcurrent, Watcher.new, Watcher.stream]
  constructor
  · exact h.channel
  · exact h.counter
  · have hhand := h.hand
    cases hcurrent : s.controller.current with
    | none =>
      rw [hcurrent] at hhand
      cases hhand
      exact .waiting
    | some w =>
      rw [hcurrent, Option.map_some, hwaiting w hcurrent] at hhand
      obtain ⟨rfl, rfl, -⟩ := hhand.of_waiting
      exact .waiting
  · rw [hstreams, List.flatten_concat, List.append_nil]
    exact h.streams
  · exact h.puts
  · exact h.received
  · exact h.taken
  · exact h.queue
  · intro n hn
    rw [hstreams, List.length_append]
    exact Nat.le_add_right_of_le (h.arrived n hn)
  · rw [hstreams]
    exact placed_concat h.placed fun n hn => Nat.le_succ_of_le (h.arrived n hn)
  · intro w hw
    rcases List.mem_append.mp hw with hw | hw
    · exact h.idle w hw
    · exact .inl (hwaiting w (Option.mem_toList.mp hw))

theorem Inv.head (h : s.Inv P sent opened) {encrypted : Bytes} {rest : List Bytes}
    (hevents : s.controller.udp.events = encrypted :: rest) :
    s.controller.taken < s.arrivedAt.length ∧
    ∃ x, s.pushed[s.controller.taken]? = some x ∧ encrypted = x.2.payload ∧
      rest = ((s.pushed.take s.arrivedAt.length).drop (s.controller.taken + 1)).map (·.2.payload) := by
  have hqueue := h.queue
  have hlen : (s.pushed.take s.arrivedAt.length).length = s.arrivedAt.length := by
    rw [List.length_take]
    exact Nat.min_eq_left h.received
  rw [hevents] at hqueue
  have hlt : s.controller.taken < s.arrivedAt.length := by
    by_contra hge
    rw [List.drop_eq_nil_of_le (by omega)] at hqueue
    cases hqueue
  rw [List.drop_eq_getElem_cons (by omega), List.map_cons] at hqueue
  obtain ⟨rfl, rfl⟩ := List.cons.inj hqueue
  refine ⟨hlt, _, ?_, rfl, rfl⟩
  rw [List.getElem_take, List.getElem?_eq_getElem]

theorem Inv.take (h : s.Inv P sent opened) {w : Watcher} (hcurrent : s.controller.current = some w)
    (hwaiting : w.phase = .waiting) {encrypted : Bytes} {rest : List Bytes}
    (hevents : s.controller.udp.events = encrypted :: rest) {c : ThreadAccessory}
    (hc : c = (s.controller.dequeue rest).setWatcher none
      { w with phase := .taken s.controller.taken encrypted }) :
    Inv P { s with controller := c } sent opened := by
  obtain ⟨hlt, x, hx, rfl, rfl⟩ := h.head hevents
  have hstreams : c.streams = s.controller.streams := by
    rw [hc]
    exact ThreadAccessory.streams_setWatcher hcurrent rfl
  subst hc
  have hhand := h.hand
  rw [hcurrent, Option.map_some, hwaiting] at hhand
  obtain ⟨rfl, rfl, hdropped⟩ := hhand.of_waiting
  refine h.unsent h.channel h.counter ?_ hstreams hlt rfl h.idle
  simp only [ThreadAccessory.setWatcher, Option.map_some, hdropped]
  exact .taken rfl hx

theorem decodeEvents_eventRecord {event : Event} (hbody : (valueBody event.2).length ≤ 65535) :
    decodeEvents (eventRecord event) = .ok [event] := by
  have hdecode := decodeEvents_eventRecord_append hbody []
  rw [List.append_nil] at hdecode
  exact hdecode

theorem Channel.openNext (hA : P.chacha20Poly1305.Inverts) {n : Nat} (h : s.Channel P n)
    {x : Event × Packet} (hx : s.pushed[n]? = some x) :
    s.controller.session.openEvent P x.2.payload = .ok (eventRecord x.1,
      { s.controller.session with eventCtr := s.controller.session.eventCtr + 1 }) ∧
    ∀ {c : ThreadAccessory}, c.session =
        { s.controller.session with eventCtr := s.controller.session.eventCtr + 1 } →
      Channel P { s with controller := c } (n + 1) := by
  obtain ⟨a, ha, hkey, hstep⟩ := h
  obtain ⟨hn, rfl⟩ := List.getElem?_eq_some_iff.mp hx
  rw [List.drop_eq_getElem_cons hn, List.map_cons] at hstep
  obtain ⟨msg, hopen, hnext⟩ := hstep.openHead hA
  have hmsg : (s.pushed.take n).map (eventRecord ·.1) ++ [msg] =
      (s.pushed.take (n + 1)).map (eventRecord ·.1) := by
    have htake := List.prefix_iff_eq_take.mp hnext.received_isPrefix
    rwa [List.length_append, List.length_map, List.length_take, Nat.min_eq_left hn.le,
      List.length_singleton, ← List.map_take] at htake
  rw [hmsg] at hnext
  rw [List.take_add_one, List.getElem?_eq_getElem hn, Option.toList_some, List.map_append,
    List.map_singleton] at hmsg
  obtain rfl := List.singleton_inj.mp (List.append_cancel_left hmsg)
  refine ⟨?_, ?_⟩
  · rw [hkey] at hopen
    rw [CoapSession.openEvent, hopen]
    rfl
  · intro c hc
    refine ⟨a, ha, ?_, ?_⟩
    · dsimp only
      rw [hc]
      exact hkey
    · dsimp only
      rw [hc]
      exact hnext

theorem Inv.openEvent (hA : P.chacha20Poly1305.Inverts) (h : s.Inv P sent opened) {w : Watcher}
    (hcurrent : s.controller.current = some w) {n : Nat} {encrypted : Bytes}
    (htaken : w.phase = .taken n encrypted) {c : ThreadAccessory}
    (hc : c = s.controller.openEvent P none w n encrypted) :
    Inv P { s with controller := c } sent (opened + 1) := by
  have hhand := h.hand
  rw [hcurrent, Option.map_some, htaken] at hhand
  obtain ⟨rfl, rfl, hn, hdropped, x, hx, rfl⟩ := hhand.of_taken
  obtain ⟨hopen, hchannel⟩ := h.channel.openNext hA hx
  have hdecode := decodeEvents_eventRecord (h.puts x (List.mem_of_getElem? hx)).2
  have hc : c = { s.controller with
      session := { s.controller.session with eventCtr := s.controller.session.eventCtr + 1 }
      current := some { w with phase := .sending opened x.1 [] } } := by
    rw [hc, ThreadAccessory.openEvent, hopen]
    dsimp only
    rw [hdecode]
    rfl
  have hstreams : c.streams = s.controller.streams := by
    rw [hc]
    simp only [ThreadAccessory.streams, hcurrent, Option.map_some, Watcher.stream]
  refine h.unsent (hchannel (by rw [hc])) ?_ ?_ hstreams ?_ ?_ ?_
  · rw [hc]
    dsimp only
    rw [h.counter, UInt64.ofNat_add]
    rfl
  · rw [hc]
    simp only [Option.map_some, hdropped]
    exact .sending hn hx
  · rw [hc]
    exact h.taken
  · rw [hc]
    exact h.queue
  · rw [hc]
    exact h.idle

theorem of_mem_numbered {pushed : List (Event × Packet)} {j : Nat} {e : Event}
    (h : (j, e) ∈ numbered pushed) : j < pushed.length := by
  obtain ⟨i, hi, heq⟩ := List.mem_mapIdx.mp h
  obtain ⟨rfl, -⟩ := Prod.mk.inj heq
  exact hi

theorem Inv.send (h : s.Inv P sent opened) {w w' : Watcher}
    (hcurrent : s.controller.current = some w) (hsend : w.send = some w') {c : ThreadAccessory}
    (hc : c = s.controller.setWatcher none w') : Inv P { s with controller := c } opened opened := by
  have hhand := h.hand
  rw [hcurrent, Option.map_some] at hhand
  obtain ⟨-, hdropped⟩ := hhand.running
  obtain ⟨n, event, rest, hphase, rfl⟩ := Watcher.of_send hsend hdropped
  rw [hphase] at hhand
  obtain ⟨rfl, rfl, hn, -, rfl, x, hx, rfl⟩ := hhand.of_sending
  have hstreams : c.streams = s.controller.replaced.map Watcher.stream ++ [w.stream ++ [(sent, x.1)]] := by
    rw [hc]
    simp only [ThreadAccessory.streams, ThreadAccessory.setWatcher, Option.map_some, Option.toList_some,
      Watcher.forward, Watcher.stream, List.append_assoc]
  have hbefore : s.controller.streams = s.controller.replaced.map Watcher.stream ++ [w.stream] := by
    simp only [ThreadAccessory.streams, hcurrent, Option.map_some, Option.toList_some]
  have hlen : c.streams.length = s.controller.streams.length := by
    rw [hstreams, hbefore, List.length_append, List.length_append]
    rfl
  constructor
  · rw [hc]
    exact h.channel
  · rw [hc]
    exact h.counter
  · rw [hc]
    simp only [ThreadAccessory.setWatcher, Option.map_some, Watcher.forward, hdropped, hn]
    exact .waiting
  · have hflat := h.streams
    rw [hbefore, List.flatten_concat] at hflat
    rw [hstreams, List.flatten_concat, ← List.append_assoc, hflat, numbered_take_succ hx]
  · exact h.puts
  · exact h.received
  · rw [hc]
    exact h.taken
  · rw [hc]
    exact h.queue
  · rw [hlen]
    exact h.arrived
  · have harrived := h.arrived
    have hplaced := h.placed
    rw [hbefore] at harrived hplaced
    rw [hstreams]
    refine placed_concat (fun k l j e m hl => ?_) ?_
    · apply hplaced
      rw [List.getElem?_append_left (List.getElem?_eq_some_iff.mp hl).1]
      exact hl
    · rwa [List.length_append, List.length_singleton] at harrived
  · rw [hc]
    exact h.idle

/-! ## Steps of the accessory and of the network -/

theorem pushEvent_cases (hA : P.chacha20Poly1305.Inverts) {server : Server} {a : AccessorySession}
    (ha : server.accessory.session = some a) (event : Event) :
    server.pushEvent P event = .ok none ∨
    ∃ put server', server.pushEvent P event = .ok (some (put, server')) ∧
      IsPut (event, put) ∧
      P.chacha20Poly1305.encrypt a.eventKey (counterNonce a.eventCtr) [] (eventRecord event) =
        some put.payload ∧
      server'.accessory.session = some { a with eventCtr := a.eventCtr + 1 } := by
  unfold Server.pushEvent
  split
  · exact .inl rfl
  split
  · exact .inl rfl
  · next hbody =>
    obtain ⟨sealed, hsealed, -⟩ := hA a.eventKey (counterNonce a.eventCtr) [] (eventRecord event)
    have hseal : a.sealEvent P (eventRecord event) =
        .ok (sealed, { a with eventCtr := a.eventCtr + 1 }) := by
      rw [AccessorySession.sealEvent, sealNext, hsealed]
      rfl
    simp only [ha, hseal, ok_bind]
    have hclass : (0x03 : UInt8) >>> 5 = 0 := by decide
    exact .inr ⟨_, _, rfl, ⟨by simp [Packet.isEventPut, hclass], Nat.le_of_not_lt hbody⟩, hsealed, rfl⟩

theorem Inv.push (h : s.Inv P sent opened) {a : AccessorySession}
    (ha : s.server.accessory.session = some a) {event : Event} {put : Packet} {server : Server}
    (hput : IsPut (event, put))
    (hsealed : P.chacha20Poly1305.encrypt a.eventKey (counterNonce a.eventCtr) [] (eventRecord event) =
      some put.payload)
    (hserver : server.accessory.session = some { a with eventCtr := a.eventCtr + 1 }) :
    Inv P { s with server := server, pushed := s.pushed ++ [(event, put)] } sent opened := by
  have htaken : s.controller.taken ≤ s.pushed.length := h.taken.trans h.received
  have hopened : opened ≤ s.pushed.length := h.hand.opened_le.trans htaken
  have hsent : sent ≤ s.pushed.length := h.hand.sent_le.trans htaken
  constructor
  · obtain ⟨a', ha', hkey, hstep⟩ := h.channel
    cases ha.symm.trans ha'
    refine ⟨_, hserver, hkey, ?_⟩
    have hseal : sealNext P.chacha20Poly1305 a.eventKey a.eventCtr (eventRecord event) =
        some (put.payload, a.eventCtr + 1) := by rw [sealNext, hsealed]; rfl
    have hnext := hstep.seal hseal
    simpa only [List.drop_append_of_le_length hopened, List.take_append_of_le_length hopened,
      List.map_append, List.map_cons, List.map_nil] using hnext
  · exact h.counter
  · refine h.hand.congr rfl fun hx => ?_
    dsimp only
    rwa [List.getElem?_append_left (List.getElem?_eq_some_iff.mp hx).1]
  · dsimp only
    rw [List.take_append_of_le_length hsent]
    exact h.streams
  · intro x hx
    rcases List.mem_append.mp hx with hx | hx
    · exact h.puts x hx
    · rw [List.mem_singleton.mp hx]
      exact hput
  · exact h.received.trans (by rw [List.length_append]; exact Nat.le_add_right _ _)
  · exact h.taken
  · dsimp only
    rw [List.take_append_of_le_length h.received]
    exact h.queue
  · exact h.arrived
  · exact h.placed
  · exact h.idle

theorem securePdu_session (a : ReferenceAccessory) {session : AccessorySession}
    (hsession : a.session = some session) (payload : Bytes) :
    ∃ session', (a.securePdu P payload).2.session = some session' ∧
      session'.eventKey = session.eventKey ∧ session'.eventCtr = session.eventCtr := by
  unfold ReferenceAccessory.securePdu
  rw [hsession]
  dsimp only
  cases hopen : session.openRequest P payload with
  | error e => exact ⟨session, hsession, rfl, rfl⟩
  | ok opened =>
    obtain ⟨plaintext, session'⟩ := opened
    obtain ⟨next, -, hok⟩ := bind_eq_ok.mp hopen
    obtain ⟨-, rfl⟩ := Prod.mk.inj (Except.ok.inj hok)
    dsimp only
    split
    · exact ⟨_, rfl, rfl, rfl⟩
    · split
      · next hseal =>
        obtain ⟨next, -, hok⟩ := bind_eq_ok.mp hseal
        obtain ⟨-, rfl⟩ := Prod.mk.inj (Except.ok.inj hok)
        exact ⟨_, rfl, rfl, rfl⟩
      · exact ⟨_, rfl, rfl, rfl⟩

theorem Inv.request (h : s.Inv P sent opened) (payload : Bytes) :
    Inv P { s with server :=
      { s.server with accessory := (s.server.accessory.securePdu P payload).2 } } sent opened := by
  obtain ⟨a, ha, hkey, hstep⟩ := h.channel
  obtain ⟨a', ha', hkey', hctr'⟩ := securePdu_session (P := P) s.server.accessory ha payload
  refine { h with channel := ⟨a', ha', hkey'.trans hkey, ?_⟩, hand := h.hand.congr rfl id }
  rw [hkey', hctr']
  exact hstep

theorem Inv.deliver [CoapLite] (h : s.Inv P sent opened) {x : Event × Packet}
    (hx : s.pushed[s.arrivedAt.length]? = some x) (hfits : x.2.Fits Thread.recvBuf) :
    Inv P (s.receive s.arrivedAt.length x.2) sent opened := by
  have hput := (h.puts x (List.mem_of_getElem? hx)).1
  have hloop : s.controller.udp.readerLoop x.2 = { UdpCoapTransport.send
      { s.controller.udp with posts := fun t => (s.controller.udp.posts t).map (Post.note x.2) }
      (.ack 0x43 x.2.messageId x.2.token) with events := s.controller.udp.events ++ [x.2.payload] } :=
    if_pos hput
  rw [receive, Packet.received_of_fits hfits, if_pos rfl, hloop]
  have hlt := (List.getElem?_eq_some_iff.mp hx).1
  constructor
  · exact h.channel
  · exact h.counter
  · exact h.hand.congr rfl id
  · exact h.streams
  · exact h.puts
  · dsimp only
    rw [List.length_append]
    exact hlt
  · exact h.taken.trans (by dsimp only; rw [List.length_append]; exact Nat.le_add_right _ _)
  · dsimp only
    rw [List.length_append, List.length_singleton, List.take_add_one, hx, Option.toList_some,
      List.drop_append_of_le_length, List.map_append, h.queue]
    · rfl
    · rw [List.length_take, Nat.min_eq_left h.received]
      exact h.taken
  · intro n hn
    rcases List.mem_append.mp hn with hn | hn
    · exact h.arrived n hn
    · exact (List.mem_singleton.mp hn).le
  · intro k l j e n hl hj hn
    have hmem : (j, e) ∈ numbered (s.pushed.take sent) := by
      rw [← h.streams]
      exact List.mem_flatten_of_mem (List.mem_of_getElem? hl) hj
    have hlt' := of_mem_numbered hmem
    have hsent := h.hand.sent_le.trans h.taken
    rw [List.length_take] at hlt'
    dsimp only at hn
    rw [List.getElem?_append_left (by omega)] at hn
    exact h.placed k l j e n hl hj hn
  · exact h.idle

/-! ## Whole runs -/

theorem Inv.moves (hA : P.chacha20Poly1305.Inverts) (h : s.Inv P sent opened) {act : WatchAction}
    {c : ThreadAccessory} (hmoves : s.controller.Moves P act c) :
    ∃ sent opened, Inv P { s with controller := c } sent opened := by
  cases hmoves with
  | watch _ hwaiting hc =>
    rw [hc]
    exact ⟨sent, opened, h.watch hwaiting⟩
  | send w w' hcurrent hsend hc => exact ⟨opened, opened, h.send hcurrent hsend hc⟩
  | resume hstep =>
    obtain ⟨w, n, encrypted, hcurrent, hphase, hc⟩ := ThreadAccessory.resume_cases hstep
    exact ⟨sent, opened + 1, h.openEvent hA hcurrent hphase hc⟩
  | take _ hstep =>
    obtain ⟨w, encrypted, rest, hcurrent, hwaiting, hevents, ⟨-, hc⟩ | ⟨-, hc⟩⟩ :=
      ThreadAccessory.take_cases hstep
    · exact ⟨sent, opened, h.take hcurrent hwaiting hevents hc⟩
    · have hinv := h.take hcurrent hwaiting hevents rfl
      obtain ⟨session, phase, -, heq⟩ := ThreadAccessory.openEvent_eq (P := P)
        (s.controller.dequeue rest) w s.controller.taken encrypted
      exact ⟨sent, opened + 1, hinv.openEvent hA rfl rfl (hc.trans ((heq _ _).trans (heq _ _).symm))⟩

theorem inv_step [CoapLite] (hA : P.chacha20Poly1305.Inverts) (h : s.Inv P sent opened) {a : EventAction}
    {s' : EventSystem} (horderly : s.Orderly a) (hstep : s.step P a = some s') :
    ∃ sent opened, s'.Inv P sent opened := by
  cases a with
  | push event =>
    obtain ⟨a, ha, -⟩ := h.channel
    rcases pushEvent_cases hA ha event with hpush | ⟨put, server, hpush, hput, hsealed, hserver⟩
    · simp only [step, hpush] at hstep
      obtain rfl := Option.some.inj hstep
      exact ⟨sent, opened, h⟩
    · simp only [step, hpush] at hstep
      obtain rfl := Option.some.inj hstep
      exact ⟨sent, opened, h.push ha hput hsealed hserver⟩
  | request payload =>
    obtain rfl := Option.some.inj hstep
    exact ⟨sent, opened, h.request payload⟩
  | deliver i =>
    obtain ⟨rfl, hfits⟩ := horderly
    rw [step, if_pos (Nat.le_refl _)] at hstep
    obtain ⟨x, hx, rfl⟩ := Option.map_eq_some_iff.mp hstep
    rw [hx] at hfits
    exact ⟨sent, opened, h.deliver hx (of_decide_eq_true hfits)⟩
  | controller act =>
    obtain ⟨c, hc, rfl⟩ := Option.map_eq_some_iff.mp hstep
    rcases ThreadAccessory.same_or_moves h.idle horderly hc with hsame | hmoves
    · exact ⟨sent, opened, h.same hsame⟩
    · exact h.moves hA hmoves

/-- The two ends have the same event key, no event has been pushed, and no watcher started. -/
structure Fresh (s : EventSystem) : Prop where
  paired : ∃ a, s.server.accessory.session = some a ∧ a.eventKey = s.controller.session.eventKey ∧
    a.eventCtr = 0
  counter : s.controller.session.eventCtr = 0
  taken : s.controller.taken = 0
  events : s.controller.udp.events = []
  current : s.controller.current = none ∨ s.controller.current = some .new
  replaced : s.controller.replaced = []
  pushed : s.pushed = []
  arrivedAt : s.arrivedAt = []

theorem Fresh.inv (h : s.Fresh) : s.Inv P 0 0 := by
  have hstreams : s.controller.streams.flatten = [] := by
    rcases h.current with hcurrent | hcurrent <;>
      simp [ThreadAccessory.streams, h.replaced, hcurrent, Watcher.new, Watcher.stream]
  obtain ⟨a, ha, hkey, hctr⟩ := h.paired
  constructor
  · refine ⟨a, ha, hkey, ?_⟩
    rw [h.pushed, hctr, h.counter]
    exact .start 0
  · exact h.counter
  · have htaken := h.taken
    rcases h.current with hcurrent | hcurrent
    · rw [hcurrent]
      exact htaken ▸ .none
    · rw [hcurrent]
      exact htaken ▸ .waiting
  · rw [hstreams]
    rfl
  · rw [h.pushed]
    exact List.forall_mem_nil _
  · rw [h.arrivedAt]
    exact Nat.zero_le _
  · exact h.taken.trans_le (Nat.zero_le _)
  · rw [h.events, h.arrivedAt, h.pushed, h.taken]
    rfl
  · rw [h.arrivedAt]
    exact List.forall_mem_nil _
  · rw [h.arrivedAt]
    intro k l j e n hl hj hn
    cases hn
  · rw [h.replaced]
    exact List.forall_mem_nil _

end

end EventSystem
end HapRust.ThreadDut
