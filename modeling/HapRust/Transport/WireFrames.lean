import HapRust.Transport.RecordStream
import HapRust.Transport.SessionPairing

/-! What the socket of a session takes: as long as no frame is sealed after a
request was left half sent, it is at every moment a first part of one stream of
frames, numbered from zero, in which whole requests follow one another. -/

namespace HapRust.Transport
open Lib Crypto

def requestBlocks (request : Nat → Request) (c : Nat) : List Bytes :=
  chunks maxBlock (encodeRequest (request c))

theorem encryptBlocks_snoc {P : Primitives} {key : Arr 32} {blocks : List Bytes}
    {counter last last' : UInt64} {wire block frame : Bytes}
    (h : encryptBlocks P key counter blocks = .ok (wire, last))
    (hframe : encryptFrame P key last block = (.ok frame, last')) :
    encryptBlocks P key counter (blocks ++ [block]) = .ok (wire ++ frame, last') := by
  induction blocks generalizing counter wire with
  | nil =>
    obtain ⟨rfl, rfl⟩ := Prod.mk.inj (Except.ok.inj h)
    rw [List.nil_append, encryptBlocks, hframe]
    simp only [encryptBlocks, ok_bind, pure_eq_ok, List.append_nil, List.nil_append]
  | cons b blocks ih =>
    rw [List.cons_append, encryptBlocks]
    rw [encryptBlocks] at h
    cases hb : encryptFrame P key counter b with
    | mk result counter' =>
      rw [hb] at h
      cases result with
      | error e => cases h
      | ok frame' =>
        obtain ⟨⟨rest, last''⟩, hrest, hsame⟩ := bind_eq_ok.mp h
        obtain ⟨rfl, rfl⟩ := Prod.mk.inj (Except.ok.inj hsame)
        simp only [ih hrest, ok_bind, pure_eq_ok, List.append_assoc]

theorem encryptFrame_eq_error {P : Primitives} {key : Arr 32} {counter counter' : UInt64}
    {block : Bytes} {e : TransportError}
    (h : encryptFrame P key counter block = (.error e, counter')) : counter = counter' := by
  unfold encryptFrame at h
  dsimp only at h
  split_ifs at h
  · exact (Prod.mk.inj h).2
  · split at h
    · exact (Prod.mk.inj h).2
    · cases h

def Phase.half : Phase → Option (List Bytes × Bytes)
  | writing done pending blocks =>
    if done ≠ [] ∧ (pending ≠ [] ∨ blocks ≠ []) then some (done, pending) else none
  | _ => none

theorem Phase.half_writing {done blocks : List Bytes} {pending : Bytes} (hdone : done ≠ [])
    (hmore : pending ≠ [] ∨ blocks ≠ []) :
    (Phase.writing done pending blocks).half = some (done, pending) := if_pos ⟨hdone, hmore⟩

theorem Phase.half_eq_some {p : Phase} {done : List Bytes} {pending : Bytes}
    (h : p.half = some (done, pending)) : ∃ blocks, p = .writing done pending blocks := by
  cases p with
  | writing done' pending' blocks =>
    simp only [Phase.half, Option.ite_none_right_eq_some, Option.some.injEq, Prod.mk.injEq] at h
    obtain ⟨-, rfl, rfl⟩ := h
    exact ⟨blocks, rfl⟩
  | _ => cases h

namespace SessionState
variable (P : Primitives) (key : Arr 32) (request : Nat → Request)

def tears (s : SessionState) : SessionAction → Bool
  | .drop c | .writeFails c => (s.phase c).half.isSome
  | .sealBlock c =>
    match s.phase c with
    | .writing done [] (block :: _) =>
      !done.isEmpty && (encryptFrame P key s.counter block).1.toOption.isNone
    | _ => false
  | _ => false

/-- No frame is sealed once a request was left half sent. -/
def Untorn (s : SessionState × Bool) : SessionAction → Prop
  | .sealBlock _ => s.2 = false
  | _ => True

instance (s : SessionState × Bool) : (a : SessionAction) → Decidable (Untorn s a)
  | .sealBlock _ => inferInstanceAs (Decidable (s.2 = false))
  | .call _ | .lockResponses _ | .lockWriter _ | .accept _ _ | .writeFails _ | .flush _ | .answer _
  | .deliver | .readerFails _ | .readerPanics | .take _ | .noResponse _ | .drop _ => isTrue trivial

/-- All along the run the socket had taken a first part of one stream: the
frames, numbered from zero, of the whole requests of `calls` one after the other
and of the first blocks of at most one more. -/
def Orderly (actions : List SessionAction) (calls : List Nat) : Prop :=
  ∃ (c k : Nat) (stream : Bytes) (last : UInt64),
    encryptBlocks P key 0
      (calls.flatMap (requestBlocks request) ++ (requestBlocks request c).take k) =
      .ok (stream, last) ∧
    ∀ before s, before <+: actions → steps (step P key request) new before = some s →
      s.wire <+: stream

structure FrameInv (s : SessionState) (torn : Bool) : Prop where
  lock : ∀ c {done pending blocks}, s.phase c = .writing done pending blocks → s.writer = some c
  frames : ∀ {c done pending blocks}, s.phase c = .writing done pending blocks →
    done = [] → pending = [] ∧ blocks ≠ []
  blocks : ∀ {c done pending blocks}, s.phase c = .writing done pending blocks →
    done ++ blocks = requestBlocks request c
  whole : torn = false → (∀ c, (s.phase c).half = none) →
    encryptBlocks P key 0 (s.received.flatMap (requestBlocks request)) = .ok (s.wire, s.counter)
  half : torn = false → ∀ {c done pending}, (s.phase c).half = some (done, pending) →
    encryptBlocks P key 0 (s.received.flatMap (requestBlocks request) ++ done) =
      .ok (s.wire ++ pending, s.counter)
  torn : torn = true → (∀ c, (s.phase c).half = none) ∧ ∃ c k stream last,
    encryptBlocks P key 0
      (s.received.flatMap (requestBlocks request) ++ (requestBlocks request c).take k) =
      .ok (stream, last) ∧ s.wire <+: stream

theorem frameInv_new : FrameInv P key request new false where
  lock _ _ _ _ h := by cases h
  frames h := by cases h
  blocks h := by cases h
  whole _ _ := rfl
  half _ {_ _ _} h := by cases h
  torn h := by cases h

section
variable {P key request} {s t : SessionState} {torn : Bool} {c : Nat} {p : Phase}

theorem FrameInv.others_none (h : s.FrameInv P key request torn) {done : List Bytes}
    {pending : Bytes} {blocks : List Bytes} (hphase : s.phase c = .writing done pending blocks)
    {d : Nat} (hdc : d ≠ c) : (s.phase d).half = none := by
  rw [Option.eq_none_iff_forall_ne_some]
  rintro ⟨done', pending'⟩ hd
  obtain ⟨_, hd⟩ := Phase.half_eq_some hd
  have hsame : some d = some c := (h.lock d hd).symm.trans (h.lock c hphase)
  exact hdc (Option.some.inj hsame)

theorem FrameInv.same (h : s.FrameInv P key request torn) (hphase : t.phase = s.phase)
    (hwriter : t.writer = s.writer) (hreceived : t.received = s.received) (hwire : t.wire = s.wire)
    (hcounter : t.counter = s.counter) : t.FrameInv P key request torn := by
  obtain ⟨hlock, hframes, hblocks, hwhole, hhalf, htorn⟩ := h
  constructor
  · rwa [hphase, hwriter]
  · rwa [hphase]
  · rwa [hphase]
  · rwa [hphase, hreceived, hwire, hcounter]
  · rwa [hphase, hreceived, hwire, hcounter]
  · rwa [hphase, hreceived, hwire]

theorem FrameInv.goto (h : s.FrameInv P key request torn)
    (hwriting : ∀ {done pending blocks}, p = .writing done pending blocks →
      s.writer = some c ∧ (done = [] → pending = [] ∧ blocks ≠ []) ∧
        done ++ blocks = requestBlocks request c)
    (hhalf : p.half = (s.phase c).half) : (s.goto c p).FrameInv P key request torn := by
  have hsame : ∀ d, ((s.goto c p).phase d).half = (s.phase d).half :=
    (forall_goto fun d q => q.half = (s.phase d).half).mpr ⟨hhalf, fun d _ => rfl⟩
  constructor
  · exact fun _ => of_writing (fun hp => (hwriting hp).1) (h.lock _)
  · exact of_writing (fun hp => (hwriting hp).2.1) h.frames
  · exact of_writing (fun hp => (hwriting hp).2.2) h.blocks
  · intro ht hnone
    exact h.whole ht fun d => (hsame d).symm.trans (hnone d)
  · intro ht d done pending hd
    exact h.half ht ((hsame d).symm.trans hd)
  · intro ht
    obtain ⟨hnone, hstream⟩ := h.torn ht
    exact ⟨fun d => (hsame d).trans (hnone d), hstream⟩

theorem FrameInv.finish_lock (h : s.FrameInv P key request torn)
    (hp : ∀ done pending blocks, p ≠ .writing done pending blocks) (d : Nat) :
    ∀ {done pending blocks}, (s.finish c p).phase d = .writing done pending blocks →
      (s.finish c p).writer = some d := by
  intro done pending blocks hd
  by_cases hdc : d = c
  · subst hdc
    rw [finish_self] at hd
    exact (hp _ _ _ hd).elim
  · rw [finish_of_ne hdc] at hd
    have hlock := h.lock d hd
    have hne : ¬ s.writer = some c := by
      rw [hlock]
      exact fun hsome => hdc (Option.some.inj hsome)
    rw [SessionState.finish, if_neg hne, hlock]

theorem FrameInv.finish (h : s.FrameInv P key request torn)
    (hp : ∀ done pending blocks, p ≠ .writing done pending blocks) :
    (s.finish c p).FrameInv P key request (torn || (s.phase c).half.isSome) := by
  have hnone : p.half = none := by
    cases p with
    | writing done pending blocks => exact (hp _ _ _ rfl).elim
    | _ => rfl
  have hhalf : ∀ (Q : Nat → Option (List Bytes × Bytes) → Prop), Q c none →
      (∀ d, d ≠ c → Q d (s.phase d).half) → ∀ d, Q d ((s.finish c p).phase d).half := by
    intro Q hc hd
    refine (forall_finish fun d q => Q d q.half).mpr ⟨?_, hd⟩
    rw [hnone]
    exact hc
  refine ⟨h.finish_lock hp, of_writing (fun hw => (hp _ _ _ hw).elim) h.frames,
    of_writing (fun hw => (hp _ _ _ hw).elim) h.blocks, ?_, ?_, ?_⟩
  · intro ht hall
    obtain ⟨ht, hc⟩ := Bool.or_eq_false_iff.mp ht
    refine h.whole ht fun d => ?_
    by_cases hdc : d = c
    · rw [hdc]
      exact Option.isNone_iff_eq_none.mp (Option.isSome_eq_false_iff.mp hc)
    · rw [← hall d, finish_of_ne hdc]
  · intro ht d done pending hd
    obtain ⟨ht, -⟩ := Bool.or_eq_false_iff.mp ht
    refine h.half ht (c := d) ?_
    by_cases hdc : d = c
    · rw [hdc, finish_self, hnone] at hd
      cases hd
    · rwa [finish_of_ne hdc] at hd
  · intro ht
    cases htorn : torn with
    | true =>
      obtain ⟨hall, hstream⟩ := h.torn htorn
      exact ⟨hhalf (fun _ q => q = none) rfl fun d _ => hall d, hstream⟩
    | false =>
      rw [htorn, Bool.false_or] at ht
      obtain ⟨⟨done, pending⟩, hc⟩ := Option.isSome_iff_exists.mp ht
      obtain ⟨blocks, hw⟩ := Phase.half_eq_some hc
      refine ⟨hhalf (fun _ q => q = none) rfl fun d hdc => h.others_none hw hdc, c, done.length,
        s.wire ++ pending, s.counter, ?_, List.prefix_append _ _⟩
      have htake : (requestBlocks request c).take done.length = done := by
        rw [← h.blocks hw, List.take_left]
      rw [htake]
      exact h.half htorn hc

theorem FrameInv.stream (h : s.FrameInv P key request false) {done : List Bytes} {pending : Bytes}
    {blocks : List Bytes} (hphase : s.phase c = .writing done pending blocks)
    (hmore : pending ≠ [] ∨ blocks ≠ []) :
    encryptBlocks P key 0 (s.received.flatMap (requestBlocks request) ++ done) =
      .ok (s.wire ++ pending, s.counter) := by
  by_cases hdone : done = []
  · obtain ⟨rfl, -⟩ := h.frames hphase hdone
    have hnone : (s.phase c).half = none := by simp [hphase, hdone, Phase.half]
    rw [hdone, List.append_nil, List.append_nil]
    refine h.whole rfl fun d => ?_
    by_cases hdc : d = c
    · rw [hdc, hnone]
    · exact h.others_none hphase hdc
  · refine h.half rfl (c := c) ?_
    rw [hphase]
    exact Phase.half_writing hdone hmore

theorem FrameInv.write (h : s.FrameInv P key request false) {done done' : List Bytes}
    {pending pending' : Bytes} {blocks blocks' : List Bytes}
    (hphase : s.phase c = .writing done pending blocks) (hdone : done' ≠ [])
    (hblocks : done' ++ blocks' = done ++ blocks) {wire : Bytes} {counter : UInt64}
    {received : List Nat}
    (hwhole : pending' = [] ∧ blocks' = [] →
      encryptBlocks P key 0 (received.flatMap (requestBlocks request)) = .ok (wire, counter))
    (hhalf : pending' ≠ [] ∨ blocks' ≠ [] →
      encryptBlocks P key 0 (received.flatMap (requestBlocks request) ++ done') =
        .ok (wire ++ pending', counter)) :
    FrameInv P key request
      ({ s with wire := wire, counter := counter, received := received }.goto c
        (.writing done' pending' blocks')) false := by
  constructor
  · exact fun _ => of_writing (fun _ => h.lock c hphase) (h.lock _)
  · refine of_writing ?_ h.frames
    intro _ _ _ hw hnil
    cases hw
    exact absurd hnil hdone
  · refine of_writing ?_ h.blocks
    intro _ _ _ hw
    cases hw
    rw [hblocks]
    exact h.blocks hphase
  · intro _ hall
    apply hwhole
    have hc := ((forall_goto fun _ q => q.half = none).mp hall).1
    by_contra hmore
    rw [not_and_or] at hmore
    rw [Phase.half_writing hdone hmore] at hc
    cases hc
  · intro _ d
    refine (forall_goto fun _ q => ∀ {done'' pending''}, q.half = some (done'', pending'') →
      encryptBlocks P key 0 (received.flatMap (requestBlocks request) ++ done'') =
        .ok (wire ++ pending'', counter)).mpr ⟨?_, ?_⟩ d
    · intro done'' pending'' hc
      simp only [Phase.half, Option.ite_none_right_eq_some, Option.some.injEq,
        Prod.mk.injEq] at hc
      obtain ⟨⟨-, hmore⟩, rfl, rfl⟩ := hc
      exact hhalf hmore
    · intro d hdc done'' pending'' hd
      rw [h.others_none hphase hdc] at hd
      cases hd
  · intro ht
    cases ht

theorem FrameInv.lockWriter (h : s.FrameInv P key request torn) (hphase : s.phase c = .locked)
    (hfree : s.writer = none) :
    FrameInv P key request
      ({ s with writer := some c }.goto c (.writing [] [] (requestBlocks request c))) torn := by
  have hlocked : FrameInv P key request { s with writer := some c } torn := by
    refine ⟨?_, h.frames, h.blocks, h.whole, h.half, h.torn⟩
    intro d done pending blocks hd
    rw [h.lock d hd] at hfree
    cases hfree
  refine hlocked.goto ?_ ?_
  · intro done pending blocks hp
    cases hp
    refine ⟨rfl, fun _ => ⟨rfl, ?_⟩, rfl⟩
    rw [requestBlocks, chunks_of_ne_nil (by decide) (encodeRequest_ne_nil _)]
    exact List.cons_ne_nil _ _
  · rw [show ({ s with writer := some c } : SessionState).phase c = .locked from hphase]
    rfl

theorem FrameInv.sealBlock (h : s.FrameInv P key request false) {done : List Bytes}
    {block frame : Bytes} {blocks : List Bytes} {counter : UInt64}
    (hphase : s.phase c = .writing done [] (block :: blocks))
    (hframe : encryptFrame P key s.counter block = (.ok frame, counter)) :
    FrameInv P key request
      ({ s with counter := counter }.goto c (.writing (done ++ [block]) frame blocks)) false := by
  have hstream := h.stream hphase (.inr (List.cons_ne_nil _ _))
  rw [List.append_nil] at hstream
  refine h.write hphase (by simp) (by simp) (fun hnil => ?_) (fun _ => ?_)
  · exact absurd hnil.1 (encryptFrame_ne_nil hframe)
  · rw [← List.append_assoc]
    exact encryptBlocks_snoc hstream hframe

theorem FrameInv.accept (h : s.FrameInv P key request torn) {done : List Bytes} {pending : Bytes}
    {blocks : List Bytes} {n : Nat} (hpos : 0 < n) (hn : n ≤ pending.length)
    (hphase : s.phase c = .writing done pending blocks) :
    FrameInv P key request
      ({ s with
        wire := s.wire ++ pending.take n
        received := if pending.drop n = [] ∧ blocks = [] then s.received ++ [c]
          else s.received }.goto c (.writing done (pending.drop n) blocks)) torn := by
  have hne : pending ≠ [] := List.ne_nil_of_length_pos (by omega)
  have hdone : done ≠ [] := fun hnil => hne (h.frames hphase hnil).1
  have hwhole : torn = false := by
    rw [← Bool.not_eq_true]
    intro ht
    have hc := (h.torn ht).1 c
    rw [hphase, Phase.half_writing hdone (.inl hne)] at hc
    cases hc
  subst hwhole
  have hstream := h.stream hphase (.inl hne)
  refine h.write hphase hdone rfl (fun hlast => ?_) (fun hmore => ?_)
  · obtain ⟨hdrop, rfl⟩ := hlast
    have hall : pending.take n = pending := by
      rw [← List.take_append_drop n pending, hdrop, List.append_nil, List.take_take, Nat.min_self]
    rw [if_pos ⟨hdrop, rfl⟩, hall, List.flatMap_append, List.flatMap_singleton, ← h.blocks hphase,
      List.append_nil]
    exact hstream
  · have hlast : ¬ (pending.drop n = [] ∧ blocks = []) := by
      rw [not_and_or]
      exact hmore
    rw [if_neg hlast, List.append_assoc, List.take_append_drop]
    exact hstream

theorem FrameInv.finish_clean (h : s.FrameInv P key request torn) (hphase : s.phase c = .awaiting)
    (hp : ∀ done pending blocks, p ≠ .writing done pending blocks) :
    (s.finish c p).FrameInv P key request torn := by
  have hfinish := h.finish (c := c) hp
  rw [hphase] at hfinish
  simpa [Phase.half] using hfinish

theorem FrameInv.flush (h : s.FrameInv P key request torn) {done : List Bytes}
    (hphase : s.phase c = .writing done [] []) :
    FrameInv P key request ({ s with writer := none }.goto c .awaiting) torn := by
  have hmoved : FrameInv P key request (s.goto c .awaiting) torn := by
    refine h.goto (fun hp => ?_) ?_
    · cases hp
    · simp [hphase, Phase.half]
  refine ⟨?_, hmoved.frames, hmoved.blocks, hmoved.whole, hmoved.half, hmoved.torn⟩
  intro d done' pending' blocks' hd
  have hwriter : s.writer = some d := hmoved.lock d hd
  rw [h.lock c hphase] at hwriter
  obtain rfl := Option.some.inj hwriter
  have hself : (s.goto c .awaiting).phase c = .awaiting := Function.update_self ..
  exact absurd (hself.symm.trans hd) (by simp)

theorem FrameInv.sealFails (h : s.FrameInv P key request torn) {done : List Bytes} {block : Bytes}
    {blocks : List Bytes} {counter : UInt64} {e : TransportError}
    (hphase : s.phase c = .writing done [] (block :: blocks))
    (hframe : encryptFrame P key s.counter block = (.error e, counter)) :
    FrameInv P key request
      ({ s.cut c with counter := counter }.finish c (.returned (.error e)))
      (torn || !done.isEmpty) := by
  have hcounter : counter = s.counter := (encryptFrame_eq_error hframe).symm
  have hcut : FrameInv P key request { s.cut c with counter := counter } torn :=
    h.same rfl rfl rfl rfl hcounter
  have hfinish := hcut.finish (c := c) (p := .returned (.error e)) (by simp)
  have hhalf : (Phase.writing done [] (block :: blocks)).half.isSome = !done.isEmpty := by
    cases done <;> rfl
  rw [show ({ s.cut c with counter := counter } : SessionState).phase c = _ from hphase,
    hhalf] at hfinish
  exact hfinish

theorem FrameInv.unmarked (h : s.FrameInv P key request torn) :
    s.FrameInv P key request (torn || false) := by
  rwa [Bool.or_false]

theorem FrameInv.step {a : SessionAction} (h : s.FrameInv P key request torn)
    (huntorn : Untorn (s, torn) a) (hstep : step P key request s a = some t) :
    t.FrameInv P key request (torn || tears P key s a) := by
  cases moves_of_step hstep with
  | call hphase =>
    refine (h.goto (fun hp => ?_) ?_).unmarked
    · cases hp
    · rw [hphase]
      rfl
  | @lockResponses c hphase hfree =>
    have hlocked : FrameInv P key request { s with responses := some c } torn :=
      h.same rfl rfl rfl rfl rfl
    refine (hlocked.goto (fun hp => ?_) ?_).unmarked
    · cases hp
    · rw [show ({ s with responses := some c } : SessionState).phase c = .waiting from hphase]
      rfl
  | lockWriter hphase hfree => exact (h.lockWriter hphase hfree).unmarked
  | sealBlock hphase hframe =>
    obtain rfl : torn = false := huntorn
    simp only [tears, hphase, hframe]
    simpa [Except.toOption] using h.sealBlock hphase hframe
  | sealFails hphase hframe =>
    obtain rfl : torn = false := huntorn
    simp only [tears, hphase, hframe]
    simpa [Except.toOption] using h.sealFails hphase hframe
  | accept hphase hpos hn => exact (h.accept hpos hn hphase).unmarked
  | writeFails c =>
    have hcut : FrameInv P key request (s.cut c) torn := h.same rfl rfl rfl rfl rfl
    exact hcut.finish (by simp)
  | flush hphase => exact (h.flush hphase).unmarked
  | answer | deliver | readerFails | readerPanics =>
    apply FrameInv.unmarked
    exact h.same rfl rfl rfl rfl rfl
  | @take c result rest hphase hchannel =>
    have htaken : FrameInv P key request { s with channel := rest } torn :=
      h.same rfl rfl rfl rfl rfl
    exact (htaken.finish_clean hphase (by simp)).unmarked
  | noResponse hphase hchannel hdone => exact (h.finish_clean hphase (by simp)).unmarked
  | drop c =>
    have hcut : FrameInv P key request (s.cut c) torn := h.same rfl rfl rfl rfl rfl
    exact hcut.finish (by simp)

theorem wire_step {a : SessionAction} (hstep : SessionState.step P key request s a = some t) :
    s.wire <+: t.wire := by
  cases moves_of_step hstep with
  | accept hphase hpos hn => exact List.prefix_append _ _
  | _ => exact List.prefix_refl _

theorem FrameInv.stream_isPrefix (h : s.FrameInv P key request torn) :
    ∃ c k stream last, encryptBlocks P key 0
      (s.received.flatMap (requestBlocks request) ++ (requestBlocks request c).take k) =
      .ok (stream, last) ∧ s.wire <+: stream := by
  cases torn with
  | true => exact (h.torn rfl).2
  | false =>
    by_cases hall : ∀ c, (s.phase c).half = none
    · refine ⟨0, 0, s.wire, s.counter, ?_, List.prefix_refl _⟩
      rw [List.take_zero, List.append_nil]
      exact h.whole rfl hall
    · obtain ⟨c, hc⟩ := not_forall.mp hall
      obtain ⟨⟨done, pending⟩, hc⟩ := Option.ne_none_iff_exists'.mp hc
      -- dropping the call now would show the same
      have hfinish := h.finish (c := c) (p := .dropped) (by simp)
      rw [hc] at hfinish
      exact (hfinish.torn rfl).2

/-- In every run in which no frame is sealed after a request was left half sent,
the socket takes a first part of one stream of frames, numbered from zero, that
carry whole requests; only the last may be incomplete. -/
theorem orderly_of_untorn (P : Primitives) (key : Arr 32) (request : Nat → Request)
    (actions : List SessionAction) {s : SessionState} {torn : Bool}
    (h : steps (restrict (watched (step P key request) (tears P key)) Untorn) (new, false) actions =
      some (s, torn)) : Orderly P key request actions s.received := by
  have hrun : steps (SessionState.step P key request) new actions = some s :=
    steps_of_watched (steps_of_restrict h)
  have hinv : s.FrameInv P key request torn := by
    refine steps_invariant (I := fun s => s.1.FrameInv P key request s.2) ?_ actions
      (frameInv_new P key request) h
    intro s a t hs hstep
    obtain ⟨huntorn, hstep⟩ := restrict_eq_some.mp hstep
    obtain ⟨hstep, hmark⟩ := watched_eq_some.mp hstep
    rw [hmark]
    exact hs.step huntorn hstep
  obtain ⟨c, k, stream, last, hstream, hwire⟩ := hinv.stream_isPrefix
  refine ⟨c, k, stream, last, hstream, ?_⟩
  intro before t hbefore ht
  have hgrow : t.wire <+: s.wire := steps_isPrefix wire_step hbefore ht hrun
  exact hgrow.trans hwire

end

theorem orderly_of_untorn_two_calls :
    ∃ s, steps (restrict (watched (step plainPrimitives (constArr 32 0) sampleRequest)
        (tears plainPrimitives (constArr 32 0))) Untorn) (new, false)
        (sampleSend 1 ++ ([.drop 1] : List SessionAction) ++ sampleSend 2) = some (s, false) ∧
      s.received = [1, 2] ∧
      Orderly plainPrimitives (constArr 32 0) sampleRequest
        (sampleSend 1 ++ ([.drop 1] : List SessionAction) ++ sampleSend 2) [1, 2] := by
  have hrun : (steps (restrict (watched (step plainPrimitives (constArr 32 0) sampleRequest)
        (tears plainPrimitives (constArr 32 0))) Untorn) (new, false)
        (sampleSend 1 ++ ([.drop 1] : List SessionAction) ++ sampleSend 2)).map
        (fun s => (s.1.received, s.2)) = some ([1, 2], false) := by decide +kernel
  obtain ⟨⟨s, torn⟩, hs, hstate⟩ := Option.map_eq_some_iff.mp hrun
  simp only [Prod.mk.injEq] at hstate
  obtain ⟨hreceived, rfl⟩ := hstate
  refine ⟨s, hs, hreceived, ?_⟩
  rw [← hreceived]
  exact orderly_of_untorn _ _ _ _ hs

theorem first_frame_isPrefix {P : Primitives} {key : Arr 32} {counter counter' last : UInt64}
    {block frame stream : Bytes} {blocks : List Bytes}
    (hframe : encryptFrame P key counter block = (.ok frame, counter'))
    (h : encryptBlocks P key counter (block :: blocks) = .ok (stream, last)) :
    frame <+: stream := by
  rw [encryptBlocks, hframe] at h
  obtain ⟨⟨rest, last'⟩, -, hsame⟩ := bind_eq_ok.mp h
  obtain ⟨rfl, -⟩ := Prod.mk.inj (Except.ok.inj hsame)
  exact List.prefix_append _ _

theorem requestBlocks_sample (c : Nat) :
    ∃ d, (d = 1 ∨ d = 2) ∧ requestBlocks sampleRequest c = [encodeRequest (sampleRequest d)] := by
  by_cases hc : c = 1
  · refine ⟨1, .inl rfl, ?_⟩
    rw [hc]
    decide +kernel
  · refine ⟨2, .inr rfl, ?_⟩
    have hsame : sampleRequest c = sampleRequest 2 := by
      rw [sampleRequest, if_neg hc]
      rfl
    rw [requestBlocks, hsame]
    decide +kernel

theorem sample_stream (calls : List Nat) (c k : Nat) :
    calls.flatMap (requestBlocks sampleRequest) ++ (requestBlocks sampleRequest c).take k = [] ∨
      ∃ d blocks, (d = 1 ∨ d = 2) ∧
        calls.flatMap (requestBlocks sampleRequest) ++ (requestBlocks sampleRequest c).take k =
          encodeRequest (sampleRequest d) :: blocks := by
  cases calls with
  | nil =>
    obtain ⟨d, hd, hblocks⟩ := requestBlocks_sample c
    cases k with
    | zero => exact .inl rfl
    | succ k => exact .inr ⟨d, [], hd, by simp [hblocks]⟩
  | cons call calls =>
    obtain ⟨d, hd, hblocks⟩ := requestBlocks_sample call
    exact .inr ⟨d, _, hd, by rw [List.flatMap_cons, hblocks]; rfl⟩

def halfSend (c : Nat) : List SessionAction :=
  [.call c, .lockResponses c, .lockWriter c, .sealBlock c, .accept c 50, .drop c]

/-- A call is dropped when the socket has taken half of its frame: the next call's
frame begins in the middle of it. -/
theorem frame_begins_inside_frame :
    ∃ s, steps (step plainPrimitives (constArr 32 0) sampleRequest) new
        (halfSend 1 ++ sampleSend 2) = some s ∧
      ∀ calls, ¬ Orderly plainPrimitives (constArr 32 0) sampleRequest
        (halfSend 1 ++ sampleSend 2) calls := by
  let frame (d : Nat) : Bytes := (encryptFrame plainPrimitives (constArr 32 0) 0
    (encodeRequest (sampleRequest d))).1.toOption.getD []
  have hframe : ∀ d, d = 1 ∨ d = 2 →
      encryptFrame plainPrimitives (constArr 32 0) 0 (encodeRequest (sampleRequest d)) =
        (.ok (frame d), 1) := by
    rintro d (rfl | rfl) <;> decide +kernel
  refine exists_of_view (fun s => (decide (frame 1 <+: s.wire), decide (frame 2 <+: s.wire),
      decide ((frame 1).length ≤ s.wire.length), decide ((frame 2).length ≤ s.wire.length)))
    (false, false, true, true) (by decide +kernel) ?_
  intro s hs hstate
  simp only [Prod.mk.injEq, decide_eq_false_iff_not, decide_eq_true_eq] at hstate
  obtain ⟨hnot1, hnot2, hlen1, hlen2⟩ := hstate
  have hnot : ∀ d, d = 1 ∨ d = 2 → ¬ frame d <+: s.wire ∧ (frame d).length ≤ s.wire.length := by
    rintro d (rfl | rfl)
    · exact ⟨hnot1, hlen1⟩
    · exact ⟨hnot2, hlen2⟩
  rintro calls ⟨c, k, stream, last, hstream, hwire⟩
  have hpart : s.wire <+: stream := hwire _ s (List.prefix_refl _) hs
  rcases sample_stream calls c k with hnil | ⟨d, blocks, hd, hcons⟩
  · rw [hnil] at hstream
    obtain ⟨rfl, -⟩ := Prod.mk.inj (Except.ok.inj hstream)
    rw [List.prefix_nil.mp hpart] at hlen1
    exact absurd hlen1 (by decide +kernel)
  · rw [hcons] at hstream
    have hfirst := first_frame_isPrefix (hframe d hd) hstream
    exact (hnot d hd).1 (List.prefix_of_prefix_length_le hfirst hpart (hnot d hd).2)

end SessionState
end HapRust.Transport
