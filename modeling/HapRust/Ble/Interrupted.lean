import HapRust.Ble.Resync

/-! The operations of a BLE accessory as sequences of requests. An operation that is
dropped does nothing any more: it leaves what it would leave if the GATT operation
that it waits for failed, and it were not tried again. -/

namespace HapRust.Ble
open Lib Tlv8 Crypto BleM

/-! ## A GATT operation that fails ends the request -/

section
variable {α β : Type}

def BreaksOff : Dialogue GattOp Answer (Except BleError α × BleState) → Prop
  | .ret _ => True
  | .ask _ next =>
    (∀ e, ∃ err s, next (.failed e) = .ret (.error err, s)) ∧ ∀ x, BreaksOff (next x)

theorem BreaksOff.after {d : Dialogue GattOp Answer (Except BleError α × BleState)} (h : BreaksOff d)
    {answers : List Answer} {q : GattOp} {next : Answer → _}
    (hd : d.after answers = some (.ask q next)) (e : GattFault) :
    ∃ err s, d.outcome (answers ++ [.failed e]) = some (.error err, s) := by
  induction answers generalizing d with
  | nil =>
    rw [Dialogue.after_nil] at hd
    obtain rfl := Option.some.inj hd
    obtain ⟨err, s, hnext⟩ := h.1 e
    refine ⟨err, s, ?_⟩
    show (next (.failed e)).outcome [] = _
    rw [hnext]
    rfl
  | cons x answers ih =>
    cases d with
    | ret a => cases hd
    | ask q next => exact ih (h.2 x) hd

theorem BreaksOff.andThen {d : Dialogue GattOp Answer (Except BleError α × BleState)}
    (h : BreaksOff d) {f : α → BleM β} (hf : ∀ a s, BreaksOff (f a s)) :
    BreaksOff (d.bind (andThen f)) := by
  induction d with
  | ret r =>
    obtain ⟨result, t⟩ := r
    cases result with
    | error e => exact trivial
    | ok a => exact hf a t
  | ask q next ih =>
    refine ⟨?_, fun x => ih x (h.2 x)⟩
    intro e
    obtain ⟨err, t, hnext⟩ := h.1 e
    exact ⟨err, t, congrArg (Dialogue.bind · (BleM.andThen f)) hnext⟩

theorem breaksOff_bind {m : BleM α} {f : α → BleM β} (hm : ∀ s, BreaksOff (m s))
    (hf : ∀ a s, BreaksOff (f a s)) (s : BleState) : BreaksOff ((m >>= f) s) :=
  (hm s).andThen hf

theorem breaksOff_reconnect (s : BleState) : BreaksOff (reconnect s) := by
  refine ⟨fun e => ⟨_, _, rfl⟩, ?_⟩
  intro x
  cases x <;> exact trivial

theorem breaksOff_attempt (op : GattOp) {again : BleM Bytes} (h : ∀ s, BreaksOff (again s))
    (s : BleState) : BreaksOff (attempt op again s) := by
  refine ⟨fun e => ⟨_, _, rfl⟩, ?_⟩
  intro x
  cases x with
  | done link value => exact trivial
  | lost link => exact h _
  | failed e => exact trivial

theorem breaksOff_retrying (op : GattOp) (left : Nat) (s : BleState) :
    BreaksOff (retrying op left s) := by
  induction left generalizing s with
  | zero =>
    have hthrow (s : BleState) : BreaksOff ((throw .disconnected : BleM Bytes) s) := trivial
    exact breaksOff_attempt op hthrow s
  | succ left ih => exact breaksOff_attempt op (breaksOff_bind breaksOff_reconnect fun _ => ih) s

theorem inherited_breaksOff : Inherited fun _ m => ∀ s, BreaksOff (m s) where
  pure _ _ := trivial
  throw _ _ := trivial
  get _ := trivial
  modify _ _ := trivial
  bind := breaksOff_bind
  retrying _ := breaksOff_retrying _

end

/-! ## A request is an attempt -/

section
variable {P : Primitives} {r : Reviver} {uuid : String} {op : OpCode} {iid : UInt16} {body : Bytes}
  {fragSize : Nat} {s t : BleState}

theorem reviveIfStale_breaksOff (s : BleState) : BreaksOff (reviveIfStale P r s) := by
  refine breaksOff_bind inherited_breaksOff.get (fun s => ?_) s
  split_ifs
  · exact inherited_breaksOff.pure ()
  · exact breaksOff_bind (inherited_breaksOff.pairVerify P r) fun _ _ => trivial

theorem not_waiting {α : Type} {a : α} {answers : List Answer} {q : GattOp}
    {next : Answer → Dialogue GattOp Answer α} : (Dialogue.ret a).after answers ≠ some (.ask q next) := by
  intro h
  cases answers <;> cases h

theorem tryRequest_failed {answers : List Answer} {q : GattOp} {next : Answer → _}
    (h : (tryRequest P r uuid op iid body fragSize s).after answers = some (.ask q next))
    (e : GattFault) :
    ∃ x, (tryRequest P r uuid op iid body fragSize s).outcome (answers ++ [.failed e]) = some x := by
  rw [tryRequest, bind_apply] at h ⊢
  rcases Dialogue.after_bind_cases h with ⟨q', next', hwait, -⟩ | ⟨ys, zs, ⟨revived, u⟩, rfl, hys, hzs⟩
  · obtain ⟨err, v, hfailed⟩ := (reviveIfStale_breaksOff s).after hwait e
    exact ⟨_, Dialogue.outcome_bind.mpr ⟨_, [], _, (List.append_nil _).symm, hfailed, rfl⟩⟩
  · cases revived with
    | error err => exact absurd hzs not_waiting
    | ok _ =>
      rcases Dialogue.after_bind_cases (d := requestSecure P uuid op u.requesting.tid iid body
        fragSize u.requesting) hzs with ⟨q', next', hwait, -⟩ | ⟨-, zs, x, -, -, hret⟩
      · obtain ⟨err, v, hfailed⟩ :=
          (inherited_breaksOff.requestSecure P _ _ _ _ _ _ u.requesting).after hwait e
        refine ⟨(.ok (.error err), v), Dialogue.outcome_bind.mpr
          ⟨ys, zs ++ [.failed e], _, List.append_assoc _ _ _, hys, ?_⟩⟩
        exact Dialogue.outcome_bind (d := requestSecure P uuid op u.requesting.tid iid body fragSize
          u.requesting).mpr ⟨_, [], _, (List.append_nil _).symm, hfailed, rfl⟩
      · exact absurd hret not_waiting

theorem exists_tallied {α : Type} {d : Dialogue GattOp Answer α} {fates : List Fate} {x : α}
    (h : d.outcome (fates.map Fate.answer) = some x) (g : Tally) :
    ∃ g', (tallied d g).outcome fates = some (x, g') := by
  obtain ⟨⟨y, g'⟩, hrun, rfl⟩ := Option.map_eq_some_iff.mp ((outcome_tallied d g fates).trans h)
  exact ⟨g', hrun⟩

theorem exists_attempt {fates : List Fate} {x : Except BleError (Except BleError Response)}
    (h : (tryRequest P r uuid op iid body fragSize s).outcome (fates.map Fate.answer) = some (x, t))
    (p : Peer) :
    ∃ y p', Attempt.fates y = fates ∧ Handle.step P r ⟨s, p⟩ y = some ⟨t, p'⟩ := by
  rw [tryRequest, bind_apply] at h
  obtain ⟨ys, zs, ⟨revived, u⟩, hfates, hrevive, hrest⟩ := Dialogue.outcome_bind.mp h
  obtain ⟨verify, request, rfl, rfl, rfl⟩ := List.map_eq_append_iff.mp hfates
  obtain ⟨g, hverify⟩ := exists_tallied hrevive (.new p)
  cases revived with
  | error e =>
    obtain ⟨hnil, heq⟩ := Dialogue.outcome_ret_nil hrest
    obtain ⟨rfl, rfl⟩ := Prod.mk.inj heq
    obtain rfl := List.map_eq_nil_iff.mp hnil
    refine ⟨⟨uuid, op, iid, body, fragSize, verify, []⟩, p, rfl, ?_⟩
    rw [Handle.step, Handle.attempt, hverify]
    rfl
  | ok _ =>
    obtain ⟨ys, zs, ⟨result, v⟩, hsplit, hrequest, hret⟩ := Dialogue.outcome_bind (d := requestSecure
      P uuid op u.requesting.tid iid body fragSize u.requesting).mp hrest
    obtain ⟨rfl, heq⟩ := Dialogue.outcome_ret_nil hret
    obtain ⟨-, rfl⟩ := Prod.mk.inj heq
    rw [List.append_nil] at hsplit
    rw [← hsplit] at hrequest
    obtain ⟨g', hrun⟩ :=
      exists_tallied hrequest (.new (if s.generation ≤ s.since then p else .new))
    refine ⟨⟨uuid, op, iid, body, fragSize, verify, request⟩, g'.peer, rfl, ?_⟩
    rw [Handle.step, Handle.attempt, hverify]
    show Option.map Prod.fst (Option.map _ (Handle.request P _ _)) = _
    rw [Handle.request, hrun]
    rfl

end

/-! ## An operation is a sequence of requests -/

/-- The same session at the same generation. -/
structure BleState.SameSession (s t : BleState) : Prop where
  session : t.session = s.session
  since : t.since = s.since
  generation : t.generation = s.generation

theorem BleState.SameSession.refl (s : BleState) : s.SameSession s := ⟨rfl, rfl, rfl⟩

theorem BleState.SameSession.trans {s t u : BleState} (h : s.SameSession t) (h' : t.SameSession u) :
    s.SameSession u :=
  ⟨h'.session.trans h.session, h'.since.trans h.since, h'.generation.trans h.generation⟩

inductive Requesting (P : Primitives) (r : Reviver) {α : Type} :
    BleState → Dialogue GattOp Answer (Except BleError α × BleState) → Prop where
  | ret {s t : BleState} (x : Except BleError α) (same : s.SameSession t) : Requesting P r s (.ret (x, t))
  | request {s : BleState} {k : Except BleError (Except BleError Response) × BleState → _}
      (uuid : String) (op : OpCode) (iid : UInt16) (body : Bytes) (fragSize : Nat)
      (next : ∀ x t, Requesting P r t (k (x, t))) :
      Requesting P r s ((tryRequest P r uuid op iid body fragSize s).bind k)

section
variable {P : Primitives} {r : Reviver} {α β : Type} {s : BleState}
  {d : Dialogue GattOp Answer (Except BleError α × BleState)}

theorem Requesting.settle (h : Requesting P r s d)
    {f : Except BleError α × BleState → Dialogue GattOp Answer (Except BleError β × BleState)}
    (hf : ∀ x t, ∃ y u, f (x, t) = .ret (y, u) ∧ t.SameSession u) : Requesting P r s (d.bind f) := by
  induction h with
  | ret x same =>
    obtain ⟨y, u, hfx, hsame⟩ := hf x _
    rw [Dialogue.ret_bind, hfx]
    exact .ret y (same.trans hsame)
  | request uuid op iid body fragSize next ih =>
    rw [Dialogue.bind_assoc]
    exact .request uuid op iid body fragSize ih

theorem Requesting.returned (h : Requesting P r s d) {fates : List Fate} {x : Except BleError α}
    {t : BleState} (hrun : d.outcome (fates.map Fate.answer) = some (x, t)) (p : Peer) :
    ∃ attempts h', attempts.flatMap Attempt.fates = fates ∧
      steps (Handle.step P r) ⟨s, p⟩ attempts = some h' ∧ h'.state.SameSession t := by
  induction h generalizing fates p with
  | ret y same =>
    obtain ⟨hnil, heq⟩ := Dialogue.outcome_ret_nil hrun
    obtain ⟨-, rfl⟩ := Prod.mk.inj heq
    obtain rfl := List.map_eq_nil_iff.mp hnil
    exact ⟨[], ⟨_, p⟩, rfl, rfl, same⟩
  | request uuid op iid body fragSize next ih =>
    obtain ⟨ys, zs, ⟨y, u⟩, hfates, hrequest, hrest⟩ := Dialogue.outcome_bind.mp hrun
    obtain ⟨before, after, rfl, rfl, rfl⟩ := List.map_eq_append_iff.mp hfates
    obtain ⟨one, p', hone, hstep⟩ := exists_attempt hrequest p
    obtain ⟨attempts, h', hall, hsteps, hsame⟩ := ih y u hrest p'
    refine ⟨one :: attempts, h', ?_, ?_, hsame⟩
    · rw [List.flatMap_cons, hone, hall]
    · rw [steps, List.foldlM_cons, hstep]
      exact hsteps

theorem Requesting.dropped (h : Requesting P r s d) {fates : List Fate} {q : GattOp}
    {next : Answer → _} (hwait : d.after (fates.map Fate.answer) = some (.ask q next)) (e : GattFault)
    (taken : Bool) (p : Peer) :
    ∃ attempts h', attempts.flatMap Attempt.fates = fates ++ [.failed e taken] ∧
      steps (Handle.step P r) ⟨s, p⟩ attempts = some h' := by
  induction h generalizing fates p with
  | ret y same => exact absurd hwait not_waiting
  | @request s k uuid op iid body fragSize next ih =>
    rcases Dialogue.after_bind_cases hwait with ⟨q', next', hask, -⟩ | ⟨ys, zs, ⟨y, u⟩, hfates, hys, hzs⟩
    · obtain ⟨⟨x, t⟩, hfailed⟩ := tryRequest_failed hask e
      have hrun : (tryRequest P r uuid op iid body fragSize s).outcome
          ((fates ++ [Fate.failed e taken]).map Fate.answer) = some (x, t) := by
        rw [List.map_append]
        exact hfailed
      obtain ⟨one, p', hone, hstep⟩ := exists_attempt hrun p
      refine ⟨[one], ⟨t, p'⟩, ?_, ?_⟩
      · rw [List.flatMap_singleton, hone]
      · rw [steps, List.foldlM_cons, hstep]
        rfl
    · obtain ⟨before, after, rfl, rfl, rfl⟩ := List.map_eq_append_iff.mp hfates
      obtain ⟨one, p', hone, hstep⟩ := exists_attempt hys p
      obtain ⟨attempts, h', hall, hsteps⟩ := ih y u hzs p'
      refine ⟨one :: attempts, h', ?_, ?_⟩
      · rw [List.flatMap_cons, hone, hall, List.append_assoc]
      · rw [steps, List.foldlM_cons, hstep]
        exact hsteps

end

section
variable {P : Primitives} {r : Reviver} {s : BleState}

theorem request_settled {α : Type} (uuid : String) (op : OpCode) (iid : UInt16) (body : Bytes)
    (fragSize : Nat) (settle : Except BleError Response × BleState →
      Dialogue GattOp Answer (Except BleError α × BleState)) :
    (do
      reviveIfStale P r
      modify BleState.requesting
      (fun s => (requestSecure P uuid op s.tid iid body fragSize s).bind settle : BleM α)) s =
      (tryRequest P r uuid op iid body fragSize s).bind (andThen fun x t => settle (x, t)) := by
  rw [tryRequest, bind_apply, bind_apply, Dialogue.bind_assoc]
  congr 1
  funext x
  obtain ⟨revived, u⟩ := x
  cases revived with
  | error e => rfl
  | ok _ =>
    show (requestSecure P uuid op u.requesting.tid iid body fragSize u.requesting).bind settle =
      ((requestSecure P uuid op u.requesting.tid iid body fragSize u.requesting).bind fun x =>
        .ret (.ok x.1, x.2)).bind (andThen fun x t => settle (x, t))
    rw [Dialogue.bind_assoc]
    rfl

theorem requesting_readLoop (uuid : String) (iid : UInt16) (fragSize left : Nat) (s : BleState) :
    Requesting P r s (readLoop P r uuid iid fragSize left s) := by
  induction left generalizing s with
  | zero =>
    rw [readLoop, bind_apply]
    refine .request _ _ _ _ _ ?_
    intro x t
    rcases x with e | e | resp
    · exact .ret _ (.refl t)
    · exact .ret _ (.refl t)
    · exact .ret _ (.refl t)
  | succ left ih =>
    rw [readLoop, bind_apply]
    refine .request _ _ _ _ _ ?_
    intro x t
    rcases x with e | e | resp
    · exact .ret _ (.refl t)
    · rw [andThen, settleRead, bind_apply]
      simp only [BleM.get, Dialogue.ret_bind, andThen]
      split_ifs
      · exact ih t
      · exact .ret _ (.refl t)
    · exact .ret _ (.refl t)

theorem requesting_writeLoop (uuid : String) (iid : UInt16) (body : Bytes) (fragSize left : Nat)
    (s : BleState) : Requesting P r s (writeLoop P r uuid iid body fragSize left s) := by
  induction left generalizing s with
  | zero =>
    rw [writeLoop, writeAttempt, request_settled]
    refine .request _ _ _ _ _ ?_
    intro x t
    rcases x with e | e | resp
    · exact .ret _ (.refl t)
    · exact .ret _ (.refl t)
    · exact .ret _ (.refl t)
  | succ left ih =>
    rw [writeLoop, writeAttempt, request_settled]
    refine .request _ _ _ _ _ ?_
    intro x t
    rcases x with e | e | resp
    · exact .ret _ (.refl t)
    · show Requesting P r t (if t.since < t.generation then _ else _)
      split_ifs
      · exact ih t
      · exact .ret _ (.refl t)
    · exact .ret _ (.refl t)

end

/-! ## The operations -/

inductive Operation where
  | read (aid iid : UInt64)
  | write (aid iid : UInt64) (value : CharValue)
  | enableBroadcasts (iids : List UInt64)
  | removePairing (controllerId : String)

section
variable (P : Primitives) (a : BleAccessory) (chars : Chars)

def Operation.run : Operation → BleM Unit
  | read aid iid => do
    let _ ← readChar P a chars aid iid
    pure ()
  | write aid iid value => writeChar P a chars aid iid value
  | enableBroadcasts iids => Ble.enableBroadcasts P a chars iids
  | removePairing controllerId => Ble.removePairing P a controllerId

theorem requesting_readChar (aid iid : UInt64) (s : BleState) :
    Requesting P a.reviver s (readChar P a chars aid iid s) := by
  rw [readChar]
  rcases chars aid iid with - | ⟨uuid, format⟩
  · exact .ret _ (.refl s)
  · dsimp only
    rw [bind_apply, readCharRaw]
    split_ifs
    · refine (requesting_readLoop _ _ _ _ s).settle ?_
      intro x t
      cases x with
      | error e => exact ⟨_, t, rfl, .refl t⟩
      | ok raw => exact ⟨_, t, rfl, .refl t⟩
    · exact .ret _ (.refl s)

theorem requesting_writeChar (aid iid : UInt64) (value : CharValue) (s : BleState) :
    Requesting P a.reviver s (writeChar P a chars aid iid value s) := by
  rw [writeChar]
  rcases chars aid iid with - | ⟨uuid, format⟩
  · exact .ret _ (.refl s)
  · dsimp only
    rw [bind_apply, lift, Dialogue.ret_bind]
    cases encodeValue format value with
    | error e => exact .ret _ (.refl s)
    | ok bytes =>
      rw [andThen, writeCharRaw]
      split_ifs
      · exact requesting_writeLoop _ _ _ _ _ s
      · exact .ret _ (.refl s)

theorem requesting_enableBroadcasts (iids : List UInt64) (s : BleState) :
    Requesting P a.reviver s (Ble.enableBroadcasts P a chars iids s) := by
  induction iids generalizing s with
  | nil => exact .ret _ (.refl s)
  | cons iid iids ih =>
    rw [enableBroadcasts]
    rcases chars 1 iid with - | ⟨uuid, format⟩
    · exact ih s
    · dsimp only
      split_ifs
      · rw [bind_apply]
        refine .request _ _ _ _ _ ?_
        intro x t
        cases x with
        | error e => exact .ret _ (.refl t)
        | ok _ => exact ih t
      · exact ih s

theorem requesting_removePairing (controllerId : String) (s : BleState) :
    Requesting P a.reviver s (Ble.removePairing P a controllerId s) := by
  have hsettled : Ble.removePairing P a controllerId s = _ := request_settled a.pairingsChar
    .characteristicWrite a.pairingsIid (encodeWriteBody (encodeRemovePairing controllerId))
    a.fragSize (settleRemoval (controllerId = a.ownId))
  rw [hsettled]
  refine .request _ _ _ _ _ ?_
  intro x t
  cases x with
  | error e => exact .ret _ (.refl t)
  | ok result => exact .ret _ ⟨rfl, rfl, rfl⟩

theorem Operation.requesting (op : Operation) (s : BleState) :
    Requesting P a.reviver s (op.run P a chars s) := by
  cases op with
  | read aid iid =>
    refine (requesting_readChar P a chars aid iid s).settle ?_
    intro x t
    cases x with
    | error e => exact ⟨_, t, rfl, .refl t⟩
    | ok value => exact ⟨_, t, rfl, .refl t⟩
  | write aid iid value => exact requesting_writeChar P a chars aid iid value s
  | enableBroadcasts iids => exact requesting_enableBroadcasts P a chars iids s
  | removePairing controllerId => exact requesting_removePairing P a controllerId s

end

def sampleHandle : Handle := ⟨sampleState, .new⟩

end HapRust.Ble
