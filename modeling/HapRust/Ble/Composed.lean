import HapRust.Ble.Gatt

/-! Properties of the tasks of the controller that pass from GATT operations with
their retries to all that is made of them: requests, plain and sealed, and Pair
Verify. -/

namespace HapRust.Ble
open Lib Tlv8 Crypto BleM

structure Quiet (s t : BleState) : Prop where
  generation : t.generation = s.generation
  since : t.since = s.since
  delivered : t.delivered = s.delivered

structure Inherited (C : (α : Type) → BleM α → Prop) : Prop where
  pure : ∀ {α : Type} (a : α), C α (pure a)
  throw : ∀ {α : Type} (e : BleError), C α (throw e)
  get : C BleState get
  modify : ∀ {f : BleState → BleState}, (∀ s, Quiet s (f s)) → C Unit (modify f)
  bind : ∀ {α β : Type} {m : BleM α} {f : α → BleM β}, C α m → (∀ a, C β (f a)) → C β (m >>= f)
  retrying : ∀ {op : GattOp}, op ≠ .connect → ∀ left : Nat, C Bytes (retrying op left)

structure Composes (C : (α : Type) → BleM α → Prop) : Prop where
  pure : ∀ {α : Type} (a : α), C α (pure a)
  throw : ∀ {α : Type} (e : BleError), C α (throw e)
  bind : ∀ {α β : Type} {m : BleM α} {f : α → BleM β}, C α m → (∀ a, C β (f a)) → C β (m >>= f)
  retrying : ∀ {op : GattOp}, op ≠ .connect → ∀ left : Nat, C Bytes (retrying op left)

theorem readResponse_of {C : (α : Type) → BleM α → Prop}
    (hlift : ∀ {α : Type} (x : Except BleError α), C α (lift x))
    (hbind : ∀ {α β : Type} {m : BleM α} {f : α → BleM β}, C α m → (∀ a, C β (f a)) →
      C β (m >>= f)) {next : BleM Bytes} (hnext : C Bytes next) :
    C Response (readResponse next) :=
  FragmentReader.lifting_readResponse_of (C := @fun α m => C α m) hbind hlift hnext

namespace Composes
variable {C : (α : Type) → BleM α → Prop} (h : Composes C)
include h

theorem lift {α : Type} (x : Except BleError α) : C α (BleM.lift x) := by
  cases x with
  | ok a => exact h.pure a
  | error e => exact h.throw e

theorem write (uuid : String) (value : Bytes) : C Unit (Ble.write uuid value) :=
  h.bind (h.retrying (by simp) _) fun _ => h.pure ()

theorem writeAll (uuid : String) (frags : List Bytes) : C Unit (Ble.writeAll uuid frags) := by
  induction frags with
  | nil => exact h.pure ()
  | cons frag frags ih => exact h.bind (h.write uuid frag) fun _ => ih

theorem request (uuid : String) (op : OpCode) (tid : UInt8) (iid : UInt16) (body : Bytes)
    (fragSize : Nat) : C Response (Ble.request uuid op tid iid body fragSize) :=
  h.bind (h.writeAll _ _) fun _ => readResponse_of h.lift h.bind (h.retrying (by simp) _)

theorem exchange (uuid : String) (tid : UInt8) (iid : UInt16) (tlv : Bytes) (fragSize : Nat) :
    C Bytes (Ble.exchange uuid tid iid tlv fragSize) := by
  refine h.bind (h.request _ _ _ _ _ _) fun resp => ?_
  split_ifs
  · exact h.throw _
  · exact h.lift _

theorem rounds {σ μ ε β : Type} {stuck : BleM (β × σ)} {exchange : Nat → μ → BleM μ}
    {handle : σ → μ → Except ε (Reaction μ β) × σ} {refuse : ε → BleM (β × σ)}
    (hstuck : C _ stuck) (hexchange : ∀ i out, C μ (exchange i out)) (hrefuse : ∀ e, C _ (refuse e))
    (fuel i : Nat) (c : σ) (out : μ) :
    C (β × σ) (Lib.rounds stuck exchange handle refuse fuel i c out) := by
  induction fuel generalizing i c out with
  | zero => exact hstuck
  | succ fuel ih =>
    rw [Lib.rounds]
    refine h.bind (hexchange i out) fun reply => ?_
    split
    · exact hrefuse _
    · exact ih _ _ _
    · exact h.pure _

theorem verifyLoop (P : Primitives) (r : Reviver) (c : PairVerifyClient) :
    C (SessionKeys × PairVerifyClient) (Crypto.verifyLoop P
      (fun i out => Ble.exchange r.verifyChar (UInt8.ofNat (i + 1)) r.verifyIid out r.fragSize)
      (BleM.throw (.malformedPdu "")) (fun e => BleM.throw (.crypto e)) 2 c) :=
  h.rounds (h.throw _) (fun _ _ => h.exchange _ _ _ _ _) (fun _ => h.throw _) _ _ _ _

end Composes

namespace Inherited
variable {C : (α : Type) → BleM α → Prop} (h : Inherited C)
include h

theorem composes : Composes C := ⟨h.pure, h.throw, h.bind, h.retrying⟩

theorem sealFrag (P : Primitives) (frag : Bytes) : C Bytes (Ble.sealFrag P frag) := by
  refine h.bind h.get fun s => ?_
  split
  · exact h.throw _
  · exact h.bind (h.modify fun _ => ⟨rfl, rfl, rfl⟩) fun _ => h.pure _

theorem openFrag (P : Primitives) (data : Bytes) : C Bytes (Ble.openFrag P data) := by
  refine h.bind h.get fun s => ?_
  split
  · exact h.throw _
  · exact h.bind (h.modify fun _ => ⟨rfl, rfl, rfl⟩) fun _ => h.pure _

theorem writeSealed (P : Primitives) (uuid : String) (frags : List Bytes) :
    C Unit (Ble.writeSealed P uuid frags) := by
  induction frags with
  | nil => exact h.pure ()
  | cons frag frags ih =>
    exact h.bind (h.sealFrag P frag) fun sealed => h.bind (h.composes.write uuid sealed) fun _ => ih

theorem readSealed (P : Primitives) (uuid : String) : C Bytes (Ble.readSealed P uuid) :=
  h.bind (h.retrying (by simp) _) fun data => h.openFrag P data

theorem requestSecure (P : Primitives) (uuid : String) (op : OpCode) (tid : UInt8) (iid : UInt16)
    (body : Bytes) (fragSize : Nat) :
    C Response (Ble.requestSecure P uuid op tid iid body fragSize) :=
  h.bind (h.writeSealed P _ _) fun _ =>
    readResponse_of h.composes.lift h.bind (h.readSealed P uuid)

theorem pairVerify (P : Primitives) (r : Reviver) : C (Arr 32) (Ble.pairVerify P r) := by
  refine h.bind (h.modify fun _ => ⟨rfl, rfl, rfl⟩) fun _ => ?_
  refine h.bind (h.composes.verifyLoop P r _) ?_
  rintro ⟨keys, client⟩
  refine h.bind (h.composes.lift _) fun bkey => ?_
  exact h.bind (h.modify fun _ => ⟨rfl, rfl, rfl⟩) fun _ => h.pure _

end Inherited

/-! ## The session -/

structure BleState.Untouched (s t : BleState) : Prop where
  session : t.session = s.session
  tid : t.tid = s.tid
  since : t.since = s.since

theorem BleState.Untouched.trans {s t u : BleState} (h : s.Untouched t) (h' : t.Untouched u) :
    s.Untouched u :=
  ⟨h'.session.trans h.session, h'.tid.trans h.tid, h'.since.trans h.since⟩

def Sparing {α : Type} (m : BleM α) : Prop := ∀ s, (m s).Always fun r => s.Untouched r.2

theorem sparing_bind {α β : Type} {m : BleM α} {f : α → BleM β} (hm : Sparing m)
    (hf : ∀ a, Sparing (f a)) : Sparing (m >>= f) := by
  intro s
  refine (hm s).bind ?_
  rintro ⟨result, t⟩ hst
  cases result with
  | error e => exact hst
  | ok a => exact (hf a t).imp fun r hr => hst.trans hr

theorem sparing_lift {α : Type} (x : Except BleError α) : Sparing (lift x) :=
  fun _ => ⟨rfl, rfl, rfl⟩

theorem sparing_reconnect : Sparing reconnect := by
  intro s x
  cases x <;> exact ⟨rfl, rfl, rfl⟩

theorem sparing_attempt {op : GattOp} {again : BleM Bytes} (h : Sparing again) :
    Sparing (attempt op again) := by
  intro s x
  cases x with
  | done link value => exact ⟨rfl, rfl, rfl⟩
  | lost link =>
    cases link with
    | none => exact h s
    | some link =>
      have hreach : s.Untouched (s.reach op link) := ⟨rfl, rfl, rfl⟩
      exact (h (s.reach op link)).imp fun r hr => hreach.trans hr
  | failed e => exact ⟨rfl, rfl, rfl⟩

theorem sparing_retrying (op : GattOp) (left : Nat) : Sparing (retrying op left) := by
  induction left with
  | zero => exact sparing_attempt (sparing_lift _)
  | succ left ih => exact sparing_attempt (sparing_bind sparing_reconnect fun _ => ih)

end HapRust.Ble
