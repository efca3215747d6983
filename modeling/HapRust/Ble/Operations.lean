import HapRust.Ble.Advert

/-! The encrypted operations of a BLE accessory beside the write: reading a
characteristic, and asking for encrypted broadcasts. Each is made of requests
under the lock on the session, which is revived first if it is stale. -/

namespace HapRust.Ble
open Lib Tlv8 Crypto BleM

def enableBroadcastBody : Bytes := [0x01, 0x02, 0x01, 0x00, 0x02, 0x01, 0x01]

section
variable (P : Primitives) (r : Reviver) (uuid : String) (op : OpCode) (iid : UInt16) (body : Bytes)
  (fragSize : Nat)

def tryRequest : BleM (Except BleError Response) := do
  reviveIfStale P r
  modify BleState.requesting
  fun s => (requestSecure P uuid op s.tid iid body fragSize s).bind fun x => .ret (.ok x.1, x.2)

def settleRead (again : Option (BleM Bytes)) : Except BleError Response → BleM Bytes
  | .ok resp => lift (valueParam resp.body)
  | .error e => do
    let s ← get
    match again with
    | some again => if s.since < s.generation then again else throw e
    | none => throw e

def readLoop : Nat → BleM Bytes
  | 0 => tryRequest P r uuid .characteristicRead iid [] fragSize >>= settleRead none
  | left + 1 =>
    tryRequest P r uuid .characteristicRead iid [] fragSize >>= settleRead (some (readLoop left))

end

section
variable (P : Primitives) (a : BleAccessory) (chars : Chars)

def readCharRaw (uuid : String) (iid : UInt64) : BleM Bytes :=
  if iid.toNat < 2 ^ 16 then
    readLoop P a.reviver uuid (UInt16.ofNat iid.toNat) a.fragSize (maxReviveRetries - 1)
  else throw (.characteristicNotFound 0 iid)

def readChar (aid iid : UInt64) : BleM CharValue :=
  match chars aid iid with
  | none => throw (.characteristicNotFound aid iid)
  | some (uuid, format) => do
    let raw ← readCharRaw P a uuid iid
    lift (decodeValue raw format)

def enableBroadcasts : List UInt64 → BleM Unit
  | [] => pure ()
  | iid :: iids =>
    match chars 1 iid with
    | none => enableBroadcasts iids
    | some (uuid, _) =>
      if iid.toNat < 2 ^ 16 then do
        let _ ← tryRequest P a.reviver uuid .characteristicConfig (UInt16.ofNat iid.toNat)
          enableBroadcastBody a.fragSize
        enableBroadcasts iids
      else enableBroadcasts iids

end

/-! ## Runs that succeed -/

theorem BleM.outcome_bind_ok {α β : Type} {m : BleM α} {f : α → BleM β} {s t : BleState}
    {answers : List Answer} {b : β} :
    ((m >>= f) s).outcome answers = some (.ok b, t) ↔
      ∃ before rest a u, answers = before ++ rest ∧ (m s).outcome before = some (.ok a, u) ∧
        (f a u).outcome rest = some (.ok b, t) := by
  rw [bind_apply, Dialogue.outcome_bind]
  constructor
  · rintro ⟨before, rest, ⟨x, u⟩, rfl, hm, hf⟩
    cases x with
    | error e => cases Dialogue.outcome_ret hf
    | ok a => exact ⟨before, rest, a, u, rfl, hm, hf⟩
  · rintro ⟨before, rest, a, u, rfl, hm, hf⟩
    exact ⟨before, rest, (.ok a, u), rfl, hm, hf⟩

theorem BleM.exists_of_result {α : Type}
    {d : Dialogue GattOp Answer (Except BleError α × BleState)} {answers : List Answer} {a : α}
    (h : (d.outcome answers).map (·.1.toOption) = some (some a)) :
    ∃ t, d.outcome answers = some (.ok a, t) := by
  obtain ⟨⟨result, t⟩, hrun, hresult⟩ := Option.map_eq_some_iff.mp h
  cases result with
  | error e => cases hresult
  | ok b =>
    obtain rfl := Option.some.inj hresult
    exact ⟨t, hrun⟩

section
variable {P : Primitives} {r : Reviver} {uuid : String} {op : OpCode} {iid : UInt16} {body : Bytes}
  {fragSize : Nat} {s t : BleState} {answers : List Answer}

theorem tryRequest_ok {result : Except BleError Response}
    (h : (tryRequest P r uuid op iid body fragSize s).outcome answers = some (.ok result, t)) :
    ∃ before last u, answers = before ++ last ∧
      (requestSecure P uuid op u.tid iid body fragSize u).outcome last = some (result, t) := by
  rw [tryRequest] at h
  obtain ⟨before, rest, -, u, rfl, -, hrest⟩ := BleM.outcome_bind_ok.mp h
  obtain ⟨no, rest, _, v, rfl, hmodify, hlast⟩ := BleM.outcome_bind_ok.mp hrest
  obtain ⟨rfl, hv⟩ := Dialogue.outcome_ret_nil hmodify
  obtain ⟨ys, zs, ⟨x, w⟩, rfl, hrequest, hret⟩ := Dialogue.outcome_bind.mp hlast
  obtain ⟨rfl, heq⟩ := Dialogue.outcome_ret_nil hret
  obtain ⟨hx, rfl⟩ := Prod.mk.inj heq
  obtain rfl := Except.ok.inj hx
  exact ⟨before, ys, v, by rw [List.nil_append, List.append_nil], hrequest⟩

theorem settleRead_ok {again : Option (BleM Bytes)} {result : Except BleError Response}
    {value : Bytes} (h : (settleRead again result s).outcome answers = some (.ok value, t)) :
    (∃ resp, result = .ok resp ∧ answers = [] ∧ valueParam resp.body = .ok value ∧ s = t) ∨
      ∃ next, again = some next ∧ (next s).outcome answers = some (.ok value, t) := by
  cases result with
  | ok resp =>
    obtain ⟨rfl, heq⟩ := Dialogue.outcome_ret_nil h
    obtain ⟨hvalue, rfl⟩ := Prod.mk.inj heq
    exact .inl ⟨resp, rfl, rfl, hvalue, rfl⟩
  | error e =>
    right
    cases again with
    | none => cases Dialogue.outcome_ret h
    | some next =>
      by_cases hstale : s.since < s.generation
      · rw [settleRead, bind_apply] at h
        simp only [BleM.get, Dialogue.ret_bind, andThen, if_pos hstale] at h
        exact ⟨next, rfl, h⟩
      · rw [settleRead, bind_apply] at h
        simp only [BleM.get, Dialogue.ret_bind, andThen, if_neg hstale] at h
        cases Dialogue.outcome_ret h

theorem readLoop_ok {left : Nat} {value : Bytes}
    (h : (readLoop P r uuid iid fragSize left s).outcome answers = some (.ok value, t)) :
    ∃ before last u resp, answers = before ++ last ∧
      (requestSecure P uuid .characteristicRead u.tid iid [] fragSize u).outcome last =
        some (.ok resp, t) ∧
      valueParam resp.body = .ok value := by
  induction left generalizing s answers with
  | zero =>
    rw [readLoop] at h
    obtain ⟨before, rest, result, u, rfl, htry, hrest⟩ := BleM.outcome_bind_ok.mp h
    rcases settleRead_ok hrest with ⟨resp, rfl, rfl, hvalue, rfl⟩ | ⟨next, hnone, -⟩
    · obtain ⟨ys, last, v, rfl, hrequest⟩ := tryRequest_ok htry
      exact ⟨ys, last, v, resp, by rw [List.append_nil], hrequest, hvalue⟩
    · cases hnone
  | succ left ih =>
    rw [readLoop] at h
    obtain ⟨before, rest, result, u, rfl, htry, hrest⟩ := BleM.outcome_bind_ok.mp h
    rcases settleRead_ok hrest with ⟨resp, rfl, rfl, hvalue, rfl⟩ | ⟨next, hnext, hrest⟩
    · obtain ⟨ys, last, v, rfl, hrequest⟩ := tryRequest_ok htry
      exact ⟨ys, last, v, resp, by rw [List.append_nil], hrequest, hvalue⟩
    · obtain rfl := Option.some.inj hnext
      obtain ⟨more, last, v, resp, rfl, hrequest, hvalue⟩ := ih hrest
      exact ⟨before ++ more, last, v, resp, by rw [List.append_assoc], hrequest, hvalue⟩

end
end HapRust.Ble
