import Mathlib.Data.Seq.Basic
import HapRust.Controller.Pair

/-! Waiting for an accessory that sleeps: the connector is tried until it comes back with the
accessory, and given up only after three failures that sleep does not explain. There is no bound
on the attempts, so that what the connector answers is a finite or infinite sequence. -/

namespace HapRust.Controller
open Lib Crypto Pairing Ble

structure AdvertisedCall where
  deviceId : Arr 6
  pairing : AccessoryPairing
  broadcast : Option StoredBroadcast

structure ConnectAttempt where
  deviceId : Arr 6
  pairing : AccessoryPairing
  state : Option BleBroadcastState
  deriving DecidableEq

structure Listening (η : Type) where
  asked : List ConnectAttempt
  sessionFailures : Nat
  result : Option (Except HapError η)

def maxSessionFailures : Nat := 3

namespace AdvertisedCall

def attempt (call : AdvertisedCall) : ConnectAttempt :=
  ⟨call.deviceId, call.pairing, call.broadcast.map fun b => ⟨b.key, b.gsn⟩⟩

section
variable {α η : Type} (fromBle : α → η) (call : AdvertisedCall)

def turn (w : Listening η) (outcome : Except BleError α) : Listening η :=
  let w := { w with asked := w.asked ++ [call.attempt] }
  match outcome with
  | .ok accessory => { w with result := some (.ok (fromBle accessory)) }
  | .error .accessoryNotFound | .error .disconnected | .error (.backend _) => w
  | .error e =>
    let w := { w with sessionFailures := w.sessionFailures + 1 }
    if maxSessionFailures ≤ w.sessionFailures then { w with result := some (.error (.ble e)) } else w

def listen : List (Except BleError α) → Listening η → Listening η
  | [], w => w
  | outcome :: outcomes, w =>
    let w := call.turn fromBle w outcome
    if w.result.isSome then w else listen outcomes w

def connectBleWhenAdvertised (outcomes : List (Except BleError α)) : Listening η :=
  call.listen fromBle outcomes ⟨[], 0, none⟩

end
end AdvertisedCall

/-! ## The two kinds of failures -/

def Transient : BleError → Bool
  | .accessoryNotFound | .disconnected | .backend _ => true
  | _ => false

section
variable {α : Type}

def isSuccess : Except BleError α → Bool
  | .ok _ => true
  | .error _ => false

def isSessionFailure : Except BleError α → Bool
  | .ok _ => false
  | .error e => !Transient e

def sessionFailures (outcomes : List (Except BleError α)) : Nat := outcomes.countP isSessionFailure

end

namespace AdvertisedCall

section
variable {α η : Type} {fromBle : α → η} {call : AdvertisedCall} {w : Listening η}

theorem turn_ok (a : α) : call.turn fromBle w (.ok a) =
    { w with asked := w.asked ++ [call.attempt], result := some (.ok (fromBle a)) } := rfl

theorem turn_transient {e : BleError} (h : Transient e = true) :
    call.turn fromBle w (.error e) = { w with asked := w.asked ++ [call.attempt] } := by
  cases e <;> first | rfl | cases h

theorem turn_sessionFailure {e : BleError} (h : Transient e = false) :
    call.turn fromBle w (.error e) =
      if 3 ≤ w.sessionFailures + 1 then
        { asked := w.asked ++ [call.attempt], sessionFailures := w.sessionFailures + 1
          result := some (.error (.ble e)) }
      else { w with asked := w.asked ++ [call.attempt], sessionFailures := w.sessionFailures + 1 } := by
  cases e <;> first | rfl | cases h

/-! ## How a sequence of answers is settled -/

def Settles (fromBle : α → η) (outcomes : List (Except BleError α)) (n : Nat)
    (r : Except HapError η) : Prop :=
  (∀ o ∈ outcomes.take n, isSuccess o = false) ∧
    ((∃ a, outcomes[n]? = some (.ok a) ∧ sessionFailures (outcomes.take n) < 3 ∧
        r = .ok (fromBle a)) ∨
      ∃ e, outcomes[n]? = some (.error e) ∧ Transient e = false ∧
        sessionFailures (outcomes.take n) = 2 ∧ r = .error (.ble e))

structure Open (call : AdvertisedCall) (outcomes : List (Except BleError α)) (w : Listening η) :
    Prop where
  result : w.result = none
  failures : w.sessionFailures = sessionFailures outcomes
  few : sessionFailures outcomes < 3
  no_success : ∀ o ∈ outcomes, isSuccess o = false
  asked : w.asked = List.replicate outcomes.length call.attempt

section
variable {outcomes rest : List (Except BleError α)} {o : Except BleError α} {r r' : Except HapError η}
  {n n' : Nat}

theorem sessionFailures_concat : sessionFailures (outcomes ++ [o]) =
    sessionFailures outcomes + if isSessionFailure o then 1 else 0 := by
  rw [sessionFailures, List.countP_append, List.countP_singleton]
  rfl

theorem sessionFailures_take_succ (h : outcomes[n]? = some o) :
    sessionFailures (outcomes.take (n + 1)) =
      sessionFailures (outcomes.take n) + if isSessionFailure o then 1 else 0 := by
  rw [List.take_add_one, h]
  exact sessionFailures_concat

theorem sessionFailures_take_le {m : Nat} (h : m ≤ n) :
    sessionFailures (outcomes.take m) ≤ sessionFailures (outcomes.take n) :=
  (List.take_sublist_take_left h).countP_le

theorem Settles.before (h : Settles fromBle outcomes n r) (hlt : n < n') :
    (∃ o ∈ outcomes.take n', isSuccess o = true) ∨ 3 ≤ sessionFailures (outcomes.take n') := by
  have hmem : ∀ o, outcomes[n]? = some o → o ∈ outcomes.take n' := by
    intro o ho
    apply List.mem_of_getElem? (i := n)
    rw [List.getElem?_take_of_lt hlt, ho]
  obtain ⟨-, ⟨a, ha, -, -⟩ | ⟨e, he, htransient, hcount, -⟩⟩ := h
  · exact .inl ⟨_, hmem _ ha, rfl⟩
  · right
    have hthree := sessionFailures_take_succ he
    rw [hcount, isSessionFailure, htransient] at hthree
    exact hthree.ge.trans (sessionFailures_take_le hlt)

theorem Settles.unique (h : Settles fromBle outcomes n r) (h' : Settles fromBle outcomes n' r') :
    n = n' ∧ r = r' := by
  have hnot : ∀ {m m' : Nat} {q q' : Except HapError η}, Settles fromBle outcomes m q →
      Settles fromBle outcomes m' q' → ¬ m < m' := by
    intro m m' q q' hm hm' hlt
    obtain ⟨hnone, hend⟩ := hm'
    rcases hm.before hlt with ⟨o, ho, hsuccess⟩ | hthree
    · rw [hnone o ho] at hsuccess
      cases hsuccess
    · rcases hend with ⟨a, -, hfew, -⟩ | ⟨e, -, -, htwo, -⟩ <;> omega
  obtain rfl : n = n' := Nat.le_antisymm (Nat.not_lt.mp (hnot h' h)) (Nat.not_lt.mp (hnot h h'))
  refine ⟨rfl, ?_⟩
  obtain ⟨-, ⟨a, ha, -, rfl⟩ | ⟨e, he, -, -, rfl⟩⟩ := h
  · obtain ⟨-, ⟨a', ha', -, rfl⟩ | ⟨e', he', -, -, rfl⟩⟩ := h'
    · rw [Except.ok.inj (Option.some.inj (ha.symm.trans ha'))]
    · cases ha.symm.trans he'
  · obtain ⟨-, ⟨a', ha', -, rfl⟩ | ⟨e', he', -, -, rfl⟩⟩ := h'
    · cases he.symm.trans ha'
    · rw [Except.error.inj (Option.some.inj (he.symm.trans he'))]

theorem Open.not_settles (h : Open call outcomes w) : ¬ Settles fromBle outcomes n r := by
  intro hsettles
  have hlt : n < outcomes.length := by
    by_contra hle
    have hnone : outcomes[n]? = none := List.getElem?_eq_none (Nat.not_lt.mp hle)
    rcases hsettles.2 with ⟨a, ha, -⟩ | ⟨e, he, -⟩
    · cases hnone.symm.trans ha
    · cases hnone.symm.trans he
  have hbefore := hsettles.before hlt
  rw [List.take_length] at hbefore
  rcases hbefore with ⟨o, ho, hsuccess⟩ | hthree
  · rw [h.no_success o ho] at hsuccess
    cases hsuccess
  · exact absurd h.few (Nat.not_lt.mpr hthree)

theorem asked_concat (h : Open call outcomes w) :
    w.asked ++ [call.attempt] = List.replicate (outcomes.length + 1) call.attempt := by
  rw [h.asked, List.replicate_succ']

theorem Open.concat (h : Open call outcomes w) (hsuccess : isSuccess o = false)
    (hfew : sessionFailures (outcomes ++ [o]) < 3) :
    Open call (outcomes ++ [o])
      ⟨w.asked ++ [call.attempt], sessionFailures (outcomes ++ [o]), (none : Option (Except HapError η))⟩ := by
  refine ⟨rfl, rfl, hfew, fun o' ho' => ?_, ?_⟩
  · rcases List.mem_append.mp ho' with ho' | ho'
    · exact h.no_success o' ho'
    · rw [List.mem_singleton.mp ho']
      exact hsuccess
  · rw [asked_concat h, List.length_append, List.length_singleton]

def Outcome (fromBle : α → η) (call : AdvertisedCall) (outcomes : List (Except BleError α))
    (w : Listening η) : Prop :=
  Open call outcomes w ∨
    ∃ n r, w.result = some r ∧ Settles fromBle outcomes n r ∧
      w.asked = List.replicate (n + 1) call.attempt

theorem Open.settled (h : Open call outcomes w) {r : Except HapError η} {k : Nat}
    (hend : (∃ a, o = .ok a ∧ r = .ok (fromBle a)) ∨
      ∃ e, o = .error e ∧ Transient e = false ∧ sessionFailures outcomes = 2 ∧ r = .error (.ble e)) :
    Outcome fromBle call (outcomes ++ o :: rest) ⟨w.asked ++ [call.attempt], k, some r⟩ := by
  have hget : (outcomes ++ o :: rest)[outcomes.length]? = some o := by
    rw [List.getElem?_append_right le_rfl, Nat.sub_self]
    rfl
  refine .inr ⟨outcomes.length, r, rfl, ⟨?_, ?_⟩, asked_concat h⟩
  · rw [List.take_left]
    exact h.no_success
  · rw [List.take_left, hget]
    rcases hend with ⟨a, rfl, rfl⟩ | ⟨e, rfl, htransient, htwo, rfl⟩
    · exact .inl ⟨a, rfl, h.few, rfl⟩
    · exact .inr ⟨e, rfl, htransient, htwo, rfl⟩

theorem listen_cons_of_some {r : Except HapError η} (h : (call.turn fromBle w o).result = some r) :
    call.listen fromBle (o :: rest) w = call.turn fromBle w o := by
  rw [listen]
  exact if_pos (by rw [h]; rfl)

theorem listen_cons_of_none (h : (call.turn fromBle w o).result = none) :
    call.listen fromBle (o :: rest) w = call.listen fromBle rest (call.turn fromBle w o) := by
  rw [listen]
  exact if_neg (by rw [h]; exact Bool.false_ne_true)

variable (fromBle) in
theorem Open.turn_cases (h : Open call outcomes w) (o : Except BleError α) :
    (∃ r, call.turn fromBle w o =
        ⟨w.asked ++ [call.attempt], sessionFailures (outcomes ++ [o]), some r⟩ ∧
      ((∃ a, o = .ok a ∧ r = .ok (fromBle a)) ∨
        ∃ e, o = .error e ∧ Transient e = false ∧ sessionFailures outcomes = 2 ∧
          r = .error (.ble e))) ∨
    (call.turn fromBle w o =
        ⟨w.asked ++ [call.attempt], sessionFailures (outcomes ++ [o]), none⟩ ∧
      isSuccess o = false ∧ sessionFailures (outcomes ++ [o]) < 3) := by
  have hfew := h.few
  rw [sessionFailures_concat, ← h.failures, ← h.result]
  rw [← h.failures] at hfew
  cases o with
  | ok a => exact .inl ⟨_, turn_ok a, .inl ⟨a, rfl, rfl⟩⟩
  | error e =>
    rw [isSessionFailure]
    cases htransient : Transient e with
    | true => exact .inr ⟨turn_transient htransient, rfl, hfew⟩
    | false =>
      have hturn : call.turn fromBle w (.error e) = _ := turn_sessionFailure htransient
      by_cases hthird : 3 ≤ w.sessionFailures + 1
      · rw [if_pos hthird] at hturn
        exact .inl ⟨_, hturn, .inr ⟨e, rfl, htransient, by omega, rfl⟩⟩
      · rw [if_neg hthird] at hturn
        exact .inr ⟨hturn, rfl, Nat.not_le.mp hthird⟩

theorem outcome_listen (h : Open call outcomes w) :
    Outcome fromBle call (outcomes ++ rest) (call.listen fromBle rest w) := by
  induction rest generalizing outcomes w with
  | nil =>
    rw [List.append_nil, listen]
    exact .inl h
  | cons o rest ih =>
    rcases h.turn_cases fromBle o with ⟨r, hturn, hend⟩ | ⟨hturn, hsuccess, hfew⟩
    · rw [listen_cons_of_some (by rw [hturn]), hturn]
      exact h.settled hend
    · have hassoc : outcomes ++ o :: rest = outcomes ++ [o] ++ rest := by
        rw [List.append_assoc]
        rfl
      rw [listen_cons_of_none (by rw [hturn]), hturn, hassoc]
      exact ih (h.concat hsuccess hfew)

variable (fromBle call outcomes) in
theorem outcome_connect :
    Outcome fromBle call outcomes (call.connectBleWhenAdvertised fromBle outcomes) := by
  have hstart : Open call ([] : List (Except BleError α)) (⟨[], 0, none⟩ : Listening η) :=
    ⟨rfl, rfl, Nat.zero_lt_succ 2, by simp, rfl⟩
  exact outcome_listen hstart

theorem result_eq_some_iff : (call.connectBleWhenAdvertised fromBle outcomes).result = some r ↔
    ∃ n, Settles fromBle outcomes n r := by
  constructor
  · intro hr
    rcases outcome_connect fromBle call outcomes with hopen | ⟨n, r', hr', hn, -⟩
    · cases hopen.result.symm.trans hr
    · obtain rfl := Option.some.inj (hr.symm.trans hr')
      exact ⟨n, hn⟩
  · rintro ⟨n, hn⟩
    rcases outcome_connect fromBle call outcomes with hopen | ⟨n', r', hr', hn', -⟩
    · exact absurd hn hopen.not_settles
    · rw [hr', (hn.unique hn').2]

theorem attempt_of_asked (attempt : ConnectAttempt)
    (h : attempt ∈ (call.connectBleWhenAdvertised fromBle outcomes).asked) :
    attempt = call.attempt := by
  rcases outcome_connect fromBle call outcomes with hopen | ⟨n, r, -, -, hasked⟩
  · rw [hopen.asked] at h
    exact List.eq_of_mem_replicate h
  · rw [hasked] at h
    exact List.eq_of_mem_replicate h

theorem exists_third_failure (h : 3 ≤ sessionFailures (outcomes.take n)) :
    ∃ k e, k < n ∧ outcomes[k]? = some (.error e) ∧ Transient e = false ∧
      sessionFailures (outcomes.take k) = 2 := by
  induction n with
  | zero => exact absurd h (by simp [sessionFailures])
  | succ n ih =>
    by_cases hbefore : 3 ≤ sessionFailures (outcomes.take n)
    · obtain ⟨k, e, hk, hrest⟩ := ih hbefore
      exact ⟨k, e, Nat.lt_succ_of_lt hk, hrest⟩
    · cases hget : outcomes[n]? with
      | none =>
        rw [List.take_add_one, hget] at h
        exact absurd (by simpa using h) hbefore
      | some o =>
        rw [sessionFailures_take_succ hget] at h
        cases hfailure : isSessionFailure o with
        | false =>
          rw [hfailure] at h
          exact absurd h hbefore
        | true =>
          rw [hfailure] at h
          cases o with
          | ok a => cases hfailure
          | error e =>
            refine ⟨n, e, Nat.lt_succ_self n, hget, (Bool.not_eq_true' _).mp hfailure, ?_⟩
            exact Nat.le_antisymm (Nat.le_of_lt_succ (Nat.not_le.mp hbefore)) (Nat.le_of_succ_le_succ h)

theorem listen_filter {w' : Listening η} (hresult : w.result = w'.result)
    (hcount : w.sessionFailures = w'.sessionFailures) (hopen : w.result = none) :
    (call.listen fromBle outcomes w).result =
      (call.listen fromBle (outcomes.filter fun o => isSuccess o || isSessionFailure o) w').result := by
  induction outcomes generalizing w w' with
  | nil => exact hresult
  | cons o rest ih =>
    have hopen' : w'.result = none := hresult ▸ hopen
    cases o with
    | ok a =>
      rw [List.filter_cons_of_pos rfl, listen_cons_of_some rfl, listen_cons_of_some rfl]
      rfl
    | error e =>
      cases htransient : Transient e with
      | true =>
        have hturn : call.turn fromBle w (.error e) = _ := turn_transient htransient
        rw [List.filter_cons_of_neg (by simp [isSuccess, isSessionFailure, htransient]),
          listen_cons_of_none (by rw [hturn]; exact hopen), hturn]
        exact ih hresult hcount hopen
      | false =>
        have hturn : call.turn fromBle w (.error e) = _ := turn_sessionFailure htransient
        have hturn' : call.turn fromBle w' (.error e) = _ := turn_sessionFailure htransient
        rw [List.filter_cons_of_pos (by simp [isSuccess, isSessionFailure, htransient])]
        by_cases hthird : 3 ≤ w.sessionFailures + 1
        · rw [if_pos hthird] at hturn
          rw [if_pos (hcount ▸ hthird)] at hturn'
          rw [listen_cons_of_some (by rw [hturn]), listen_cons_of_some (by rw [hturn']), hturn, hturn']
        · rw [if_neg hthird] at hturn
          rw [if_neg (hcount ▸ hthird)] at hturn'
          rw [listen_cons_of_none (by rw [hturn]; exact hopen),
            listen_cons_of_none (by rw [hturn']; exact hopen'), hturn, hturn']
          exact ih hresult (congrArg (· + 1) hcount) hopen

end

/-! ## Over all that the connector ever answers -/

section
variable {s : Stream'.Seq (Except BleError α)} {n N : Nat} {a : α} {e : BleError}
  {r r' : Except HapError η}

def Returns (fromBle : α → η) (call : AdvertisedCall) (s : Stream'.Seq (Except BleError α))
    (r : Except HapError η) : Prop :=
  ∃ N, (call.connectBleWhenAdvertised fromBle (s.take N)).result = some r

def FirstSuccess (s : Stream'.Seq (Except BleError α)) (n : Nat) (a : α) : Prop :=
  s.get? n = some (.ok a) ∧ ∀ o ∈ s.take n, isSuccess o = false

def ThirdFailure (s : Stream'.Seq (Except BleError α)) (n : Nat) (e : BleError) : Prop :=
  s.get? n = some (.error e) ∧ Transient e = false ∧ sessionFailures (s.take n) = 2

theorem take_take_of_le (h : n ≤ N) : (s.take N).take n = s.take n := by
  apply List.ext_getElem?
  intro i
  rw [List.getElem?_take, Stream'.Seq.getElem?_take, Stream'.Seq.getElem?_take]
  by_cases hi : i < n
  · rw [if_pos hi, if_pos hi, if_pos (hi.trans_le h)]
  · rw [if_neg hi, if_neg hi]

theorem getElem?_take_of_lt (h : n < N) : (s.take N)[n]? = s.get? n := by
  rw [Stream'.Seq.getElem?_take, if_pos h]

theorem settles_take_iff (h : n < N) : Settles fromBle (s.take N) n r ↔
    (∃ a, FirstSuccess s n a ∧ sessionFailures (s.take n) < 3 ∧ r = .ok (fromBle a)) ∨
      ∃ e, ThirdFailure s n e ∧ (∀ o ∈ s.take n, isSuccess o = false) ∧ r = .error (.ble e) := by
  unfold Settles FirstSuccess ThirdFailure
  rw [take_take_of_le h.le, getElem?_take_of_lt h]
  constructor
  · rintro ⟨hnone, ⟨a, ha, hfew, hr⟩ | ⟨e, he, htransient, htwo, hr⟩⟩
    · exact .inl ⟨a, ⟨ha, hnone⟩, hfew, hr⟩
    · exact .inr ⟨e, ⟨he, htransient, htwo⟩, hnone, hr⟩
  · rintro (⟨a, ⟨ha, hnone⟩, hfew, hr⟩ | ⟨e, ⟨he, htransient, htwo⟩, hnone, hr⟩)
    · exact ⟨hnone, .inl ⟨a, ha, hfew, hr⟩⟩
    · exact ⟨hnone, .inr ⟨e, he, htransient, htwo, hr⟩⟩

theorem Settles.lt_of_take (h : Settles fromBle (s.take N) n r) : n < N := by
  have hget : ∃ o, (s.take N)[n]? = some o := by
    rcases h.2 with ⟨a, ha, -⟩ | ⟨e, he, -⟩
    · exact ⟨_, ha⟩
    · exact ⟨_, he⟩
  obtain ⟨o, ho⟩ := hget
  exact (List.getElem?_eq_some_iff.mp ho).1.trans_le Stream'.Seq.length_take_le

theorem returns_iff : Returns fromBle call s r ↔
    (∃ n a, FirstSuccess s n a ∧ sessionFailures (s.take n) < 3 ∧ r = .ok (fromBle a)) ∨
      ∃ n e, ThirdFailure s n e ∧ (∀ o ∈ s.take n, isSuccess o = false) ∧ r = .error (.ble e) := by
  constructor
  · rintro ⟨N, hN⟩
    obtain ⟨n, hn⟩ := result_eq_some_iff.mp hN
    rcases (settles_take_iff hn.lt_of_take).mp hn with ⟨a, ha⟩ | ⟨e, he⟩
    · exact .inl ⟨n, a, ha⟩
    · exact .inr ⟨n, e, he⟩
  · rintro (⟨n, a, ha⟩ | ⟨n, e, he⟩)
    · exact ⟨n + 1, result_eq_some_iff.mpr
        ⟨n, (settles_take_iff (Nat.lt_succ_self n)).mpr (.inl ⟨a, ha⟩)⟩⟩
    · exact ⟨n + 1, result_eq_some_iff.mpr
        ⟨n, (settles_take_iff (Nat.lt_succ_self n)).mpr (.inr ⟨e, he⟩)⟩⟩

theorem Returns.unique (h : Returns fromBle call s r) (h' : Returns fromBle call s r') : r = r' := by
  obtain ⟨N, hN⟩ := h
  obtain ⟨N', hN'⟩ := h'
  obtain ⟨n, hn⟩ := result_eq_some_iff.mp hN
  obtain ⟨n', hn'⟩ := result_eq_some_iff.mp hN'
  have hlt : n < max N N' := hn.lt_of_take.trans_le (le_max_left N N')
  have hlt' : n' < max N N' := hn'.lt_of_take.trans_le (le_max_right N N')
  have hmax := (settles_take_iff hlt).mpr ((settles_take_iff hn.lt_of_take).mp hn)
  have hmax' := (settles_take_iff hlt').mpr ((settles_take_iff hn'.lt_of_take).mp hn')
  exact (hmax.unique hmax').2

theorem Returns.iff_eq (h : Returns fromBle call s r) (r' : Except HapError η) :
    Returns fromBle call s r' ↔ r' = r :=
  ⟨fun h' => h'.unique h, fun heq => heq ▸ h⟩

theorem FirstSuccess.exists_third (h : FirstSuccess s n a) (hthree : 3 ≤ sessionFailures (s.take n)) :
    ∃ k e, k < n ∧ ThirdFailure s k e ∧ Returns fromBle call s (.error (.ble e)) := by
  rw [← take_take_of_le (Nat.le_succ n)] at hthree
  obtain ⟨k, e, hk, hget, htransient, htwo⟩ := exists_third_failure hthree
  have hlt : k < n + 1 := hk.trans (Nat.lt_succ_self n)
  rw [getElem?_take_of_lt hlt] at hget
  rw [take_take_of_le hlt.le] at htwo
  have hnone : ∀ o ∈ s.take k, isSuccess o = false := by
    intro o ho
    rw [← take_take_of_le hk.le] at ho
    exact h.2 o (List.mem_of_mem_take ho)
  exact ⟨k, e, hk, ⟨hget, htransient, htwo⟩,
    returns_iff.mpr (.inr ⟨k, e, ⟨hget, htransient, htwo⟩, hnone, rfl⟩)⟩

theorem no_success_of_never (h : ∀ n a, s.get? n ≠ some (.ok a)) :
    ∀ o ∈ s.take n, isSuccess o = false := by
  intro o ho
  obtain ⟨i, hi⟩ := List.mem_iff_getElem?.mp ho
  cases o with
  | error e => rfl
  | ok a =>
    rw [Stream'.Seq.getElem?_take] at hi
    split_ifs at hi
    exact absurd hi (h i a)

/-- Until the connector has come back with the accessory or failed three times for good, the call
waits; then it returns the one or the other, whatever the failures that sleep explains. -/
theorem connectBleWhenAdvertised_settled (fromBle : α → η) (call : AdvertisedCall)
    (s : Stream'.Seq (Except BleError α)) :
    (∀ n a, FirstSuccess s n a →
      (sessionFailures (s.take n) < 3 → ∀ r, Returns fromBle call s r ↔ r = .ok (fromBle a)) ∧
        (3 ≤ sessionFailures (s.take n) → ∃ k e, k < n ∧ ThirdFailure s k e ∧
          ∀ r, Returns fromBle call s r ↔ r = .error (.ble e))) ∧
      ((∀ n a, s.get? n ≠ some (.ok a)) → ∀ r, Returns fromBle call s r ↔
        ∃ k e, ThirdFailure s k e ∧ r = .error (.ble e)) ∧
      (∀ e, Returns fromBle call s (.error (.ble e)) → Transient e = false) ∧
      (∀ N, (call.connectBleWhenAdvertised fromBle (s.take N)).result =
        (call.connectBleWhenAdvertised fromBle
          ((s.take N).filter fun o => isSuccess o || isSessionFailure o)).result) ∧
      ∀ N, ∀ attempt ∈ (call.connectBleWhenAdvertised fromBle (s.take N)).asked,
        attempt = call.attempt := by
  refine ⟨fun n a hfirst => ⟨fun hfew r => ?_, fun hthree => ?_⟩, fun hnever r => ?_,
    fun e he => ?_, fun N => ?_, fun N => attempt_of_asked⟩
  · have hreturns : Returns fromBle call s (.ok (fromBle a)) :=
      returns_iff.mpr (.inl ⟨n, a, hfirst, hfew, rfl⟩)
    exact hreturns.iff_eq r
  · obtain ⟨k, e, hk, hthird, hreturns⟩ := hfirst.exists_third hthree
    exact ⟨k, e, hk, hthird, hreturns.iff_eq⟩
  · rw [returns_iff]
    constructor
    · rintro (⟨n, a, ha, -⟩ | ⟨n, e, he, -, hr⟩)
      · exact absurd ha.1 (hnever n a)
      · exact ⟨n, e, he, hr⟩
    · rintro ⟨k, e, he, hr⟩
      exact .inr ⟨k, e, he, no_success_of_never hnever, hr⟩
  · rcases returns_iff.mp he with ⟨n, a, -, -, hr⟩ | ⟨n, e', he', -, hr⟩
    · cases hr
    · cases hr
      exact he'.2.1
  · exact listen_filter rfl rfl rfl

end
end

def wakingCall : AdvertisedCall := ⟨constArr 6 0, ⟨"lock", constArr 32 0⟩, none⟩

def wakingAnswers : Stream'.Seq (Except BleError Nat) :=
  Stream'.Seq.ofList
    [.error .disconnected, .error .accessoryNotFound, .error (.malformedPdu ""), .ok 7]

theorem connectBleWhenAdvertised_settled_waking :
    FirstSuccess wakingAnswers 3 7 ∧ Returns id wakingCall wakingAnswers (.ok 7) := by
  have hfirst : FirstSuccess wakingAnswers 3 7 := by
    refine ⟨rfl, ?_⟩
    change ∀ o ∈ ([.error .disconnected, .error .accessoryNotFound, .error (.malformedPdu "")] :
      List (Except BleError Nat)), _
    simp [isSuccess]
  have hsettled := (connectBleWhenAdvertised_settled id wakingCall wakingAnswers).1 3 7 hfirst
  exact ⟨hfirst, (hsettled.1 (by decide) _).mpr rfl⟩

end AdvertisedCall
end HapRust.Controller
