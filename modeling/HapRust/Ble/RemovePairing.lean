import HapRust.Ble.Composed

/-! Removing a pairing over BLE. When a controller removes its own pairing, a lost
link and a reply that does not open count as success, since the accessory ends
the session; they do so wherever in the exchange they come up. -/

namespace HapRust.Ble
open Lib Tlv8 Crypto BleM

namespace PairingsTlv
def state : UInt8 := 0x06
def method : UInt8 := 0x00
def identifier : UInt8 := 0x01
def error : UInt8 := 0x07
def stateM1 : UInt8 := 0x01
def stateM2 : UInt8 := 0x02
def methodRemove : UInt8 := 0x04
end PairingsTlv

def encodeRemovePairing (controllerId : String) : Bytes :=
  Tlv8Writer.push
    (Tlv8Writer.pushU8 (Tlv8Writer.pushU8 [] PairingsTlv.state PairingsTlv.stateM1)
      PairingsTlv.method PairingsTlv.methodRemove)
    PairingsTlv.identifier (asBytes controllerId)

def expectRemoveM2 (tlv : Bytes) : Except BleError Unit := do
  let map ← mapErr .tlv8 (Tlv8Map.parse tlv)
  match map.get PairingsTlv.error with
  | some err => .error (.pairingRejected (err.headD 1))
  | none =>
    if (map.get PairingsTlv.state).bind List.head? = some PairingsTlv.stateM2 then .ok ()
    else .error (.malformedPdu "remove-pairing reply not state M2")

structure BleAccessory where
  reviver : Reviver
  pairingsChar : String
  pairingsIid : UInt16
  fragSize : Nat

def BleAccessory.ownId (a : BleAccessory) : String := a.reviver.keypair.id

def removeFragments (a : BleAccessory) (controllerId : String) (tid : UInt8) : List Bytes :=
  secureFragments .characteristicWrite tid a.pairingsIid
    (encodeWriteBody (encodeRemovePairing controllerId)) a.fragSize

theorem removeFragments_ne_nil (a : BleAccessory) (controllerId : String) (tid : UInt8) :
    removeFragments a controllerId tid ≠ [] := by
  rw [removeFragments, secureFragments]
  exact fragment_ne_nil _ _

def removalResult (removingSelf : Bool) : Except BleError Response → Except BleError Unit
  | .ok resp =>
    if resp.status ≠ 0 then .error (.pairingRejected resp.status)
    else do
      let tlv ← valueParam resp.body
      expectRemoveM2 tlv
  | .error .disconnected => if removingSelf then .ok () else .error .disconnected
  | .error (.crypto e) => if removingSelf then .ok () else .error (.crypto e)
  | .error e => .error e

def settleRemoval (removingSelf : Bool) (r : Except BleError Response × BleState) :
    Dialogue GattOp Answer (Except BleError Unit × BleState) :=
  let removed := removalResult removingSelf r.1
  .ret (removed, { r.2 with answered := r.1.toOption.isSome && removed.toOption.isSome })

section
variable (P : Primitives) (a : BleAccessory)

def removeRequest (controllerId : String) : BleM Unit := fun s =>
  (requestSecure P a.pairingsChar .characteristicWrite s.tid a.pairingsIid
    (encodeWriteBody (encodeRemovePairing controllerId)) a.fragSize s).bind
      (settleRemoval (controllerId = a.ownId))

def removePairing (controllerId : String) : BleM Unit := do
  reviveIfStale P a.reviver
  modify fun s => { s with tid := s.tid + 1, delivered := [], answered := false }
  removeRequest P a controllerId

end

def onLink (link : Nat) (delivered : List (Nat × Bytes)) : List Bytes :=
  (delivered.filter (·.1 = link)).map (·.2)

/-- If the controller's own pairing counts as removed, then the accessory has
answered so, or every fragment of the request, sealed by the session as it was
in `s`, has reached the accessory on the link on which that session is valid. -/
def Delivers (P : Primitives) (a : BleAccessory) (s : BleState) (r : Except BleError Unit × BleState) :
    Prop :=
  r.1 = .ok () → r.2.answered = true ∨
    ∃ link, s.validOn = some link ∧ ∃ sealed last,
      Sealed P.chacha20Poly1305 s.session.keys.writeKey s.session.sendCounter sealed
        (removeFragments a a.ownId (s.tid + 1)) last ∧
      sealed.Sublist (onLink link r.2.delivered)

def firstTries : Nat → List Answer → Bool
  | 0, [] => true
  | n + 1, .done _ _ :: answers => firstTries n answers
  | _ + 1, [.lost _] => true
  | _ + 1, [.failed _] => true
  | _, _ => false

/-- The tries end in an error other than a lost link; or there is one for every
fragment, and all reach the accessory on the link on which the session is valid. -/
def Settled (validOn : Option Nat) (n : Nat) (first : List Answer) : Prop :=
  (∃ e, first.getLast? = some (.failed e)) ∨
    ∃ link, validOn = some link ∧ first.length = n ∧ ∀ x ∈ first, x.reached = some link

/-! ## Tasks that take nothing back -/

section Keeping
variable {α β : Type}

def Keeping (m : BleM α) : Prop := ∀ s, (m s).Always fun r => s.delivered <+: r.2.delivered

theorem keeping_bind {m : BleM α} {f : α → BleM β} (hm : Keeping m) (hf : ∀ a, Keeping (f a)) :
    Keeping (m >>= f) := by
  intro s
  rw [bind_apply]
  refine (hm s).bind ?_
  rintro ⟨result, t⟩ hst
  cases result with
  | error e => exact hst
  | ok a => exact (hf a t).imp fun r hr => hst.trans hr

theorem keeping_pure (a : α) : Keeping (pure a : BleM α) := fun _ => List.prefix_refl _

theorem keeping_throw (e : BleError) : Keeping (throw e : BleM α) := fun _ => List.prefix_refl _

theorem keeping_get : Keeping get := fun _ => List.prefix_refl _

theorem keeping_ask (op : GattOp) : Keeping (ask op) := fun _ _ => List.prefix_refl _

theorem keeping_modify {f : BleState → BleState} (hf : ∀ s, s.delivered <+: (f s).delivered) :
    Keeping (modify f) := hf

theorem delivered_reach (s : BleState) (op : GattOp) (link : Nat) :
    s.delivered <+: (s.reach op link).delivered := by
  cases op with
  | write uuid value => exact List.prefix_append _ _
  | read uuid => exact List.prefix_refl _
  | connect => exact List.prefix_refl _

theorem keeping_reconnect : Keeping reconnect := by
  refine keeping_bind (keeping_modify fun s => List.prefix_refl _) fun _ => ?_
  refine keeping_bind (keeping_ask _) fun x => ?_
  cases x with
  | done link value => exact keeping_pure ()
  | lost link => exact keeping_throw _
  | failed e => exact keeping_throw _

theorem keeping_attempt {op : GattOp} {again : BleM Bytes} (h : Keeping again) :
    Keeping (attempt op again) := by
  refine keeping_bind (keeping_ask _) fun x => ?_
  cases x with
  | done link value =>
    exact keeping_bind (keeping_modify fun s => delivered_reach s op link) fun _ => keeping_pure _
  | lost link =>
    refine keeping_bind (keeping_modify fun s => ?_) fun _ => h
    cases link with
    | none => exact List.prefix_refl _
    | some link => exact delivered_reach s op link
  | failed e => exact keeping_throw _

theorem keeping_retrying (op : GattOp) (left : Nat) : Keeping (retrying op left) := by
  induction left with
  | zero => exact keeping_attempt (keeping_throw _)
  | succ left ih => exact keeping_attempt (keeping_bind keeping_reconnect fun _ => ih)

theorem inherited_keeping : Inherited @Keeping where
  pure := keeping_pure
  throw := keeping_throw
  get := keeping_get
  modify hf := keeping_modify fun s => by rw [(hf s).delivered]
  bind := keeping_bind
  retrying _ := keeping_retrying _

end Keeping

/-! ## Writing the fragments -/

section Writing
variable {P : Primitives} {uuid : String} {s : BleState} {frag : Bytes} {frags : List Bytes}
  {c : Bytes}

def BleState.sealed (s : BleState) : BleState :=
  { s with session := { s.session with sendCounter := s.session.sendCounter + 1 } }

theorem delivered_write (s : BleState) (uuid : String) (c : Bytes) (link : Nat) :
    (s.sealed.reach (.write uuid c) link).delivered = s.delivered ++ [(link, c)] := rfl

theorem onLink_append (link : Nat) (d d' : List (Nat × Bytes)) :
    onLink link (d ++ d') = onLink link d ++ onLink link d' := by
  rw [onLink, List.filter_append, List.map_append]
  rfl

theorem onLink_map (link : Nat) (cs : List Bytes) : onLink link (cs.map (link, ·)) = cs := by
  induction cs with
  | nil => rfl
  | cons c cs ih => simpa [onLink] using ih

theorem length_onLink_reached (link : Nat) (l : Option Nat) (c : Bytes) :
    (onLink link (l.toList.map (·, c))).length = if l = some link then 1 else 0 := by
  cases l with
  | none => rfl
  | some l => by_cases h : l = link <;> simp [onLink, h]

section
variable (h : P.chacha20Poly1305.encrypt s.session.keys.writeKey
  (counterNonce s.session.sendCounter) [] frag = some c)
include h

theorem sealFrag_apply : sealFrag P frag s = .ret (.ok c, s.sealed) := by
  rw [sealFrag, bind_apply]
  simp only [BleM.get, Dialogue.ret_bind, andThen, sealNext, h, Option.map_some]
  rfl

theorem after_done (link : Nat) (value : Bytes) (answers : List Answer) :
    (writeSealed P uuid (frag :: frags) s).after (.done link value :: answers) =
      (writeSealed P uuid frags (s.sealed.reach (.write uuid c) link)).after answers := by
  rw [writeSealed, bind_apply, sealFrag_apply h]
  rfl

variable (uuid frags)

theorem after_lost (link : Option Nat) :
    ∃ again : BleM Unit, Keeping again ∧
      (writeSealed P uuid (frag :: frags) s).after [.lost link] =
        some (again (link.elim s.sealed (s.sealed.reach (.write uuid c)))) := by
  let retry : BleM Bytes := reconnect >>= fun _ => retrying (.write uuid c) (maxOpReconnects - 1)
  refine ⟨(retry >>= fun _ => pure ()) >>= fun _ => writeSealed P uuid frags, ?_, ?_⟩
  · have hretry : Keeping retry := keeping_bind keeping_reconnect fun _ => keeping_retrying _ _
    exact keeping_bind (keeping_bind hretry fun _ => keeping_pure ()) fun _ =>
      inherited_keeping.writeSealed _ _ _
  · rw [writeSealed, bind_apply, sealFrag_apply h]
    rfl

theorem after_lost_lost (link : Option Nat) :
    ∃ t, (writeSealed P uuid (frag :: frags) s).after [.lost link, .lost none] =
        some (.ret (.error .disconnected, t)) ∧
      t.delivered = s.delivered ++ link.toList.map (·, c) := by
  rw [writeSealed, bind_apply, sealFrag_apply h]
  cases link with
  | none => exact ⟨_, rfl, (List.append_nil _).symm⟩
  | some link => exact ⟨_, rfl, rfl⟩

theorem after_failed (e : GattFault) :
    (writeSealed P uuid (frag :: frags) s).after [.failed e] =
      some (.ret (.error e.toError, s.sealed)) := by
  rw [writeSealed, bind_apply, sealFrag_apply h]
  rfl

end

variable (uuid) (hA : P.chacha20Poly1305.Inverts)
include hA

theorem after_firstTries_failed {first : List Answer} {e : GattFault}
    (htries : firstTries frags.length first = true) (hlast : first.getLast? = some (.failed e)) :
    ∃ t, (writeSealed P uuid frags s).after first = some (.ret (.error e.toError, t)) := by
  induction frags generalizing s first with
  | nil =>
    cases first with
    | nil => cases hlast
    | cons x first => cases htries
  | cons frag frags ih =>
    obtain ⟨c, hc, -⟩ := hA s.session.keys.writeKey (counterNonce s.session.sendCounter) [] frag
    match first, htries, hlast with
    | .done link value :: first, htries, hlast =>
      rw [after_done hc]
      cases first with
      | nil => cases hlast
      | cons x first => exact ih htries (by rwa [List.getLast?_cons_cons] at hlast)
    | [.failed e'], _, hlast =>
      obtain rfl := Answer.failed.inj (Option.some.inj hlast)
      exact ⟨_, after_failed uuid frags hc e'⟩
    | [.lost link], _, hlast => cases hlast

theorem after_firstTries_reached {first : List Answer} {link : Nat}
    (htries : firstTries frags.length first = true) (hlen : first.length = frags.length)
    (hreached : ∀ x ∈ first, x.reached = some link) :
    ∃ (again : BleM Unit) (t : BleState) (cs : List Bytes) (last : UInt64), Keeping again ∧
      (writeSealed P uuid frags s).after first = some (again t) ∧
      Sealed P.chacha20Poly1305 s.session.keys.writeKey s.session.sendCounter cs frags last ∧
      t.delivered = s.delivered ++ cs.map (link, ·) := by
  induction frags generalizing s first with
  | nil =>
    obtain rfl := List.eq_nil_of_length_eq_zero hlen
    exact ⟨pure (), s, [], _, keeping_pure (), rfl, .nil _, (List.append_nil _).symm⟩
  | cons frag frags ih =>
    obtain ⟨c, hc, -⟩ := hA s.session.keys.writeKey (counterNonce s.session.sendCounter) [] frag
    match first, htries, hlen, hreached with
    | .done l value :: first, htries, hlen, hreached =>
      obtain rfl : l = link := Option.some.inj (hreached _ (List.mem_cons_self ..))
      rw [after_done hc]
      obtain ⟨again, t, cs, last, hkeep, hafter, hsealed, hdelivered⟩ :=
        ih (s := s.sealed.reach (.write uuid c) l) htries (Nat.succ.inj hlen)
          fun x hx => hreached x (List.mem_cons_of_mem _ hx)
      refine ⟨again, t, c :: cs, last, hkeep, hafter, .cons hc hsealed, ?_⟩
      rw [hdelivered, delivered_write, List.map_cons, List.append_assoc, List.singleton_append]
    | [.lost l], _, hlen, hreached =>
      obtain rfl : frags = [] := List.eq_nil_of_length_eq_zero (Nat.succ.inj hlen).symm
      obtain rfl : l = some link := hreached _ (List.mem_cons_self ..)
      obtain ⟨again, hkeep, hafter⟩ := after_lost uuid [] hc (some link)
      exact ⟨again, _, [c], _, hkeep, hafter, .cons hc (.nil _), rfl⟩
    | [.failed e], _, _, hreached =>
      cases hreached _ (List.mem_cons_self ..)

theorem after_firstTries_stranded {first : List Answer}
    (htries : firstTries frags.length first = true)
    (hlast : ∀ e, first.getLast? ≠ some (.failed e)) :
    ∃ t, ((writeSealed P uuid frags s).after first = some (.ret (.ok (), t)) ∨
        (writeSealed P uuid frags s).after (first ++ [.lost none]) =
          some (.ret (.error .disconnected, t))) ∧
      ∀ link, (onLink link t.delivered).length =
        (onLink link s.delivered).length + first.countP (·.reached = some link) := by
  induction frags generalizing s first with
  | nil =>
    cases first with
    | nil => exact ⟨s, .inl rfl, fun _ => rfl⟩
    | cons x first => cases htries
  | cons frag frags ih =>
    obtain ⟨c, hc, -⟩ := hA s.session.keys.writeKey (counterNonce s.session.sendCounter) [] frag
    match first, htries, hlast with
    | .done l value :: first, htries, hlast =>
      have hlast' : ∀ e, first.getLast? ≠ some (.failed e) := by
        intro e he
        cases first with
        | nil => cases he
        | cons x first => exact hlast e (by rw [List.getLast?_cons_cons]; exact he)
      obtain ⟨t, hafter, hcount⟩ := ih (s := s.sealed.reach (.write uuid c) l) htries hlast'
      refine ⟨t, ?_, ?_⟩
      · rw [List.cons_append, after_done hc, after_done hc]
        exact hafter
      · intro link
        have hone := length_onLink_reached link (some l) c
        rw [hcount link, delivered_write, onLink_append, List.length_append, List.countP_cons]
        simp only [Option.toList_some, List.map_cons, List.map_nil] at hone
        rw [hone]
        by_cases hl : l = link
        · simp only [Answer.reached, hl, if_pos, decide_true]
          omega
        · simp [Answer.reached, hl]
    | [.lost l], _, _ =>
      obtain ⟨t, hafter, hdelivered⟩ := after_lost_lost uuid frags hc l
      refine ⟨t, .inr hafter, ?_⟩
      intro link
      rw [hdelivered, onLink_append, List.length_append, length_onLink_reached]
      by_cases hl : l = some link <;> simp [Answer.reached, hl]
    | [.failed e], _, hlast => exact absurd rfl (hlast e)

end Writing

/-! ## The whole exchange -/

theorem firstTries_length {n : Nat} {first : List Answer} (h : firstTries n first = true) :
    first.length ≤ n := by
  induction n generalizing first with
  | zero =>
    cases first with
    | nil => exact Nat.le_refl _
    | cons x first => cases h
  | succ n ih =>
    match first, h with
    | .done _ _ :: first, h => exact Nat.succ_le_succ (ih h)
    | [.lost _], _ => exact Nat.succ_le_succ (Nat.zero_le n)
    | [.failed _], _ => exact Nat.succ_le_succ (Nat.zero_le n)

theorem removalResult_fault (removingSelf : Bool) (e : GattFault) :
    removalResult removingSelf (.error e.toError) = .error e.toError := by
  cases e <;> rfl

section Removal
variable {P : Primitives} {a : BleAccessory} {s : BleState}

def BleState.requesting (s : BleState) : BleState :=
  { s with tid := s.tid + 1, delivered := [], answered := false }

theorem after_revive {past : List Answer} {s₀ : BleState} {result : Except BleError Unit}
    (h : (reviveIfStale P a.reviver s).after past = some (.ret (result, s₀))) (id : String) :
    (removePairing P a id s).after past =
      some (match result with
        | .ok () => removeRequest P a id s₀.requesting
        | .error e => .ret (.error e, s₀)) := by
  rw [removePairing, bind_apply, Dialogue.after_bind h]
  cases result <;> rfl

theorem after_request {answers : List Answer} {id : String}
    {d : Dialogue GattOp Answer (Except BleError Unit × BleState)}
    (h : (writeSealed P a.pairingsChar (removeFragments a id s.tid) s).after answers = some d) :
    (removeRequest P a id s).after answers =
      some ((d.bind (andThen fun _ => readResponse (readSealed P a.pairingsChar))).bind
        (settleRemoval (id = a.ownId))) :=
  Dialogue.after_bind (Dialogue.after_bind h _) _

theorem removed_of_stranded {first : List Answer} (hA : P.chacha20Poly1305.Inverts)
    (htries : firstTries (removeFragments a a.ownId s.tid).length first = true)
    (hlast : ∀ e, first.getLast? ≠ some (.failed e)) (hdelivered : s.delivered = []) :
    ∃ rest t, (removeRequest P a a.ownId s).outcome (first ++ rest) = some (.ok (), t) ∧
      t.answered = false ∧
      ∀ link, (onLink link t.delivered).length = first.countP (·.reached = some link) := by
  obtain ⟨t, hafter, hcount⟩ := after_firstTries_stranded a.pairingsChar hA htries hlast (s := s)
  have hcount' : ∀ link,
      (onLink link t.delivered).length = first.countP (·.reached = some link) := by
    intro link
    rw [hcount link, hdelivered]
    exact Nat.zero_add _
  have hown : (decide (a.ownId = a.ownId)) = true := decide_eq_true rfl
  rcases hafter with hafter | hafter
  · -- everything is written, and the reply is never read
    refine ⟨[.lost none, .lost none], { t with generation := t.generation + 1, answered := false },
      ?_, rfl, hcount'⟩
    rw [Dialogue.outcome_of_after (after_request hafter), hown]
    rfl
  · refine ⟨[.lost none], { t with answered := false }, ?_, rfl, hcount'⟩
    have hdone := Dialogue.outcome_of_after (after_request hafter) []
    rw [List.append_nil] at hdone
    rw [hdone, hown]
    rfl

theorem delivers_of_failed {first : List Answer} {e : GattFault} (hA : P.chacha20Poly1305.Inverts)
    (htries : firstTries (removeFragments a a.ownId s.tid).length first = true)
    (hlast : first.getLast? = some (.failed e)) {rest : List Answer}
    {r : Except BleError Unit × BleState}
    (hr : (removeRequest P a a.ownId s).outcome (first ++ rest) = some r) : r.1 ≠ .ok () := by
  obtain ⟨t, hafter⟩ := after_firstTries_failed a.pairingsChar hA htries hlast (s := s)
  rw [Dialogue.outcome_of_after (after_request hafter)] at hr
  obtain rfl := Dialogue.outcome_ret hr
  simp [removalResult_fault]

theorem delivered_of_reached {first : List Answer} {link : Nat} (hA : P.chacha20Poly1305.Inverts)
    (htries : firstTries (removeFragments a a.ownId s.tid).length first = true)
    (hlen : first.length = (removeFragments a a.ownId s.tid).length)
    (hreached : ∀ x ∈ first, x.reached = some link) {rest : List Answer}
    {r : Except BleError Unit × BleState}
    (hr : (removeRequest P a a.ownId s).outcome (first ++ rest) = some r) :
    ∃ sealed last,
      Sealed P.chacha20Poly1305 s.session.keys.writeKey s.session.sendCounter sealed
        (removeFragments a a.ownId s.tid) last ∧
      sealed.Sublist (onLink link r.2.delivered) := by
  obtain ⟨again, t, cs, last, hkeep, hafter, hsealed, hdelivered⟩ :=
    after_firstTries_reached a.pairingsChar hA htries hlen hreached (s := s)
  refine ⟨cs, last, hsealed, ?_⟩
  rw [Dialogue.outcome_of_after (after_request hafter)] at hr
  have halways : (((again t).bind (andThen fun _ => readResponse (readSealed P a.pairingsChar))).bind
      (settleRemoval (a.ownId = a.ownId))).Always fun r => t.delivered <+: r.2.delivered := by
    refine (keeping_bind hkeep (fun _ => readResponse_of inherited_keeping.composes.lift
      keeping_bind (inherited_keeping.readSealed P a.pairingsChar)) t).bind ?_
    intro r hr
    exact hr
  obtain ⟨more, hmore⟩ := halways.outcome hr
  rw [← hmore, hdelivered, onLink_append, onLink_append, onLink_map]
  exact (List.sublist_append_right _ _).trans (List.sublist_append_left _ _)

end Removal

/-- Removing the own pairing. If Pair Verify fails first, nothing counts as removed.
Otherwise the removal counts only once the request is delivered, whatever else
the link does, exactly if the first tries at its fragments settle it. -/
theorem removePairing_delivers_iff {P : Primitives} (hP : P.Honest) (a : BleAccessory)
    (s : BleState) :
    (∀ past e s₀, (reviveIfStale P a.reviver s).after past = some (.ret (.error e, s₀)) →
      ∀ rest r, (removePairing P a a.ownId s).outcome (past ++ rest) = some r → r.1 ≠ .ok ()) ∧
    ∀ past s₀, (reviveIfStale P a.reviver s).after past = some (.ret (.ok (), s₀)) →
      ∀ first, firstTries (removeFragments a a.ownId (s₀.tid + 1)).length first = true →
      ((∀ rest r, (removePairing P a a.ownId s).outcome (past ++ (first ++ rest)) = some r →
          Delivers P a s₀ r) ↔
        Settled s₀.validOn (removeFragments a a.ownId (s₀.tid + 1)).length first) := by
  constructor
  · intro past e s₀ hpast rest r hr
    rw [Dialogue.outcome_of_after (after_revive hpast a.ownId)] at hr
    obtain rfl := Dialogue.outcome_ret hr
    simp
  · intro past s₀ hpast first htries
    have hrequest : ∀ answers, (removePairing P a a.ownId s).outcome (past ++ answers) =
        (removeRequest P a a.ownId s₀.requesting).outcome answers := fun answers =>
      Dialogue.outcome_of_after (after_revive hpast a.ownId) answers
    constructor
    · intro hall
      by_cases hlast : ∃ e, first.getLast? = some (.failed e)
      · exact .inl hlast
      · right
        rw [not_exists] at hlast
        obtain ⟨rest, t, hr, hanswered, hcount⟩ :=
          removed_of_stranded (s := s₀.requesting) hP.aead htries hlast rfl
        rcases hall rest _ ((hrequest _).trans hr) rfl with hanswer | ⟨link, hlink, cs, _, hsealed, hsub⟩
        · rw [hanswered] at hanswer
          cases hanswer
        · have hle := hsub.length_le
          rw [hcount link, hsealed.length_eq] at hle
          have hfirst := firstTries_length htries
          have hcountle := List.countP_le_length (p := (·.reached = some link)) (l := first)
          have hall' : first.countP (·.reached = some link) = first.length := by omega
          refine ⟨link, hlink, by omega, ?_⟩
          intro x hx
          simpa using List.countP_eq_length.mp hall' x hx
    · rintro (⟨e, hlast⟩ | ⟨link, hlink, hlen, hreached⟩) rest r hr
      · rw [hrequest] at hr
        intro hok
        exact absurd hok (delivers_of_failed (s := s₀.requesting) hP.aead htries hlast hr)
      · rw [hrequest] at hr
        intro _
        exact .inr ⟨link, hlink, delivered_of_reached (s := s₀.requesting) hP.aead htries hlen
          hreached hr⟩

def sampleAccessory : BleAccessory where
  reviver := ⟨⟨"AA", constArr 32 1⟩, ⟨"BB", constArr 32 2⟩, "4e", 3, 512, constArr 32 3⟩
  pairingsChar := "50"
  pairingsIid := 5
  fragSize := 512

def sampleState : BleState where
  generation := 0
  session := .new ⟨constArr 32 4, constArr 32 5⟩
  tid := 0
  since := 0
  validOn := some 0
  links := []
  delivered := []
  answered := false

theorem removePairing_delivers_iff_written :
    ∃ r, (removePairing plainPrimitives sampleAccessory "AA" sampleState).outcome
        [.done 0 [], .lost none, .lost none] = some r ∧ r.1 = .ok () ∧
      Delivers plainPrimitives sampleAccessory sampleState r := by
  refine exists_of_view (·.1) (.ok ()) (by decide +kernel) ?_
  intro r hr hok
  have hlen : (removeFragments sampleAccessory sampleAccessory.ownId
      (sampleState.tid + 1)).length = 1 := by decide +kernel
  refine ⟨hok, ((removePairing_delivers_iff plainPrimitives_honest sampleAccessory
    sampleState).2 [] sampleState rfl [.done 0 []] ?_).mpr ?_ _ r hr⟩
  · rw [hlen]
    rfl
  · exact .inr ⟨0, rfl, hlen.symm, by simp [Answer.reached]⟩

/-- The link is lost before the request is written; it is written again on the next
link, where the session is not valid, and the reply does not open. -/
theorem removed_without_delivery :
    ∃ t, (removePairing plainPrimitives sampleAccessory "AA" sampleState).outcome
        [.lost none, .done 1 [], .done 1 [], .done 1 [0]] = some (.ok (), t) ∧
      t.answered = false ∧ onLink 0 t.delivered = [] ∧
      ¬ Delivers plainPrimitives sampleAccessory sampleState (.ok (), t) := by
  have hrun : ((removePairing plainPrimitives sampleAccessory "AA" sampleState).outcome
      [.lost none, .done 1 [], .done 1 [], .done 1 [0]]).map
        (fun r => (r.1.toOption, r.2.answered, onLink 0 r.2.delivered)) =
      some (some (), false, []) := by decide +kernel
  obtain ⟨⟨result, t⟩, houtcome, hstate⟩ := Option.map_eq_some_iff.mp hrun
  simp only [Prod.mk.injEq] at hstate
  obtain ⟨hresult, hanswered, hlink⟩ := hstate
  obtain rfl : result = .ok () := by
    cases result with
    | ok u => rfl
    | error e => cases hresult
  refine ⟨t, houtcome, hanswered, hlink, ?_⟩
  intro hdelivers
  rcases hdelivers rfl with hanswer | ⟨link, hvalid, sealed, last, hsealed, hsub⟩
  · rw [hanswered] at hanswer
    cases hanswer
  · obtain rfl : 0 = link := Option.some.inj hvalid
    rw [hlink, List.sublist_nil] at hsub
    have hlen := hsealed.length_eq
    rw [hsub, List.length_nil] at hlen
    exact removeFragments_ne_nil _ _ _ (List.eq_nil_of_length_eq_zero hlen.symm)

end HapRust.Ble
