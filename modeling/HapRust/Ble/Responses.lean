import HapRust.Ble.Operations

/-! Which responses a request takes for its own. A response is put together from
what is read until its declared length is there; the control bytes and the
transaction ids of its fragments are not looked at. -/

namespace HapRust.Ble
open Lib Tlv8 Crypto BleM

def isResponse (tid : UInt8) : Bytes → Bool
  | control :: tid' :: _ => control = 0x02 && tid' = tid
  | _ => false

def isContinuation (tid : UInt8) : Bytes → Bool
  | control :: tid' :: _ => control &&& 0x80 = 0x80 && tid' = tid
  | _ => false

def respondsTo (tid : UInt8) : List Bytes → Bool
  | first :: rest => isResponse tid first && rest.all (isContinuation tid)
  | [] => false

/-- A response as an accessory sends it, to whichever request. It may be cut anywhere behind
its header; each continuation has its control byte and the transaction id before its chunk. -/
structure CutResponse where
  response : Response
  pdu : Bytes
  encoded :
    response.body = [] ∧ pdu = [0x02, response.tid, response.status] ∨
    response.body.length < 65536 ∧
      pdu = [0x02, response.tid, response.status] ++ leBytes 2 response.body.length ++ response.body
  first : Bytes
  rest : List (UInt8 × Bytes)
  whole : first ++ (rest.map (·.2)).flatten = pdu
  header : rest = [] ∨ 5 ≤ first.length
  continued : ∀ c ∈ rest, c.1 &&& 0x80 = 0x80 ∧ c.2 ≠ []

namespace CutResponse
variable (R : CutResponse)

def continuation (c : UInt8 × Bytes) : Bytes := c.1 :: R.response.tid :: c.2

def fragments : List Bytes := R.first :: R.rest.map R.continuation

theorem decodeResponse_pdu : decodeResponse R.pdu = .ok R.response := by
  rcases R.encoded with ⟨hbody, hpdu⟩ | ⟨hlen, hpdu⟩
  · rw [hpdu, decodeResponse, ← hbody]
  · have hnat : leNat [UInt8.ofNat R.response.body.length,
        UInt8.ofNat (R.response.body.length / 256)] = R.response.body.length := by
      have h := leNat_leBytes 2 R.response.body.length
      rwa [Nat.mod_eq_of_lt (by omega)] at h
    rw [hpdu]
    show decodeResponse (0x02 :: R.response.tid :: R.response.status ::
      UInt8.ofNat R.response.body.length :: UInt8.ofNat (R.response.body.length / 256) ::
        R.response.body) = .ok R.response
    simp only [decodeResponse, hnat, Nat.lt_irrefl, if_false, List.take_length]

theorem declaredTotal_pdu : declaredTotal R.pdu = R.pdu.length := by
  rcases R.encoded with ⟨-, hpdu⟩ | ⟨hlen, hpdu⟩
  · rw [hpdu]
    rfl
  · have h := leNat_leBytes 2 R.response.body.length
    rw [Nat.mod_eq_of_lt (by omega)] at h
    rw [hpdu]
    show 5 + leNat (leBytes 2 R.response.body.length) = _
    rw [h]
    simp only [List.length_append, List.length_cons, List.length_nil, leBytes_length]

theorem declaredTotal_append {first : Bytes} (h : 5 ≤ first.length) (rest : Bytes) :
    declaredTotal (first ++ rest) = declaredTotal first := by
  match first, h with
  | _ :: _ :: _ :: _ :: _ :: _, _ => rfl

theorem declaredTotal_first : declaredTotal R.first = R.pdu.length := by
  rw [← R.declaredTotal_pdu, ← R.whole]
  rcases R.header with hrest | hfirst
  · rw [hrest, List.map_nil, List.flatten_nil, List.append_nil]
  · rw [declaredTotal_append hfirst]

theorem reassemble_take (n : Nat) :
    reassemble (R.first :: (R.rest.take n).map R.continuation) =
      .ok (R.first ++ ((R.rest.take n).map (·.2)).flatten) := by
  rw [reassemble]
  exact foldlM_continuations Prod.fst (fun _ => R.response.tid) Prod.snd _ _

theorem length_take_lt {n : Nat} (h : n < R.rest.length) :
    (R.first ++ ((R.rest.take n).map (·.2)).flatten).length < R.pdu.length := by
  have hsplit : (R.rest.map (·.2)).flatten =
      ((R.rest.take n).map (·.2)).flatten ++ ((R.rest.drop n).map (·.2)).flatten := by
    rw [← List.flatten_append, ← List.map_append, List.take_append_drop]
  have hpos : 0 < ((R.rest.drop n).map (·.2)).flatten.length := by
    rw [List.drop_eq_getElem_cons h, List.map_cons, List.flatten_cons, List.length_append]
    have hchunk := List.length_pos_of_ne_nil (R.continued _ (List.getElem_mem h)).2
    omega
  rw [← R.whole, hsplit]
  simp only [List.length_append]
  omega

theorem respondsTo_fragments (tid : UInt8) :
    respondsTo tid R.fragments = true ↔ R.response.tid = tid := by
  have hfirst : ∃ tail, R.first = 0x02 :: R.response.tid :: tail := by
    have hpdu : ∃ tail, R.pdu = 0x02 :: R.response.tid :: R.response.status :: tail := by
      rcases R.encoded with ⟨-, hpdu⟩ | ⟨-, hpdu⟩
      · exact ⟨_, hpdu⟩
      · exact ⟨_, hpdu⟩
    obtain ⟨tail, hpdu⟩ := hpdu
    have hwhole := R.whole.trans hpdu
    rcases R.header with hrest | hlen
    · rw [hrest, List.map_nil, List.flatten_nil, List.append_nil] at hwhole
      exact ⟨_, hwhole⟩
    · match hmatch : R.first, hlen with
      | a :: b :: more, _ =>
        rw [hmatch] at hwhole
        obtain ⟨rfl, htail⟩ := List.cons.inj hwhole
        obtain ⟨rfl, -⟩ := List.cons.inj htail
        exact ⟨more, rfl⟩
  obtain ⟨tail, hfirst⟩ := hfirst
  constructor
  · intro h
    rw [fragments, hfirst, respondsTo, Bool.and_eq_true] at h
    simpa [isResponse] using h.1
  · rintro rfl
    rw [fragments, hfirst, respondsTo, Bool.and_eq_true, List.all_eq_true]
    refine ⟨by simp [isResponse], ?_⟩
    intro f hf
    obtain ⟨c, hc, rfl⟩ := List.mem_map.mp hf
    simp [isContinuation, continuation, (R.continued c hc).1]

end CutResponse

/-! ## What is read -/

section
variable (next : BleM Bytes)

def readResponseLogged : BleM (List Bytes × Response) := (fragmentReader next).logging.readResponse

end

inductive Channel where
  | plain
  | secure
  deriving DecidableEq, Repr

namespace Channel
variable (P : Primitives) (uuid : String) (op : OpCode) (tid : UInt8) (iid : UInt16) (body : Bytes)
  (fragSize : Nat)

def request : Channel → BleM Response
  | plain => Ble.request uuid op tid iid body fragSize
  | secure => requestSecure P uuid op tid iid body fragSize

def requestLogged : Channel → BleM (List Bytes × Response)
  | plain => do
    writeAll uuid (fragment (encodeRequest op tid iid body) fragSize)
    readResponseLogged (read uuid)
  | secure => do
    writeSealed P uuid (secureFragments op tid iid body fragSize)
    readResponseLogged (readSealed P uuid)

end Channel

def Complete (frags : List Bytes) (resp : Response) : Prop :=
  frags ≠ [] ∧ ∃ pdu, reassemble frags = .ok pdu ∧ declaredTotal (frags.headD []) ≤ pdu.length ∧
    decodeResponse pdu = .ok resp

theorem CutResponse.eq_of_complete (R : CutResponse) {frags : List Bytes} {resp : Response}
    (h : Complete frags resp) (hpart : frags <+: R.fragments) :
    frags = R.fragments ∧ resp = R.response := by
  obtain ⟨hne, pdu, hpdu, hlen, hdecode⟩ := h
  obtain ⟨n, hfrags⟩ : ∃ n, frags = R.first :: (R.rest.take n).map R.continuation := by
    cases frags with
    | nil => exact absurd rfl hne
    | cons frag frags =>
      obtain ⟨rfl, hrest⟩ := List.cons_prefix_cons.mp hpart
      refine ⟨frags.length, congrArg _ ?_⟩
      rw [List.map_take]
      exact List.prefix_iff_eq_take.mp hrest
  rw [hfrags, R.reassemble_take] at hpdu
  obtain rfl := Except.ok.inj hpdu
  have hall : R.rest.length ≤ n := by
    by_contra hmissing
    have hlt := R.length_take_lt (Nat.lt_of_not_le hmissing)
    rw [hfrags, List.headD_cons, R.declaredTotal_first] at hlen
    omega
  rw [List.take_of_length_le hall] at hfrags hdecode
  rw [R.whole, R.decodeResponse_pdu] at hdecode
  exact ⟨hfrags, (Except.ok.inj hdecode).symm⟩

section
variable {next : BleM Bytes} {s t : BleState} {answers : List Answer} {resp : Response}

theorem logging_done {left : Nat} {frags : List Bytes} {pdu : Bytes}
    (hpdu : reassemble frags = .ok pdu) (hlen : ¬ pdu.length < declaredTotal (frags.headD []))
    (hresp : decodeResponse pdu = .ok resp) :
    ((fragmentReader next).logging.readRest left frags s).outcome [] =
      some (.ok (frags, resp), s) := by
  rw [FragmentReader.readRest.eq_def]
  refine BleM.outcome_bind_ok.mpr ⟨[], [], pdu, s, rfl, congrArg (fun x => some (x, s)) hpdu, ?_⟩
  refine BleM.outcome_bind_ok.mpr ⟨[], [], _, s, rfl, rfl, ?_⟩
  rw [if_neg hlen]
  exact BleM.outcome_bind_ok.mpr
    ⟨[], [], resp, s, rfl, congrArg (fun x => some (x, s)) hresp, rfl⟩

theorem readRest_cases {left : Nat} {frags : List Bytes}
    (h : ((fragmentReader next).readRest left frags s).outcome answers = some (.ok resp, t)) :
    (∃ pdu, reassemble frags = .ok pdu ∧ ¬ pdu.length < declaredTotal (frags.headD []) ∧
      decodeResponse pdu = .ok resp ∧ answers = [] ∧ s = t) ∨
    ∃ n pdu before rest frag u, left = n + 1 ∧ reassemble frags = .ok pdu ∧
      pdu.length < declaredTotal (frags.headD []) ∧ answers = before ++ rest ∧
      (next s).outcome before = some (.ok frag, u) ∧
      ((fragmentReader next).readRest n (frags ++ [frag]) u).outcome rest = some (.ok resp, t) := by
  rw [FragmentReader.readRest.eq_def] at h
  obtain ⟨no, rest, pdu, u, rfl, hlift, htail⟩ := BleM.outcome_bind_ok.mp h
  obtain ⟨rfl, heq⟩ := Dialogue.outcome_ret_nil hlift
  obtain ⟨hpdu, rfl⟩ := Prod.mk.inj heq
  obtain ⟨no, rest, total, u, rfl, hlift, hrest⟩ := BleM.outcome_bind_ok.mp htail
  obtain ⟨rfl, heq⟩ := Dialogue.outcome_ret_nil hlift
  obtain ⟨htotal, rfl⟩ := Prod.mk.inj heq
  obtain rfl := Except.ok.inj htotal
  split_ifs at hrest with hshort
  · cases left with
    | zero => cases Dialogue.outcome_ret hrest
    | succ n =>
      obtain ⟨before, rest, frag, v, rfl, hnext, hmore⟩ := BleM.outcome_bind_ok.mp hrest
      exact .inr ⟨n, pdu, before, rest, frag, v, rfl, hpdu, hshort, rfl, hnext, hmore⟩
  · obtain ⟨rfl, heq⟩ := Dialogue.outcome_ret_nil hrest
    obtain ⟨hresp, rfl⟩ := Prod.mk.inj heq
    exact .inl ⟨pdu, hpdu, hshort, hresp, rfl, rfl⟩

theorem readRest_ok {left : Nat} {frags : List Bytes} (hne : frags ≠ [])
    (h : ((fragmentReader next).readRest left frags s).outcome answers = some (.ok resp, t)) :
    ∃ all, ((fragmentReader next).logging.readRest left frags s).outcome answers =
        some (.ok (all, resp), t) ∧ Complete all resp := by
  induction left generalizing frags s answers with
  | zero =>
    rcases readRest_cases h with ⟨pdu, hpdu, hlen, hresp, rfl, rfl⟩ | ⟨n, _, _, _, _, _, hn, -⟩
    · exact ⟨frags, logging_done hpdu hlen hresp, hne, pdu, hpdu, Nat.le_of_not_lt hlen, hresp⟩
    · cases hn
  | succ left ih =>
    rcases readRest_cases h with ⟨pdu, hpdu, hlen, hresp, rfl, rfl⟩ |
      ⟨n, pdu, before, rest, frag, u, hn, hpdu, hshort, rfl, hnext, hmore⟩
    · exact ⟨frags, logging_done hpdu hlen hresp, hne, pdu, hpdu, Nat.le_of_not_lt hlen, hresp⟩
    · obtain rfl := Nat.succ.inj hn
      obtain ⟨all, hlogged, hcomplete⟩ := ih (by simp) hmore
      refine ⟨all, ?_, hcomplete⟩
      rw [FragmentReader.readRest]
      refine BleM.outcome_bind_ok.mpr
        ⟨[], _, pdu, s, rfl, congrArg (fun x => some (x, s)) hpdu, ?_⟩
      refine BleM.outcome_bind_ok.mpr ⟨[], _, _, s, rfl, rfl, ?_⟩
      rw [if_pos hshort]
      exact BleM.outcome_bind_ok.mpr ⟨before, rest, frag, u, rfl, hnext, hlogged⟩

theorem readResponse_ok (h : (readResponse next s).outcome answers = some (.ok resp, t)) :
    ∃ frags, (readResponseLogged next s).outcome answers = some (.ok (frags, resp), t) ∧
      Complete frags resp := by
  obtain ⟨before, rest, first, u, rfl, hfirst, hrest⟩ := BleM.outcome_bind_ok.mp h
  obtain ⟨all, hlogged, hcomplete⟩ := readRest_ok (List.cons_ne_nil _ _) hrest
  exact ⟨all, BleM.outcome_bind_ok.mpr ⟨before, rest, first, u, rfl, hfirst, hlogged⟩, hcomplete⟩

end

theorem Channel.request_ok {P : Primitives} {c : Channel} {uuid : String} {op : OpCode}
    {tid : UInt8} {iid : UInt16} {body : Bytes} {fragSize : Nat} {s t : BleState}
    {answers : List Answer} {resp : Response}
    (h : (c.request P uuid op tid iid body fragSize s).outcome answers = some (.ok resp, t)) :
    ∃ frags, (c.requestLogged P uuid op tid iid body fragSize s).outcome answers =
        some (.ok (frags, resp), t) ∧ Complete frags resp := by
  cases c with
  | plain =>
    rw [request, Ble.request] at h
    obtain ⟨sent, rest, done, u, rfl, hsent, hread⟩ := BleM.outcome_bind_ok.mp h
    obtain ⟨frags, hlogged, hcomplete⟩ := readResponse_ok hread
    exact ⟨frags, BleM.outcome_bind_ok.mpr ⟨sent, rest, done, u, rfl, hsent, hlogged⟩, hcomplete⟩
  | secure =>
    rw [request, requestSecure] at h
    obtain ⟨sent, rest, done, u, rfl, hsent, hread⟩ := BleM.outcome_bind_ok.mp h
    obtain ⟨frags, hlogged, hcomplete⟩ := readResponse_ok hread
    exact ⟨frags, BleM.outcome_bind_ok.mpr ⟨sent, rest, done, u, rfl, hsent, hlogged⟩, hcomplete⟩

/-- A request that succeeds has read fragments. If they are of one response that the accessory
has sent, they are all of it and it is what the request returns; it is a response to this
request exactly if it has its transaction id. A value that is read comes from such a response;
if rejections have no body, it is not one. -/
theorem response_own_iff (P : Primitives) :
    (∀ c uuid op tid iid body fragSize s answers resp t,
      (Channel.request P uuid op tid iid body fragSize c s).outcome answers = some (.ok resp, t) →
      ∃ frags, (c.requestLogged P uuid op tid iid body fragSize s).outcome answers =
          some (.ok (frags, resp), t) ∧
        ∀ R : CutResponse, frags <+: R.fragments →
          resp = R.response ∧ (respondsTo tid frags = true ↔ R.response.tid = tid)) ∧
    ∀ a uuid iid s answers value t,
      (readCharRaw P a uuid iid s).outcome answers = some (.ok value, t) →
      ∃ before last u resp, answers = before ++ last ∧
        (requestSecure P uuid .characteristicRead u.tid (UInt16.ofNat iid.toNat) [] a.fragSize
          u).outcome last = some (.ok resp, t) ∧
        valueParam resp.body = .ok value ∧
        ((resp.status ≠ 0 → resp.body = []) → resp.status = 0) := by
  constructor
  · intro c uuid op tid iid body fragSize s answers resp t h
    obtain ⟨frags, hlogged, hcomplete⟩ := Channel.request_ok h
    refine ⟨frags, hlogged, ?_⟩
    intro R hpart
    obtain ⟨rfl, hresp⟩ := R.eq_of_complete hcomplete hpart
    exact ⟨hresp, R.respondsTo_fragments tid⟩
  · intro a uuid iid s answers value t h
    unfold readCharRaw at h
    split_ifs at h
    · obtain ⟨before, last, u, resp, hanswers, hrequest, hvalue⟩ := readLoop_ok h
      refine ⟨before, last, u, resp, hanswers, hrequest, hvalue, ?_⟩
      intro hempty
      by_contra hrejected
      rw [hempty hrejected] at hvalue
      cases hvalue
    · cases Dialogue.outcome_ret h

def sampleResponse : CutResponse where
  response := ⟨1, 0, [0x01, 1, 5]⟩
  pdu := [0x02, 1, 0, 3, 0, 0x01, 1, 5]
  encoded := .inr ⟨by decide, rfl⟩
  first := [0x02, 1, 0, 3, 0, 0x01]
  rest := [(0x82, [1, 5])]
  whole := rfl
  header := .inr (by decide)
  continued := by decide

def sealedFragment (counter : UInt64) (frag : Bytes) : Bytes :=
  sampleState.session.keys.readKey.val ++ (counterNonce counter).val ++ frag

def sampleReads : List Answer :=
  [.done 0 [], .done 0 (sealedFragment 0 [0x02, 1, 0, 3, 0, 0x01]),
    .done 0 (sealedFragment 1 [0x82, 1, 1, 5])]

theorem response_own_iff_cut :
    (∃ frags t, (Channel.secure.requestLogged plainPrimitives "25" .characteristicRead 1 9 [] 512
        sampleState).outcome sampleReads = some (.ok (frags, ⟨1, 0, [0x01, 1, 5]⟩), t) ∧
      respondsTo 1 frags = true) ∧
    ∃ t, ∃ resp : Response, (readCharRaw plainPrimitives sampleAccessory "25" 9 sampleState).outcome
        sampleReads = some (.ok [5], t) ∧
      valueParam resp.body = .ok [5] ∧ ((resp.status ≠ 0 → resp.body = []) → resp.status = 0) := by
  obtain ⟨hrequest, hread⟩ := response_own_iff plainPrimitives
  constructor
  · have hrun : ∃ t, (Channel.secure.request plainPrimitives "25" .characteristicRead 1 9 [] 512
        sampleState).outcome sampleReads = some (.ok ⟨1, 0, [0x01, 1, 5]⟩, t) :=
      exists_of_result (by decide +kernel)
    have hlog : ∃ t, (Channel.secure.requestLogged plainPrimitives "25" .characteristicRead 1 9 []
        512 sampleState).outcome sampleReads =
          some (.ok (sampleResponse.fragments, ⟨1, 0, [0x01, 1, 5]⟩), t) :=
      exists_of_result (by decide +kernel)
    obtain ⟨t, hrun⟩ := hrun
    obtain ⟨u, hlog⟩ := hlog
    obtain ⟨frags, hlogged, hown⟩ := hrequest _ _ _ _ _ _ _ _ _ _ _ hrun
    have hfrags : frags = sampleResponse.fragments := by
      have heq := Option.some.inj (hlogged.symm.trans hlog)
      exact congrArg (fun x => (x.1.toOption.map Prod.fst).getD []) heq
    exact ⟨frags, t, hlogged, (hown sampleResponse (hfrags ▸ List.prefix_refl _)).2.mpr rfl⟩
  · have hrun : ∃ t, (readCharRaw plainPrimitives sampleAccessory "25" 9 sampleState).outcome
        sampleReads = some (.ok [5], t) := exists_of_result (by decide +kernel)
    obtain ⟨t, hrun⟩ := hrun
    obtain ⟨-, -, -, resp, -, -, hvalue, hstatus⟩ := hread _ _ _ _ _ _ _ hrun
    exact ⟨t, resp, hrun, hvalue, hstatus⟩

def staleRead : List Answer := [.done 0 [], .done 0 [0x02, 9, 0]]

def mixedReads : List Answer :=
  [.done 0 [], .done 0 (sealedFragment 0 [0x02, 1, 0, 2, 0]),
    .done 0 (sealedFragment 1 [0x02, 7, 8, 9])]

/-- A plain request and a sealed one, both with transaction id 1, take responses that are not
theirs; and a read returns the value in a response with status 6. -/
theorem foreign_response_taken :
    (∃ t, (Channel.plain.request plainPrimitives "25" .characteristicRead 1 9 [] 512
        sampleState).outcome staleRead = some (.ok ⟨9, 0, []⟩, t)) ∧
    (∃ t, (Channel.plain.requestLogged plainPrimitives "25" .characteristicRead 1 9 [] 512
        sampleState).outcome staleRead = some (.ok ([[0x02, 9, 0]], ⟨9, 0, []⟩), t)) ∧
    respondsTo 1 [[0x02, 9, 0]] = false ∧
    (∃ t, (Channel.secure.request plainPrimitives "25" .characteristicRead 1 9 [] 512
        sampleState).outcome mixedReads = some (.ok ⟨1, 0, [8, 9]⟩, t)) ∧
    (∃ t, (Channel.secure.requestLogged plainPrimitives "25" .characteristicRead 1 9 [] 512
        sampleState).outcome mixedReads =
          some (.ok ([[0x02, 1, 0, 2, 0], [0x02, 7, 8, 9]], ⟨1, 0, [8, 9]⟩), t)) ∧
    respondsTo 1 [[0x02, 1, 0, 2, 0], [0x02, 7, 8, 9]] = false ∧
    ∃ t, (readCharRaw plainPrimitives sampleAccessory "25" 9 sampleState).outcome
      [.done 0 [], .done 0 (sealedFragment 0 [0x02, 1, 6, 3, 0, 0x01, 1, 5])] = some (.ok [5], t) := by
  refine ⟨exists_of_result ?_, exists_of_result ?_, by decide, exists_of_result ?_,
    exists_of_result ?_, by decide, exists_of_result ?_⟩
  · decide +kernel
  · decide +kernel
  · decide +kernel
  · decide +kernel
  · decide +kernel

end HapRust.Ble
