import HapRust.Ble.Responses

/-! The reads of a response as a program of its own. Each read gives a fragment or fails, and
every index of the source is an operation that may be out of range. The requests, plain and
sealed, run this program over their own way of reading. -/

namespace HapRust.Ble
open Lib Tlv8 Crypto BleM

/-! ## The loop with its indices -/

namespace Checked

def sliceFrom {α : Type} (l : List α) (start : Nat) : Option (List α) :=
  if start ≤ l.length then some (l.drop start) else none

def slice (b : Bytes) (start stop : Nat) : Option Bytes :=
  if start ≤ stop ∧ stop ≤ b.length then some ((b.take stop).drop start) else none

def decodeResponse (pdu : Bytes) : Option (Except BleError Response) :=
  if pdu.length < 3 then some (.error (.malformedPdu "response shorter than 3 bytes"))
  else do
    let tid ← pdu[1]?
    let status ← pdu[2]?
    if 3 < pdu.length then
      if pdu.length < 5 then some (.error (.malformedPdu "response body length truncated"))
      else do
        let lo ← pdu[3]?
        let hi ← pdu[4]?
        let len := leNat [lo, hi]
        if pdu.length < 5 + len then
          some (.error (.malformedPdu "response body shorter than declared"))
        else do
          let body ← slice pdu 5 (5 + len)
          some (.ok ⟨tid, status, body⟩)
    else some (.ok ⟨tid, status, []⟩)

def appendAll : Bytes → List Bytes → Option (Except BleError Bytes)
  | out, [] => some (.ok out)
  | out, f :: fs =>
    if f.length < 2 then some (.error (.malformedPdu "continuation fragment too short"))
    else do
      let chunk ← sliceFrom f 2
      appendAll (out ++ chunk) fs

def reassemble (frags : List Bytes) : Option (Except BleError Bytes) :=
  match frags.head? with
  | none => some (.error (.malformedPdu "no fragments to reassemble"))
  | some first => do
    let rest ← sliceFrom frags 1
    appendAll first rest

def declaredTotal (first : Bytes) : Option Nat :=
  if 5 ≤ first.length then do
    let lo ← first[3]?
    let hi ← first[4]?
    some (5 + leNat [lo, hi])
  else some first.length

abbrev CheckedM (α : Type) : Type := Dialogue Unit (Except BleError Bytes) (Option (Except BleError α))

def andThen {α β : Type} (f : α → CheckedM β) :
    Option (Except BleError α) → Dialogue Unit (Except BleError Bytes) (Option (Except BleError β))
  | some (.ok a) => f a
  | some (.error e) => .ret (some (.error e))
  | none => .ret none

instance : Monad CheckedM where
  pure a := .ret (some (.ok a))
  bind m f := Dialogue.bind m (andThen f)

def reader : FragmentReader CheckedM Response where
  next := .ask () fun frag => .ret (some frag)
  reassemble frags := .ret (reassemble frags)
  declaredTotal frags := .ret ((frags[0]?.bind declaredTotal).map .ok)
  tooMany := .ret (some (.error (.malformedPdu "too many response fragments")))
  finish frags _ := (.ret (reassemble frags) : Dialogue _ _ _).bind (andThen fun pdu => .ret (decodeResponse pdu))

def readResponse : Dialogue Unit (Except BleError Bytes) (Option (Except BleError Response)) :=
  reader.readResponse

/-! ## No index is out of range -/

theorem decodeResponse_eq (pdu : Bytes) : decodeResponse pdu = some (Ble.decodeResponse pdu) := by
  match pdu with
  | [] => rfl
  | [_] => rfl
  | [_, _] => rfl
  | [_, _, _] => rfl
  | [_, _, _, _] => rfl
  | a :: tid :: status :: lo :: hi :: rest =>
    have hlen : (a :: tid :: status :: lo :: hi :: rest).length = rest.length + 5 := rfl
    rw [decodeResponse, if_neg (by omega)]
    simp only [List.getElem?_cons_succ, List.getElem?_cons_zero, Option.bind_eq_bind,
      Option.bind_some, Ble.decodeResponse]
    rw [if_pos (by omega), if_neg (by omega)]
    by_cases hshort : rest.length < leNat [lo, hi]
    · rw [if_pos (by omega), if_pos hshort]
    · rw [if_neg (by omega), if_neg hshort, slice, if_pos (by omega), Option.bind_some,
        Nat.add_comm 5, List.drop_take, Nat.add_sub_cancel]
      rfl

theorem appendAll_eq (out : Bytes) (fs : List Bytes) :
    appendAll out fs = some (fs.foldlM (fun out f =>
      if f.length < 2 then .error (.malformedPdu "continuation fragment too short")
      else .ok (out ++ f.drop 2)) out) := by
  induction fs generalizing out with
  | nil => rfl
  | cons f fs ih =>
    rw [appendAll, List.foldlM_cons]
    by_cases hshort : f.length < 2
    · rw [if_pos hshort, if_pos hshort]
      rfl
    · rw [if_neg hshort, if_neg hshort, sliceFrom, if_pos (by omega), ok_bind]
      exact ih _

theorem reassemble_eq (frags : List Bytes) : reassemble frags = some (Ble.reassemble frags) := by
  cases frags with
  | nil => rfl
  | cons first rest => exact appendAll_eq first rest

theorem declaredTotal_eq (first : Bytes) : declaredTotal first = some (Ble.declaredTotal first) := by
  match first with
  | [] => rfl
  | [_] => rfl
  | [_, _] => rfl
  | [_, _, _] => rfl
  | [_, _, _, _] => rfl
  | _ :: _ :: _ :: _ :: _ :: rest => exact if_pos (Nat.le_add_left 5 rest.length)

section
variable {frags : List Bytes}

theorem total_eq (hne : frags ≠ []) :
    frags[0]?.bind declaredTotal = some (Ble.declaredTotal (frags.headD [])) := by
  cases frags with
  | nil => exact absurd rfl hne
  | cons first rest => exact declaredTotal_eq first

def onRead (k : Bytes → CheckedM Response) :
    Dialogue Unit (Except BleError Bytes) (Option (Except BleError Response)) :=
  .ask () fun x => andThen k (some x)

variable {left : Nat}

theorem readRest_error {e : BleError} (h : Ble.reassemble frags = .error e) :
    reader.readRest left frags = .ret (some (.error e)) := by
  rw [FragmentReader.readRest.eq_def]
  change andThen _ (reassemble frags) = _
  rw [reassemble_eq, h]
  rfl

theorem readRest_ok (hne : frags ≠ []) {pdu : Bytes} (h : Ble.reassemble frags = .ok pdu) :
    reader.readRest left frags =
      if pdu.length < Ble.declaredTotal (frags.headD []) then
        left.casesOn (.ret (some (.error (.malformedPdu "too many response fragments"))))
          fun left => onRead fun frag => reader.readRest left (frags ++ [frag])
      else .ret (some (Ble.decodeResponse pdu)) := by
  have hfinish : reader.finish frags pdu = .ret (some (Ble.decodeResponse pdu)) := by
    change andThen _ (reassemble frags) = _
    rw [reassemble_eq, h]
    exact congrArg Dialogue.ret (decodeResponse_eq pdu)
  rw [FragmentReader.readRest.eq_def]
  change andThen _ (reassemble frags) = _
  rw [reassemble_eq, h]
  change andThen _ ((frags[0]?.bind declaredTotal).map .ok) = _
  rw [total_eq hne, ← hfinish]
  cases left <;> rfl

theorem readRest_done (hne : frags ≠ []) {pdu : Bytes} (h : Ble.reassemble frags = .ok pdu)
    (hlen : ¬ pdu.length < Ble.declaredTotal (frags.headD [])) :
    reader.readRest left frags = .ret (some (Ble.decodeResponse pdu)) := by
  rw [readRest_ok hne h, if_neg hlen]

theorem readRest_short (hne : frags ≠ []) {pdu : Bytes} (h : Ble.reassemble frags = .ok pdu)
    (hlen : pdu.length < Ble.declaredTotal (frags.headD [])) :
    reader.readRest (left + 1) frags = onRead fun frag => reader.readRest left (frags ++ [frag]) := by
  rw [readRest_ok hne h, if_pos hlen]

theorem readRest_cases (hne : frags ≠ []) :
    (∃ x, reader.readRest left frags = .ret (some x)) ∨
      ∃ n, left = n + 1 ∧
        reader.readRest left frags = onRead fun frag => reader.readRest n (frags ++ [frag]) := by
  cases h : Ble.reassemble frags with
  | error e => exact .inl ⟨_, readRest_error h⟩
  | ok pdu =>
    rw [readRest_ok hne h]
    split_ifs
    · cases left with
      | zero => exact .inl ⟨_, rfl⟩
      | succ n => exact .inr ⟨n, rfl, rfl⟩
    · exact .inl ⟨_, rfl⟩

end

theorem readRest_bounded (left : Nat) {frags : List Bytes} (hne : frags ≠ []) :
    Dialogue.Always (· ≠ none) (reader.readRest left frags) ∧
      ∀ answers, (Dialogue.transcript (reader.readRest left frags) answers).length ≤ left := by
  induction left generalizing frags with
  | zero =>
    rcases readRest_cases hne with ⟨x, hx⟩ | ⟨n, hn, -⟩
    · rw [hx]
      exact ⟨Option.some_ne_none x, fun answers => Nat.le_of_eq rfl⟩
    · cases hn
  | succ left ih =>
    rcases readRest_cases hne with ⟨x, hx⟩ | ⟨n, hn, hask⟩
    · rw [hx]
      exact ⟨Option.some_ne_none x, fun answers => Nat.zero_le _⟩
    · obtain rfl := Nat.succ.inj hn
      have hmore (frag : Bytes) := ih (by simp : frags ++ [frag] ≠ [])
      rw [hask]
      refine ⟨fun x => ?_, fun answers => ?_⟩
      · cases x with
        | error e => exact Option.some_ne_none _
        | ok frag => exact (hmore frag).1
      · cases answers with
        | nil => exact Nat.zero_le _
        | cons x answers =>
          cases x with
          | error e => exact Nat.le_add_left 1 left
          | ok frag => exact Nat.succ_le_succ ((hmore frag).2 answers)

theorem readResponse_bounded :
    readResponse.Always (· ≠ none) ∧
      ∀ answers, (readResponse.transcript answers).length ≤ maxResponseFragments := by
  have hmore (first : Bytes) :=
    readRest_bounded (maxResponseFragments - 1) (List.cons_ne_nil first [])
  refine ⟨fun x => ?_, fun answers => ?_⟩
  · cases x with
    | error e => exact Option.some_ne_none _
    | ok first => exact (hmore first).1
  · match answers with
    | [] => exact Nat.zero_le _
    | .error e :: answers => exact Nat.le_add_left 1 63
    | .ok first :: answers => exact Nat.succ_le_succ ((hmore first).2 answers)

end Checked

/-! ## The requests run the loop -/

section
variable (next : BleM Bytes) {α : Type}

def reading : Dialogue Unit (Except BleError Bytes) (Option (Except BleError α)) → BleM (Option α)
  | .ret none, s => .ret (.ok none, s)
  | .ret (some x), s => .ret (x.map some, s)
  | .ask _ k, s => (next s).bind fun r => reading (k r.1) r.2

variable {next}

theorem reading_onRead {k : Bytes → Checked.CheckedM Response} {f : Bytes → BleM Response}
    (h : ∀ frag s, reading next (k frag) s = (f frag >>= fun r => pure (some r)) s) (s : BleState) :
    reading next (Checked.onRead k) s =
      (next >>= fun frag => f frag >>= fun r => pure (some r)) s := by
  rw [Checked.onRead, reading, bind_apply]
  refine congrArg (Dialogue.bind (next s)) (funext ?_)
  rintro ⟨x, t⟩
  cases x with
  | error e => rfl
  | ok frag => exact h frag t

end

theorem bleM_assoc {α β γ : Type} (m : BleM α) (f : α → BleM β) (g : β → BleM γ) :
    m >>= f >>= g = m >>= fun a => f a >>= g := by
  funext s
  refine (Dialogue.bind_assoc _ _ _).trans (congrArg (Dialogue.bind (m s)) (funext ?_))
  rintro ⟨x, t⟩
  cases x <;> rfl

section
variable (next : BleM Bytes) {frags : List Bytes}

theorem fragmentReader_error {left : Nat} {e : BleError} (h : reassemble frags = .error e) :
    (fragmentReader next).readRest left frags = throw e := by
  rw [FragmentReader.readRest.eq_def]
  change (BleM.lift (reassemble frags) >>= _) = _
  rw [h]
  rfl

theorem fragmentReader_ok {left : Nat} {pdu : Bytes} (h : reassemble frags = .ok pdu) :
    (fragmentReader next).readRest left frags =
      if pdu.length < declaredTotal (frags.headD []) then
        left.casesOn (throw (.malformedPdu "too many response fragments"))
          fun left => next >>= fun frag => (fragmentReader next).readRest left (frags ++ [frag])
      else BleM.lift (decodeResponse pdu) := by
  rw [FragmentReader.readRest.eq_def]
  change (BleM.lift (reassemble frags) >>= _) = _
  rw [h]
  cases left <;> rfl

theorem reading_ret (x : Except BleError Response) (s : BleState) :
    reading next (.ret (some x)) s = (BleM.lift x >>= fun r => pure (some r)) s := by
  cases x <;> rfl

theorem reading_readRest (left : Nat) (hne : frags ≠ []) (s : BleState) :
    reading next (Checked.reader.readRest left frags) s =
      ((fragmentReader next).readRest left frags >>= fun r => pure (some r)) s := by
  induction left generalizing frags s with
  | zero =>
    cases h : reassemble frags with
    | error e =>
      rw [Checked.readRest_error h, fragmentReader_error next h]
      exact reading_ret next (.error e) s
    | ok pdu =>
      rw [Checked.readRest_ok hne h, fragmentReader_ok next h]
      split_ifs
      · exact reading_ret next (.error _) s
      · exact reading_ret next _ s
  | succ left ih =>
    cases h : reassemble frags with
    | error e =>
      rw [Checked.readRest_error h, fragmentReader_error next h]
      exact reading_ret next (.error e) s
    | ok pdu =>
      rw [Checked.readRest_ok hne h, fragmentReader_ok next h]
      split_ifs
      · rw [bleM_assoc]
        exact reading_onRead (fun frag t => ih (by simp) t) s
      · exact reading_ret next _ s

end

theorem reading_readResponse (next : BleM Bytes) :
    reading next Checked.readResponse = readResponse next >>= fun r => pure (some r) := by
  funext s
  have hread := reading_onRead
    (fun first t => reading_readRest next (maxResponseFragments - 1) (List.cons_ne_nil first []) t) s
  rw [← bleM_assoc] at hread
  exact hread

/-! ## Responses in fragments -/

/-- A response PDU and a way of cutting it. The first fragment has the whole header; the two
bytes before each other chunk are any, and chunks may be empty. -/
structure ResponseSplit where
  pdu : Bytes
  complete : declaredTotal pdu ≤ pdu.length
  first : Bytes
  rest : List (UInt8 × UInt8 × Bytes)
  whole : first ++ (rest.map (·.2.2)).flatten = pdu
  header : 5 ≤ first.length ∨ first = pdu ∧ pdu.length = 3
  few : rest.length < maxResponseFragments

namespace ResponseSplit
variable (S : ResponseSplit)

def continuation (c : UInt8 × UInt8 × Bytes) : Bytes := c.1 :: c.2.1 :: c.2.2

def fragments : List Bytes := S.first :: S.rest.map continuation

def held (n : Nat) : Bytes := S.first ++ ((S.rest.take n).map (·.2.2)).flatten

/-- The declared body is there with this continuation and not before. -/
def Completes (n : Nat) : Prop :=
  declaredTotal S.pdu ≤ (S.held n).length ∧ ∀ m < n, (S.held m).length < declaredTotal S.pdu

theorem pdu_eq_held (n : Nat) : S.pdu = S.held n ++ ((S.rest.drop n).map (·.2.2)).flatten := by
  rw [held, List.append_assoc, ← List.flatten_append, ← List.map_append, List.take_append_drop,
    S.whole]

theorem Completes.unique {S : ResponseSplit} {m n : Nat} (hm : S.Completes m) (hn : S.Completes n) :
    m = n := by
  rcases Nat.lt_trichotomy m n with hlt | heq | hlt
  · exact absurd hm.1 (Nat.not_le.mpr (hn.2 m hlt))
  · exact heq
  · exact absurd hn.1 (Nat.not_le.mpr (hm.2 n hlt))

theorem exists_completes : ∃ n ≤ S.rest.length, S.Completes n := by
  have hall : declaredTotal S.pdu ≤ (S.held S.rest.length).length := by
    have hpdu := S.pdu_eq_held S.rest.length
    rw [List.drop_length, List.map_nil, List.flatten_nil, List.append_nil] at hpdu
    rw [← hpdu]
    exact S.complete
  have hex : ∃ n, declaredTotal S.pdu ≤ (S.held n).length := ⟨_, hall⟩
  exact ⟨Nat.find hex, Nat.find_min' hex hall, Nat.find_spec hex, fun m hm =>
    Nat.lt_of_not_le (Nat.find_min hex hm)⟩

theorem declaredTotal_first : declaredTotal S.first = declaredTotal S.pdu := by
  rcases S.header with hfirst | ⟨hfirst, -⟩
  · rw [← S.whole, CutResponse.declaredTotal_append hfirst]
  · rw [hfirst]

theorem reassemble_take (n : Nat) :
    reassemble (S.first :: (S.rest.take n).map continuation) = .ok (S.held n) := by
  rw [reassemble]
  exact foldlM_continuations Prod.fst (fun c => c.2.1) (fun c => c.2.2) (S.rest.take n) S.first

end ResponseSplit

theorem decodeResponse_append {b : Bytes} (hheader : 5 ≤ b.length)
    (hbody : declaredTotal b ≤ b.length) (x : Bytes) :
    decodeResponse (b ++ x) = decodeResponse b := by
  match b, hheader with
  | a :: tid :: status :: lo :: hi :: rest, _ =>
    have hlen : leNat [lo, hi] ≤ rest.length := by
      have htotal : 5 + leNat [lo, hi] ≤ rest.length + 5 := hbody
      omega
    show decodeResponse (a :: tid :: status :: lo :: hi :: (rest ++ x)) = _
    rw [decodeResponse, decodeResponse, if_neg (Nat.not_lt.mpr hlen), List.length_append,
      if_neg (by omega), List.take_append_of_le_length hlen]

namespace ResponseSplit
variable (S : ResponseSplit)

theorem decodeResponse_held {n : Nat} (h : declaredTotal S.pdu ≤ (S.held n).length) :
    decodeResponse (S.held n) = decodeResponse S.pdu := by
  have hpdu := S.pdu_eq_held n
  rcases S.header with hfirst | ⟨hfirst, -⟩
  · have hheader : 5 ≤ (S.held n).length := by
      rw [held, List.length_append]
      omega
    have htotal : declaredTotal (S.held n) = declaredTotal S.pdu := by
      rw [held, CutResponse.declaredTotal_append hfirst, S.declaredTotal_first]
    rw [hpdu, decodeResponse_append hheader (htotal.trans_le h)]
  · have hle : S.pdu.length ≤ (S.held n).length := by
      rw [held, hfirst, List.length_append]
      exact Nat.le_add_right _ _
    have hnil : ((S.rest.drop n).map (·.2.2)).flatten = [] := by
      rw [hpdu, List.length_append] at hle
      exact List.eq_nil_of_length_eq_zero (by omega)
    rw [hnil, List.append_nil] at hpdu
    rw [← hpdu]

theorem outcome_readRest {n : Nat} (hn : S.Completes n) (hlen : n ≤ S.rest.length) {m j left : Nat}
    (hm : m + j = n) (hleft : j ≤ left) :
    Dialogue.outcome (Checked.reader.readRest left (S.first :: (S.rest.take m).map continuation))
        ((((S.rest.drop m).take j).map continuation).map .ok) =
      some (some (decodeResponse S.pdu)) := by
  induction j generalizing m left with
  | zero =>
    obtain rfl : m = n := hm
    have hdone : ¬ (S.held m).length < declaredTotal S.first := by
      rw [S.declaredTotal_first]
      exact Nat.not_lt.mpr hn.1
    rw [Checked.readRest_done (List.cons_ne_nil _ _) (S.reassemble_take m) hdone,
      S.decodeResponse_held hn.1]
    rfl
  | succ j ih =>
    obtain ⟨left, rfl⟩ : ∃ k, left = k + 1 := ⟨left - 1, by omega⟩
    have hshort : (S.held m).length < declaredTotal S.first := by
      rw [S.declaredTotal_first]
      exact hn.2 m (by omega)
    have hlt : m < S.rest.length := by omega
    have hnext := ih (show m + 1 + j = n by omega) (show j ≤ left by omega)
    rw [List.take_succ_eq_append_getElem hlt, List.map_append] at hnext
    rw [Checked.readRest_short (List.cons_ne_nil _ _) (S.reassemble_take m) hshort,
      List.drop_eq_getElem_cons hlt, List.take_succ_cons]
    exact hnext

end ResponseSplit

/-- A response in at most 64 fragments is read up to the fragment that completes its declared
body, and decoded. Whatever is read instead, the loop stops after at most 64 reads with a result
or an error, and no index is out of range. The requests, plain and sealed, run this loop. -/
theorem responses_read (P : Primitives) :
    (∀ S : ResponseSplit, ∃ n ≤ S.rest.length, S.Completes n ∧
      Checked.readResponse.outcome ((S.fragments.take (n + 1)).map .ok) =
        some (some (decodeResponse S.pdu))) ∧
    (∀ stream : Nat → Except BleError Bytes, ∃ n ≤ 64, ∃ x,
      Checked.readResponse.outcome ((List.range n).map stream) = some (some x)) ∧
    (∀ uuid op tid iid body fragSize,
      request uuid op tid iid body fragSize >>= (fun r => pure (some r)) =
        (writeAll uuid (fragment (encodeRequest op tid iid body) fragSize) >>= fun _ =>
          reading (read uuid) Checked.readResponse)) ∧
    ∀ uuid op tid iid body fragSize,
      requestSecure P uuid op tid iid body fragSize >>= (fun r => pure (some r)) =
        (writeSealed P uuid (secureFragments op tid iid body fragSize) >>= fun _ =>
          reading (readSealed P uuid) Checked.readResponse) := by
  refine ⟨fun S => ?_, fun stream => ?_, ?_, ?_⟩
  · obtain ⟨n, hlen, hn⟩ := S.exists_completes
    refine ⟨n, hlen, hn, ?_⟩
    have hrest := S.outcome_readRest hn hlen (Nat.zero_add n)
      (Nat.le_pred_of_lt (Nat.lt_of_le_of_lt hlen S.few))
    rw [ResponseSplit.fragments, List.take_succ_cons, ← List.map_take]
    exact hrest
  · obtain ⟨n, x, hx⟩ := Checked.readResponse.exists_outcome stream
    have hlen := Dialogue.length_transcript hx
    rw [List.length_map, List.length_range] at hlen
    cases x with
    | none => exact absurd rfl (Checked.readResponse_bounded.1.outcome hx)
    | some x => exact ⟨n, hlen ▸ Checked.readResponse_bounded.2 _, x, hx⟩
  · intro uuid op tid iid body fragSize
    rw [request, bleM_assoc, reading_readResponse]
  · intro uuid op tid iid body fragSize
    rw [requestSecure, bleM_assoc, reading_readResponse]

def splitResponse : ResponseSplit where
  pdu := [0x02, 7, 0, 6, 0, 1, 2, 3, 4, 5, 6]
  complete := by decide
  first := [0x02, 7, 0, 6, 0, 1]
  rest := [(0x82, 7, [2, 3]), (0x82, 7, []), (0x82, 7, [4, 5, 6]), (0x82, 7, [])]
  whole := rfl
  header := .inl (by decide)
  few := by decide

theorem responses_read_five :
    splitResponse.fragments.length = 5 ∧
      Checked.readResponse.outcome ((splitResponse.fragments.take 4).map .ok) =
        some (some (.ok ⟨7, 0, [1, 2, 3, 4, 5, 6]⟩)) := by
  obtain ⟨n, -, hn, hread⟩ := (responses_read plainPrimitives).1 splitResponse
  have hfour : splitResponse.Completes 3 := ⟨by decide, by decide⟩
  obtain rfl := hn.unique hfour
  exact ⟨rfl, hread⟩

end HapRust.Ble
