import HapRust.Transport.HttpLocal

/-! The demultiplexer of the secure session: responses and events are taken off
the front of the decrypted stream. -/

namespace HapRust.Transport
open Lib

structure EventNotification where
  body : Bytes
  deriving DecidableEq

inductive Demuxed where
  | response (r : HapResponse)
  | event (ev : EventNotification)
  deriving DecidableEq

variable (checks : Bool)

def nextMessage (rest : Bytes) : Except Fault (Option (Demuxed × Nat)) :=
  if rest = [] then .ok none
  else
    let isEvent := decide (eventPrefix <+: rest)
    let isHttp := decide (httpPrefix <+: rest)
    if !isEvent && !isHttp then
      -- it may be the start of a start line
      if rest.length < max eventPrefix.length httpPrefix.length then .ok none
      else .error (malformed "unrecognised start line in secure stream")
    else do
      match ← parseMessage checks rest (if isEvent then eventPrefix else httpPrefix) with
      | .incomplete => return none
      | .complete response consumed =>
        return some (if isEvent then .event ⟨response.body⟩ else .response response, consumed)

def demuxLoop : Nat → Bytes → List Demuxed → Nat → Except Fault (List Demuxed × Nat)
  | 0, _, out, offset => .ok (out, offset)
  | fuel + 1, buf, out, offset => do
    match ← nextMessage checks (buf.drop offset) with
    | none => return (out, offset)
    | some (message, consumed) => demuxLoop fuel buf (out ++ [message]) (offset + consumed)

def demuxMessages (buf : Bytes) : Except Fault (List Demuxed × Nat) :=
  demuxLoop checks (buf.length + 1) buf [] 0

section
variable {checks}

inductive StartsWith : Bytes → (HapResponse → Demuxed) → Prop
  | event : StartsWith eventPrefix fun r => .event ⟨r.body⟩
  | http : StartsWith httpPrefix .response

theorem not_eventPrefix_of_httpPrefix {rest : Bytes} (h : httpPrefix <+: rest) :
    ¬ eventPrefix <+: rest := by
  intro he
  have hlen : httpPrefix.length ≤ eventPrefix.length := by decide +kernel
  have hboth : httpPrefix <+: eventPrefix := List.prefix_of_prefix_length_le h he hlen
  revert hboth
  decide +kernel

theorem nextMessage_eq {expected rest : Bytes} {kind : HapResponse → Demuxed}
    (hs : StartsWith expected kind) (hp : expected <+: rest) :
    nextMessage checks rest = (do
      match ← parseMessage checks rest expected with
      | .incomplete => return none
      | .complete response consumed => return some (kind response, consumed)) := by
  have hne : rest ≠ [] := by
    rintro rfl
    cases hs <;> (revert hp; decide +kernel)
  cases hs with
  | event =>
    simp only [nextMessage, if_neg hne, decide_eq_true hp, Bool.not_true, Bool.false_and,
      Bool.false_eq_true, if_false, if_true]
  | http =>
    simp only [nextMessage, if_neg hne, decide_eq_true hp,
      decide_eq_false (not_eventPrefix_of_httpPrefix hp), Bool.not_true, Bool.and_false,
      Bool.false_eq_true, if_false]

theorem nextMessage_neither {rest : Bytes} (he : ¬ eventPrefix <+: rest)
    (hh : ¬ httpPrefix <+: rest) :
    nextMessage checks rest =
      if rest.length < eventPrefix.length then .ok none
      else .error (malformed "unrecognised start line in secure stream") := by
  have hmax : max eventPrefix.length httpPrefix.length = eventPrefix.length := by decide +kernel
  have hpos : 0 < eventPrefix.length := by decide +kernel
  by_cases hnil : rest = []
  · subst hnil
    rw [nextMessage, if_pos rfl, List.length_nil, if_pos hpos]
  · simp only [nextMessage, if_neg hnil, decide_eq_false he, decide_eq_false hh, Bool.not_false,
      Bool.and_true, if_true, hmax]

theorem startsWith_or_neither (rest : Bytes) :
    (∃ expected kind, StartsWith expected kind ∧ expected <+: rest) ∨
      (¬ eventPrefix <+: rest ∧ ¬ httpPrefix <+: rest) := by
  by_cases he : eventPrefix <+: rest
  · exact .inl ⟨_, _, .event, he⟩
  · by_cases hh : httpPrefix <+: rest
    · exact .inl ⟨_, _, .http, hh⟩
    · exact .inr ⟨he, hh⟩

theorem nextMessage_complete {rest : Bytes} {m : Demuxed} {n : Nat}
    (h : nextMessage checks rest = .ok (some (m, n))) :
    ∃ front back, rest = front ++ back ∧ front.length = n ∧ 0 < n ∧
      ∀ x, nextMessage checks (front ++ x) = .ok (some (m, n)) := by
  rcases startsWith_or_neither rest with ⟨expected, kind, hs, hp⟩ | ⟨he, hh⟩
  · rw [nextMessage_eq hs hp] at h
    obtain ⟨o, ho, hres⟩ := bind_eq_ok.mp h
    cases o with
    | incomplete => cases hres
    | complete r n =>
      obtain ⟨rfl, rfl⟩ := Prod.mk.inj (Option.some.inj (Except.ok.inj hres))
      obtain ⟨front, back, rfl, hn, hpos, hfront, hx⟩ := parseMessage_complete ho
      refine ⟨front, back, rfl, hn, hpos, ?_⟩
      intro x
      rw [nextMessage_eq hs (hfront.trans (List.prefix_append _ _)), hx x]
      rfl
  · rw [nextMessage_neither he hh] at h
    split_ifs at h
    cases h

theorem nextMessage_error {rest : Bytes} {f : Fault} (h : nextMessage checks rest = .error f)
    (x : Bytes) : nextMessage checks (rest ++ x) = .error f := by
  rcases startsWith_or_neither rest with ⟨expected, kind, hs, hp⟩ | ⟨he, hh⟩
  · rw [nextMessage_eq hs hp] at h
    rw [nextMessage_eq hs (hp.trans (List.prefix_append _ _))]
    rcases ho : parseMessage checks rest expected with f' | o
    · rw [ho] at h
      rw [parseMessage_error ho x]
      exact h
    · rw [ho, ok_bind] at h
      cases o <;> cases h
  · rw [nextMessage_neither he hh] at h
    split_ifs at h with hshort
    have hlong : eventPrefix.length ≤ rest.length := Nat.le_of_not_lt hshort
    have hhttp : httpPrefix.length ≤ rest.length := le_trans (by decide +kernel) hlong
    have he' : ¬ eventPrefix <+: rest ++ x := fun hp =>
      he (List.prefix_of_prefix_length_le hp (List.prefix_append _ _) hlong)
    have hh' : ¬ httpPrefix <+: rest ++ x := fun hp =>
      hh (List.prefix_of_prefix_length_le hp (List.prefix_append _ _) hhttp)
    rw [nextMessage_neither he' hh', if_neg (by rw [List.length_append]; omega)]
    exact h

end

def demuxNext (rest : Bytes) : Next Unit Fault Demuxed UInt8 :=
  match nextMessage checks rest with
  | .error f => .fail f
  | .ok none => .more
  | .ok (some (m, n)) => .item m () (rest.drop n)

section
variable {checks}

theorem demuxNext_eq_item {buf rest : Bytes} {m : Demuxed} {u : Unit}
    (h : demuxNext checks buf = .item m u rest) :
    ∃ front, buf = front ++ rest ∧ front ≠ [] ∧
      nextMessage checks buf = .ok (some (m, front.length)) ∧
      ∀ x, demuxNext checks (front ++ x) = .item m u x := by
  unfold demuxNext at h
  split at h
  · cases h
  · cases h
  · next m' n hm =>
    obtain ⟨rfl, -, rfl⟩ := Next.item.inj h
    obtain ⟨front, back, rfl, rfl, hpos, hx⟩ := nextMessage_complete hm
    rw [List.drop_left]
    refine ⟨front, rfl, List.length_pos_iff.mp hpos, hm, ?_⟩
    intro x
    rw [demuxNext, hx x]
    simp only [List.drop_left]

theorem demuxNext_eq_fail {buf : Bytes} {f : Fault} :
    demuxNext checks buf = .fail f ↔ nextMessage checks buf = .error f := by
  unfold demuxNext
  split <;> simp [*]

theorem demuxNext_eq_more {buf : Bytes} :
    demuxNext checks buf = .more ↔ nextMessage checks buf = .ok none := by
  unfold demuxNext
  split <;> simp [*]

end

def demuxDecoder : Decoder Unit Fault Demuxed UInt8 where
  next _ := demuxNext checks
  shrinks {s buf m s' rest} h := by
    obtain ⟨front, rfl, hne, -⟩ := demuxNext_eq_item h
    have hpos := List.length_pos_iff.mpr hne
    rw [List.length_append]
    omega

theorem demuxDecoder_stable : (demuxDecoder checks).Stable where
  item h := by
    obtain ⟨front, hbuf, -, -, hx⟩ := demuxNext_eq_item h
    exact ⟨front, hbuf, hx⟩
  fail h x := demuxNext_eq_fail.mpr (nextMessage_error (demuxNext_eq_fail.mp h) x)

def messagesOf (stream : Bytes) : List Demuxed := ((demuxDecoder checks).drain () stream).items

def refusalOf (stream : Bytes) : Option Fault := ((demuxDecoder checks).drain () stream).failed

def behind (stream : Bytes) : Bytes := ((demuxDecoder checks).drain () stream).rest

theorem demuxLoop_eq : ∀ (fuel : Nat) (front rest : Bytes) (out : List Demuxed),
    rest.length < fuel →
    demuxLoop checks fuel (front ++ rest) out front.length =
      match refusalOf checks rest with
      | some f => .error f
      | none => .ok (out ++ messagesOf checks rest,
          (front ++ rest).length - (behind checks rest).length) := by
  intro fuel
  induction fuel with
  | zero =>
    intro front rest out h
    omega
  | succ fuel ih =>
    intro front rest out hfuel
    unfold refusalOf messagesOf behind
    rw [demuxLoop, List.drop_left]
    cases hnext : demuxNext checks rest with
    | item m u rest' =>
      obtain ⟨front', rfl, hne, hm, -⟩ := demuxNext_eq_item hnext
      have hpos := List.length_pos_iff.mpr hne
      rw [List.length_append] at hfuel
      have hloop := ih (front ++ front') rest' (out ++ [m]) (by omega)
      rw [List.append_assoc, List.length_append] at hloop
      rw [hm, ok_bind, Decoder.drain_item (d := demuxDecoder checks) hnext]
      dsimp only
      rw [hloop, List.append_assoc, List.singleton_append]
      rfl
    | more =>
      rw [demuxNext_eq_more.mp hnext, Decoder.drain_more (d := demuxDecoder checks) hnext]
      simp
    | fail f =>
      rw [demuxNext_eq_fail.mp hnext, Decoder.drain_fail (d := demuxDecoder checks) hnext]
      rfl

section
variable {checks} {stream : Bytes}

theorem demuxMessages_eq (buf : Bytes) :
    demuxMessages checks buf =
      match refusalOf checks buf with
      | some f => .error f
      | none => .ok (messagesOf checks buf, buf.length - (behind checks buf).length) :=
  demuxLoop_eq checks (buf.length + 1) [] buf [] (Nat.lt_succ_self _)

end
end HapRust.Transport
