import HapRust.Transport.Demux
import Mathlib.Data.List.Induction

/-! The plaintext side of the reader task: one batch of messages is delivered
for every piece of plaintext that arrives, and what is delivered is compared
with the messages of the stream as a whole. -/

namespace HapRust.Transport
open Lib

variable (checks : Bool)

structure PlainReader where
  plainBuf : Bytes
  delivered : List Demuxed
  stopped : Option Fault
  deriving DecidableEq

def PlainReader.pass (r : PlainReader) (chunk : Bytes) : PlainReader :=
  match r.stopped with
  | some _ => r
  | none =>
    match demuxMessages checks (r.plainBuf ++ chunk) with
    | .ok (messages, consumed) =>
      ⟨(r.plainBuf ++ chunk).drop consumed, r.delivered ++ messages, none⟩
    | .error f => ⟨r.plainBuf ++ chunk, r.delivered, some f⟩

def readPlain (chunks : List Bytes) : PlainReader :=
  chunks.foldl (PlainReader.pass checks) ⟨[], [], none⟩

section
variable {checks} {stream : Bytes}

theorem pass_eq {r : PlainReader} (hr : r.stopped = none) (chunk : Bytes) :
    r.pass checks chunk =
      match refusalOf checks (r.plainBuf ++ chunk) with
      | some f => ⟨r.plainBuf ++ chunk, r.delivered, some f⟩
      | none => ⟨behind checks (r.plainBuf ++ chunk),
          r.delivered ++ messagesOf checks (r.plainBuf ++ chunk), none⟩ := by
  rw [PlainReader.pass, hr, demuxMessages_eq]
  cases refusalOf checks (r.plainBuf ++ chunk) with
  | some f => rfl
  | none =>
    obtain ⟨front, hfront⟩ : behind checks (r.plainBuf ++ chunk) <:+ r.plainBuf ++ chunk :=
      (demuxDecoder_stable checks).drain_rest_isSuffix () _
    have hlen : (r.plainBuf ++ chunk).length - (behind checks (r.plainBuf ++ chunk)).length =
        front.length := by
      rw [← congrArg List.length hfront, List.length_append, Nat.add_sub_cancel]
    have hdrop : (r.plainBuf ++ chunk).drop front.length = behind checks (r.plainBuf ++ chunk) := by
      nth_rewrite 1 [← hfront]
      exact List.drop_left
    simp only [hlen, hdrop]

theorem pass_stopped {r : PlainReader} {f : Fault} (hr : r.stopped = some f) (chunk : Bytes) :
    r.pass checks chunk = r := by
  rw [PlainReader.pass, hr]

theorem refused_append {f : Fault} (h : refusalOf checks stream = some f) (x : Bytes) :
    refusalOf checks (stream ++ x) = some f ∧
      messagesOf checks (stream ++ x) = messagesOf checks stream := by
  have hsame := Decoder.resume_drain (demuxDecoder_stable checks) () stream x
  unfold refusalOf messagesOf at *
  rw [Decoder.resume, h] at hsame
  exact ⟨hsame.failed.symm.trans h, hsame.items.symm⟩

theorem messagesOf_append (h : refusalOf checks stream = none) (x : Bytes) :
    messagesOf checks (stream ++ x) =
      messagesOf checks stream ++ messagesOf checks (behind checks stream ++ x) ∧
    refusalOf checks (stream ++ x) = refusalOf checks (behind checks stream ++ x) ∧
    (refusalOf checks (stream ++ x) = none →
      behind checks (stream ++ x) = behind checks (behind checks stream ++ x)) := by
  have hsame := Decoder.resume_drain (demuxDecoder_stable checks) () stream x
  unfold refusalOf messagesOf behind at *
  rw [Decoder.resume, h] at hsame
  exact ⟨hsame.items.symm, hsame.failed.symm, fun hf => (hsame.rest hf).symm⟩

theorem drain_nil : (demuxDecoder checks).drain () [] = ⟨[], (), [], none⟩ :=
  Decoder.drain_more rfl

theorem readPlain_snoc (chunks : List Bytes) (chunk : Bytes) :
    readPlain checks (chunks ++ [chunk]) = (readPlain checks chunks).pass checks chunk := by
  rw [readPlain, List.foldl_append]
  rfl

theorem readPlain_of_accepted (chunks : List Bytes)
    (h : refusalOf checks chunks.flatten = none) :
    readPlain checks chunks =
      ⟨behind checks chunks.flatten, messagesOf checks chunks.flatten, none⟩ := by
  induction chunks using List.reverseRecOn with
  | nil =>
    rw [List.flatten_nil, behind, messagesOf, drain_nil]
    rfl
  | append_singleton chunks chunk ih =>
    rw [List.flatten_append, List.flatten_singleton] at h ⊢
    have hprev : refusalOf checks chunks.flatten = none := by
      cases hr : refusalOf checks chunks.flatten with
      | none => rfl
      | some f =>
        rw [(refused_append hr chunk).1] at h
        cases h
    obtain ⟨hmsgs, href, hbehind⟩ := messagesOf_append hprev chunk
    rw [readPlain_snoc, ih hprev, pass_eq rfl]
    simp only [← href, h, hmsgs, hbehind h]

theorem readPlain_of_refused (before : List Bytes) (chunk : Bytes) (after : List Bytes)
    {f : Fault} (hbefore : refusalOf checks before.flatten = none)
    (hchunk : refusalOf checks (before.flatten ++ chunk) = some f) :
    (readPlain checks (before ++ chunk :: after)).delivered = messagesOf checks before.flatten ∧
      (readPlain checks (before ++ chunk :: after)).stopped = some f := by
  induction after using List.reverseRecOn with
  | nil =>
    rw [readPlain_snoc, readPlain_of_accepted before hbefore, pass_eq rfl]
    simp only [← (messagesOf_append hbefore chunk).2.1, hchunk, and_self]
  | append_singleton after last ih =>
    rw [← List.cons_append, ← List.append_assoc, readPlain_snoc, pass_stopped ih.2]
    exact ih

theorem exists_refusing_chunk (chunks : List Bytes) {f : Fault}
    (h : refusalOf checks chunks.flatten = some f) :
    ∃ before chunk after, chunks = before ++ chunk :: after ∧
      refusalOf checks before.flatten = none ∧
      refusalOf checks (before.flatten ++ chunk) = some f := by
  induction chunks using List.reverseRecOn with
  | nil =>
    rw [List.flatten_nil, refusalOf, drain_nil] at h
    cases h
  | append_singleton chunks chunk ih =>
    rw [List.flatten_append, List.flatten_singleton] at h
    cases hr : refusalOf checks chunks.flatten with
    | none => exact ⟨chunks, chunk, [], rfl, hr, h⟩
    | some f' =>
      obtain rfl : f' = f := Option.some.inj ((refused_append hr chunk).1.symm.trans h)
      obtain ⟨before, c, after, rfl, hbefore, hc⟩ := ih hr
      exact ⟨before, c, after ++ [chunk], by rw [List.append_assoc, List.cons_append], hbefore, hc⟩

end

/-- The piece that brings the refusal on completes no message. -/
def RefusedAlone (chunks : List Bytes) : Prop :=
  ∀ before chunk after, chunks = before ++ chunk :: after →
    refusalOf checks before.flatten = none → refusalOf checks (before.flatten ++ chunk) ≠ none →
    messagesOf checks (before.flatten ++ chunk) = messagesOf checks before.flatten

section
variable {checks}

theorem readPlain_iff (chunks : List Bytes) :
    ((readPlain checks chunks).delivered = messagesOf checks chunks.flatten ∧
      (readPlain checks chunks).stopped = refusalOf checks chunks.flatten) ↔
    RefusedAlone checks chunks := by
  constructor
  · rintro ⟨hdelivered, -⟩ before chunk after rfl hbefore hchunk
    obtain ⟨f, hf⟩ := Option.ne_none_iff_exists'.mp hchunk
    have hread := (readPlain_of_refused before chunk after hbefore hf).1
    rw [List.flatten_append, List.flatten_cons, ← List.append_assoc,
      (refused_append hf after.flatten).2] at hdelivered
    exact hdelivered.symm.trans hread
  · intro halone
    cases hr : refusalOf checks chunks.flatten with
    | none =>
      rw [readPlain_of_accepted chunks hr]
      exact ⟨rfl, rfl⟩
    | some f =>
      obtain ⟨before, chunk, after, rfl, hbefore, hchunk⟩ := exists_refusing_chunk chunks hr
      obtain ⟨hdelivered, hstopped⟩ := readPlain_of_refused before chunk after hbefore hchunk
      have hsame := halone before chunk after rfl hbefore (by rw [hchunk]; simp)
      rw [List.flatten_append, List.flatten_cons, ← List.append_assoc,
        (refused_append hchunk after.flatten).2, hsame]
      exact ⟨hdelivered, hstopped⟩

theorem readPlain_first {stream rest : Bytes} {m : Demuxed} {u : Unit}
    (h : demuxNext checks stream = .item m u rest) :
    ∃ front, stream = front ++ rest ∧ m ∈ (readPlain checks [front, rest]).delivered := by
  obtain ⟨front, rfl, -, -, hx⟩ := demuxNext_eq_item h
  refine ⟨front, rfl, ?_⟩
  have hfront : (demuxDecoder checks).drain () front = ⟨[m], (), [], none⟩ := by
    have hnext : (demuxDecoder checks).next () front = .item m () [] := by
      have := hx []
      rwa [List.append_nil] at this
    rw [Decoder.drain_item hnext, drain_nil]
  have hone : readPlain checks [front] = ⟨[], [m], none⟩ := by
    have hflat : [front].flatten = front := List.flatten_singleton
    rw [readPlain_of_accepted [front] (by rw [hflat, refusalOf, hfront]), hflat, behind, messagesOf,
      hfront]
  have htwo : readPlain checks [front, rest] = (readPlain checks [front]).pass checks rest :=
    readPlain_snoc [front] rest
  rw [htwo, hone, pass_eq rfl]
  cases refusalOf checks ([] ++ rest) <;> simp

theorem readPlain_cuts_agree_iff (stream : Bytes) :
    (∀ chunks chunks', chunks.flatten = stream → chunks'.flatten = stream →
      (readPlain checks chunks).delivered = (readPlain checks chunks').delivered ∧
      (readPlain checks chunks).stopped = (readPlain checks chunks').stopped) ↔
    (refusalOf checks stream = none ∨ messagesOf checks stream = []) := by
  constructor
  · intro hagree
    cases hnext : demuxNext checks stream with
    | item m u rest =>
      cases hr : refusalOf checks stream with
      | none => exact .inl rfl
      | some f =>
        obtain ⟨front, rfl, hm⟩ := readPlain_first hnext
        have hnil : refusalOf checks ([] : List Bytes).flatten = none := by
          rw [List.flatten_nil, refusalOf, drain_nil]
        have hwhole := (readPlain_of_refused [] (front ++ rest) [] hnil hr).1
        have hcuts := (hagree [front, rest] [front ++ rest] (by simp) (by simp)).1
        rw [List.nil_append, List.flatten_nil, messagesOf, drain_nil] at hwhole
        rw [hcuts, hwhole] at hm
        cases hm
    | more =>
      left
      rw [refusalOf, Decoder.drain_more (d := demuxDecoder checks) hnext]
    | fail f =>
      right
      rw [messagesOf, Decoder.drain_fail (d := demuxDecoder checks) hnext]
  · rintro hcond chunks chunks' rfl hflat
    have key : ∀ cs : List Bytes, cs.flatten = chunks.flatten →
        (readPlain checks cs).delivered = messagesOf checks chunks.flatten ∧
        (readPlain checks cs).stopped = refusalOf checks chunks.flatten := by
      intro cs hcs
      rw [← hcs] at hcond ⊢
      apply (readPlain_iff cs).mpr
      rintro before chunk after rfl hbefore hchunk
      obtain ⟨f, hf⟩ := Option.ne_none_iff_exists'.mp hchunk
      obtain ⟨href, hmsgs⟩ := refused_append hf after.flatten
      rw [List.flatten_append, List.flatten_cons, ← List.append_assoc, href, hmsgs] at hcond
      have hnil : messagesOf checks (before.flatten ++ chunk) = [] := by simpa using hcond
      have happ := (messagesOf_append hbefore chunk).1
      rw [hnil] at happ
      rw [hnil, (List.append_eq_nil_iff.mp happ.symm).1]
    obtain ⟨h₁, h₂⟩ := key chunks rfl
    obtain ⟨h₁', h₂'⟩ := key chunks' hflat
    exact ⟨h₁.trans h₁'.symm, h₂.trans h₂'.symm⟩

/-- What is delivered, and how the reader stops, is that of the stream exactly
when no message is completed by the piece that brings a refusal on; and it is
independent of the cut exactly when no refused bytes follow a message. -/
theorem delivered_iff_refusedAlone (checks : Bool) :
    (∀ chunks, ((readPlain checks chunks).delivered = messagesOf checks chunks.flatten ∧
        (readPlain checks chunks).stopped = refusalOf checks chunks.flatten) ↔
      RefusedAlone checks chunks) ∧
    ∀ stream, (∀ chunks chunks', chunks.flatten = stream → chunks'.flatten = stream →
        (readPlain checks chunks).delivered = (readPlain checks chunks').delivered ∧
        (readPlain checks chunks).stopped = (readPlain checks chunks').stopped) ↔
      (refusalOf checks stream = none ∨ messagesOf checks stream = []) :=
  ⟨readPlain_iff, readPlain_cuts_agree_iff⟩

/-- An empty response and nine bytes that start no message: apart, the response
is delivered; together, it is lost. -/
theorem response_before_refusal_lost :
    (readPlain false [asBytes "HTTP/1.1 204\r\n\r\n", asBytes "#########"]).delivered =
      [.response ⟨204, "", []⟩] ∧
    (readPlain false [asBytes "HTTP/1.1 204\r\n\r\n" ++ asBytes "#########"]).delivered = [] := by
  decide +kernel

end
end HapRust.Transport
