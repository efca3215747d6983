import HapRust.Transport.HttpMessages
import HapRust.Transport.ReaderCuts
import HapRust.Transport.RecordStream

/-! The reader task as a whole, from the bytes of the socket over the frames and the
plaintext to the responses and events that it passes on. -/

namespace HapRust.Transport
open Lib Crypto

structure Reader where
  frames : Drained UInt64 TransportError Bytes UInt8
  plain : PlainReader

section
variable (P : Primitives) (key : Arr 32) (checks : Bool)

def Reader.turn (r : Reader) (chunk : Bytes) : Reader :=
  match r.plain.stopped with
  | some _ => r
  | none =>
    let frames := (frameDecoder P key).resume r.frames chunk
    ⟨frames, match frames.failed with
      | some e => { r.plain with stopped := some (.err e) }
      | none => r.plain.pass checks (frames.items.drop r.frames.items.length).flatten⟩

def readerTask (reads : List Bytes) : Reader :=
  reads.foldl (Reader.turn P key checks) ⟨⟨[], 0, [], none⟩, ⟨[], [], none⟩⟩

def written : Bool × Message → Bytes
  | (isEvent, m) => m.render (if isEvent then eventPrefix else httpPrefix)

def passedOn : Bool × Message → Demuxed
  | (true, m) => .event ⟨m.response.body⟩
  | (false, m) => .response m.response

end

section
variable {P : Primitives} {key : Arr 32} {checks : Bool} {blocks : List Bytes}

theorem demuxNext_written (x : Bool × Message) (hlen : (written x).length < 2 ^ 63) (rest : Bytes) :
    demuxNext checks (written x ++ rest) = .item (passedOn x) () rest := by
  obtain ⟨isEvent, m⟩ := x
  have hread {expected : Bytes} {kind : HapResponse → Demuxed} (hs : StartsWith expected kind)
      (hprotocol : IsProtocol expected) (hlen : (m.render expected).length < 2 ^ 63) :
      demuxNext checks (m.render expected ++ rest) = .item (kind m.response) () rest := by
    have hstart : expected <+: m.render expected ++ rest := by
      simp only [Message.render, Message.head, StartLine.line, List.append_assoc, List.prefix_append]
    rw [demuxNext, nextMessage_eq hs hstart, parseMessage_render hprotocol m hlen]
    exact congrArg _ List.drop_left
  cases isEvent with
  | true => exact hread .event isProtocol_event hlen
  | false => exact hread .http isProtocol_http hlen

theorem readFrames_beginning (ideal : P.chacha20Poly1305.IdealOn key (SentBy blocks))
    (hn : blocks.length < 2 ^ 64) (reads : List Bytes) :
    (readFrames P key reads).items.flatten <+: blocks.flatten := by
  obtain ⟨j, -, hitems, -⟩ := drain_take ideal hn 0 reads.flatten 0 (Nat.zero_le _) rfl
  rw [List.take_zero, List.nil_append,
    ← (Decoder.feed_same_drain (frameDecoder_stable ideal) 0 reads).items] at hitems
  exact hitems ▸ (List.take_prefix j blocks).flatten

theorem readPlain_of_beginning {stream : Bytes} (hok : refusalOf checks stream = none)
    {pieces : List Bytes} (h : pieces.flatten <+: stream) :
    { readPlain checks pieces with stopped := none } = readPlain checks pieces ∧
      (readPlain checks pieces).delivered <+: messagesOf checks stream := by
  obtain ⟨rest, rfl⟩ := h
  cases hpieces : refusalOf checks pieces.flatten with
  | some f =>
    rw [(refused_append hpieces rest).1] at hok
    cases hok
  | none =>
    rw [readPlain_of_accepted pieces hpieces, (messagesOf_append hpieces rest).1]
    exact ⟨rfl, List.prefix_append _ _⟩

theorem readerTask_eq {stream : Bytes} (hok : refusalOf checks stream = none)
    (hbegin : ∀ reads, (readFrames P key reads).items.flatten <+: stream) (reads : List Bytes) :
    ∃ pieces, pieces.flatten <+: (readFrames P key reads).items.flatten ∧
      ((readFrames P key reads).failed = none →
        pieces.flatten = (readFrames P key reads).items.flatten) ∧
      readerTask P key checks reads = ⟨readFrames P key reads,
        { readPlain checks pieces with stopped := (readFrames P key reads).failed.map .err }⟩ := by
  induction reads using List.reverseRecOn with
  | nil => exact ⟨[], List.nil_prefix, fun _ => rfl, rfl⟩
  | append_singleton reads chunk ih =>
    obtain ⟨pieces, hpieces, hwhole, htask⟩ := ih
    have hplain := (readPlain_of_beginning hok (hpieces.trans (hbegin reads))).1
    have hnext := hbegin (reads ++ [chunk])
    have hfeed : readFrames P key (reads ++ [chunk]) =
        (frameDecoder P key).resume (readFrames P key reads) chunk := by
      rw [readFrames, Decoder.feed, List.foldl_append]
      rfl
    have hturn : readerTask P key checks (reads ++ [chunk]) =
        (readerTask P key checks reads).turn P key checks chunk := by
      rw [readerTask, List.foldl_append]
      rfl
    rw [hfeed] at hnext ⊢
    rw [hturn, htask]
    generalize readFrames P key reads = d at *
    cases hf : d.failed with
    | some e =>
      have hresume : (frameDecoder P key).resume d chunk = d := by rw [Decoder.resume, hf]
      rw [hresume, hf]
      exact ⟨pieces, hpieces, fun h => (by cases h), rfl⟩
    | none =>
      obtain ⟨more, hmore⟩ : ∃ more, ((frameDecoder P key).resume d chunk).items = d.items ++ more := by
        rw [Decoder.resume, hf]
        exact ⟨_, rfl⟩
      have hflat : (pieces ++ [more.flatten]).flatten =
          ((frameDecoder P key).resume d chunk).items.flatten := by
        rw [hmore, List.flatten_append, List.flatten_append, List.flatten_singleton, hwhole hf]
      simp only [Reader.turn, Option.map_none, hplain]
      cases hfailed : ((frameDecoder P key).resume d chunk).failed with
      | some e => exact ⟨pieces, hflat ▸ ⟨_, List.flatten_append.symm⟩, fun h => (by cases h), rfl⟩
      | none =>
        refine ⟨pieces ++ [more.flatten], hflat ▸ List.prefix_refl _, fun _ => hflat, ?_⟩
        rw [hmore, List.drop_left, Option.map_none, (readPlain_of_beginning hok (hflat ▸ hnext)).1,
          readPlain_snoc]

/-- Of responses and events that are sent in sealed blocks, the reader task passes on all, in
order, when the frames arrive, however the socket cuts them; and whatever arrives instead, it
passes on a first part of them. -/
theorem readerTask_delivers (P : Primitives) (key : Arr 32) (checks : Bool)
    (sent : List (Bool × Message)) (hlen : ∀ x ∈ sent, (written x).length < 2 ^ 63)
    (blocks : List Bytes) (hflat : blocks.flatten = sent.flatMap written)
    (hmax : ∀ b ∈ blocks, b.length ≤ maxBlock) (hn : blocks.length < 2 ^ 64)
    (ideal : P.chacha20Poly1305.IdealOn key (SentBy blocks)) :
    (∃ wire last, encryptBlocks P key 0 blocks = .ok (wire, last) ∧
      ∀ reads, reads.flatten = wire →
        (readerTask P key checks reads).plain = ⟨[], sent.map passedOn, none⟩) ∧
    ∀ reads, (readerTask P key checks reads).plain.delivered <+: sent.map passedOn := by
  have hsent : (demuxDecoder checks).drain () blocks.flatten = ⟨sent.map passedOn, (), [], none⟩ := by
    rw [hflat]
    exact Decoder.drain_flatMap rfl sent fun x hx => demuxNext_written x (hlen x hx)
  have hok : refusalOf checks blocks.flatten = none := by rw [refusalOf, hsent]
  have htask := readerTask_eq hok (readFrames_beginning ideal hn)
  constructor
  · obtain ⟨wire, hwire, hread⟩ := readFrames_encryptBlocks hmax ideal
    refine ⟨wire, _, hwire, fun reads hreads => ?_⟩
    obtain ⟨pieces, -, hwhole, heq⟩ := htask reads
    rw [hread reads hreads] at hwhole heq
    rw [heq, readPlain_of_accepted pieces (hwhole rfl ▸ hok), hwhole rfl, behind, messagesOf, hsent]
    rfl
  · intro reads
    obtain ⟨pieces, hpieces, -, heq⟩ := htask reads
    have hmsgs := (readPlain_of_beginning hok (hpieces.trans (readFrames_beginning ideal hn reads))).2
    rw [messagesOf, hsent] at hmsgs
    rw [heq]
    exact hmsgs

end

def noContent : Message where
  start := ⟨204, ['2', '0', '4'], ⟨by simp, rfl⟩, none, by simp⟩
  fields := []
  noBreak := by simp
  body := .plain []
  encoding := by simp
  isChunked := by simp [Body.isChunked]
  announced := by simp
  unannounced := fun _ _ => rfl

def noContentBlocks : List Bytes :=
  [asBytes "HTTP/1.1 204\r\n\r\nEVE", asBytes "NT/1.0 204\r\n\r\n"]

theorem readerTask_delivers_noContent :
    (∃ wire last, encryptBlocks (recordPrimitives noContentBlocks) (constArr 32 0) 0 noContentBlocks =
        .ok (wire, last) ∧
      ∀ reads, reads.flatten = wire →
        (readerTask (recordPrimitives noContentBlocks) (constArr 32 0) true reads).plain =
          ⟨[], [.response ⟨204, "", []⟩, .event ⟨[]⟩], none⟩) ∧
    ∀ reads, (readerTask (recordPrimitives noContentBlocks) (constArr 32 0) true reads).plain.delivered
      <+: [.response ⟨204, "", []⟩, .event ⟨[]⟩] :=
  readerTask_delivers _ _ _ [(false, noContent), (true, noContent)] (by decide +kernel)
    noContentBlocks (by decide +kernel) (by decide +kernel) (by decide) (loggedAead_idealOn _ _)

end HapRust.Transport
