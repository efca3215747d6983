import HapRust.Transport.HttpMessages

/-! The parser with every index and every addition of the source as an operation
that can fail. In a buffer that a slice can hold, only the end of a chunk can be out
of reach: all other indices are found in the buffer before they are used. -/

namespace HapRust.Transport
open Lib

def sliceFrom (rest : Bytes) (start : Nat) : Except Fault Bytes := slice rest start rest.length

namespace Checked

inductive Turn where
  | done (result : Option (Bytes × Nat))
  | again (rest body : Bytes) (consumed : Nat)

section
variable (checks : Bool)

def turn (rest body : Bytes) (consumed : Nat) : Except Fault Turn :=
  match findSubslice crlf rest with
  | none => .ok (.done none)
  | some nl => do
    let line ← slice rest 0 nl
    let size ← chunkSize line
    let afterSize ← usizeAdd checks nl 2
    if size = 0 then
      let stop ← usizeAdd checks afterSize 2
      if rest.length < stop then return .done none
      else
        let consumed ← usizeAdd checks consumed stop
        return .done (some (body, consumed))
    else
      let sizeEnd ← usizeAdd checks afterSize size
      let chunkEnd ← usizeAdd checks sizeEnd 2
      if rest.length < chunkEnd then return .done none
      else
        let dataEnd ← usizeAdd checks afterSize size
        let data ← slice rest afterSize dataEnd
        let consumed ← usizeAdd checks consumed chunkEnd
        let rest ← sliceFrom rest chunkEnd
        return .again rest (body ++ data) consumed

end

theorem slice_eq_ok {rest data : Bytes} {start stop : Nat} (h : slice rest start stop = .ok data) :
    (start ≤ stop ∧ stop ≤ rest.length ∧ stop < 2 ^ 63) ∧ data = (rest.take stop).drop start := by
  unfold slice at h
  split_ifs at h with hin
  exact ⟨hin, (Except.ok.inj h).symm⟩

theorem length_lt_of_again {checks : Bool} {rest body rest' body' : Bytes} {consumed consumed' : Nat}
    (h : turn checks rest body consumed = .ok (.again rest' body' consumed')) :
    rest'.length < rest.length := by
  unfold turn at h
  split at h
  · cases h
  obtain ⟨line, -, h⟩ := bind_eq_ok.mp h
  obtain ⟨size, -, h⟩ := bind_eq_ok.mp h
  obtain ⟨afterSize, -, h⟩ := bind_eq_ok.mp h
  split_ifs at h with hzero
  · obtain ⟨stop, -, h⟩ := bind_eq_ok.mp h
    split_ifs at h
    · cases h
    · obtain ⟨total, -, h⟩ := bind_eq_ok.mp h
      cases h
  · obtain ⟨sizeEnd, hsizeEnd, h⟩ := bind_eq_ok.mp h
    obtain ⟨chunkEnd, hchunkEnd, h⟩ := bind_eq_ok.mp h
    split_ifs at h with hshort
    · cases h
    obtain ⟨dataEnd, hdataEnd, h⟩ := bind_eq_ok.mp h
    obtain ⟨data, hdata, h⟩ := bind_eq_ok.mp h
    obtain ⟨total, -, h⟩ := bind_eq_ok.mp h
    obtain ⟨next, hnext, h⟩ := bind_eq_ok.mp h
    obtain ⟨rfl, -, -⟩ := Turn.again.inj (Except.ok.inj h)
    obtain rfl := Except.ok.inj (hsizeEnd.symm.trans hdataEnd)
    have hin := (slice_eq_ok hdata).1
    rw [usizeAdd_of_lt (by omega)] at hchunkEnd
    obtain rfl := Except.ok.inj hchunkEnd
    obtain ⟨hrange, rfl⟩ := slice_eq_ok hnext
    rw [List.length_drop, List.length_take]
    omega

section
variable (checks : Bool)

def decodeChunkedLoop (rest body : Bytes) (consumed : Nat) : Except Fault (Option (Bytes × Nat)) :=
  match _h : turn checks rest body consumed with
  | .error f => .error f
  | .ok (.done result) => .ok result
  | .ok (.again rest' body' consumed') => decodeChunkedLoop rest' body' consumed'
termination_by rest.length
decreasing_by exact length_lt_of_again _h

def decodeChunked (rest : Bytes) : Except Fault (Option (Bytes × Nat)) :=
  decodeChunkedLoop checks rest [] 0

def parseHeader (h : Headers) (line : Bytes) : Except Fault Headers := do
  let colon ← okOr (line.findIdx? (· == 58)) (malformed "header without colon")
  let nameBytes ← slice line 0 colon
  let name := toAsciiLowercase (trim (fromUtf8Lossy nameBytes))
  let valueStart ← usizeAdd checks colon 1
  let valueBytes ← sliceFrom line valueStart
  let value := trim (fromUtf8Lossy valueBytes)
  if name = "content-type" then return { h with contentType := value }
  else if name = "content-length" then
    let len ← okOr (fromStrRadix 64 10 value) (malformed "bad Content-Length")
    return { h with contentLength := some len }
  else if name = "transfer-encoding" then
    if eqIgnoreAsciiCase value "chunked" then return { h with chunked := true }
    else throw (.err (.unsupportedEncoding value))
  else return h

def parseHead (headerBlock expected : Bytes) : Except Fault (UInt16 × Headers) :=
  match splitCrlf headerBlock with
  | [] => .error (malformed "empty start line")
  | startLine :: lines => do
    ensure (expected <+: startLine)
      (malformed ("unexpected start line: " ++ fromUtf8Lossy startLine))
    let status ← parseStatusCode startLine
    let headers ← lines.foldlM (parseHeader checks) ⟨"", none, false⟩
    return (status, headers)

def parseBody (h : Headers) (rest : Bytes) : Except Fault (Option (Bytes × Nat)) :=
  if h.chunked then decodeChunked checks rest
  else
    let len := h.contentLength.getD 0
    if rest.length < len then .ok none
    else do
      let body ← slice rest 0 len
      return some (body, len)

def parseMessage (buf expected : Bytes) : Except Fault ParseOutcome :=
  match findSubslice (crlf ++ crlf) buf with
  | none => .ok .incomplete
  | some headersEnd => do
    let headerBlock ← slice buf 0 headersEnd
    let bodyStart ← usizeAdd checks headersEnd 4
    let head ← parseHead checks headerBlock expected
    let rest ← sliceFrom buf bodyStart
    match ← parseBody checks head.2 rest with
    | none => return .incomplete
    | some (body, bodyLen) =>
      let consumed ← usizeAdd checks bodyStart bodyLen
      return .complete ⟨head.1, head.2.contentType, body⟩ consumed

end

/-! ## In a slice -/

section
variable {checks : Bool}

theorem slice_of_le {rest : Bytes} (hlen : rest.length < 2 ^ 63) {start stop : Nat}
    (hstart : start ≤ stop) (hstop : stop ≤ rest.length) :
    slice rest start stop = .ok ((rest.take stop).drop start) :=
  if_pos ⟨hstart, hstop, by omega⟩

theorem sliceFrom_of_le {rest : Bytes} (hlen : rest.length < 2 ^ 63) {start : Nat}
    (hstart : start ≤ rest.length) : sliceFrom rest start = .ok (rest.drop start) := by
  rw [sliceFrom, slice_of_le hlen hstart le_rfl, List.take_length]

theorem findSubslice_le {needle hay : Bytes} (hn : needle ≠ []) {i : Nat}
    (h : findSubslice needle hay = some i) : i + needle.length ≤ hay.length := by
  obtain ⟨before, after, rfl, rfl, -⟩ := findSubslice_eq_some hn h
  rw [List.length_append, List.length_append]
  omega

def Turn.ofChunk (rest body : Bytes) (consumed : Nat) : Option (Chunk × Nat) → Turn
  | none => .done none
  | some (.last, stop) => .done (some (body, consumed + stop))
  | some (.data data, chunkEnd) => .again (rest.drop chunkEnd) (body ++ data) (consumed + chunkEnd)

theorem turn_eq {rest : Bytes} (body : Bytes) {consumed : Nat}
    (hlen : consumed + rest.length < 2 ^ 63) :
    turn checks rest body consumed = (do
      let chunk ← nextChunk checks rest
      return Turn.ofChunk rest body consumed chunk) := by
  unfold turn nextChunk
  cases hf : findSubslice crlf rest with
  | none => rfl
  | some nl =>
    have hnl : nl + 2 ≤ rest.length := findSubslice_le (by decide) hf
    simp only [slice_of_le (by omega) (Nat.zero_le _) (by omega : nl ≤ rest.length), List.drop_zero,
      ok_bind]
    rcases chunkSize (rest.take nl) with f | size
    · rfl
    simp only [ok_bind, usizeAdd_of_lt (by omega : nl + 2 < 2 ^ 64)]
    by_cases hzero : size = 0
    · rw [if_pos hzero, if_pos hzero, usizeAdd_of_lt (by omega), ok_bind]
      by_cases hshort : rest.length < nl + 2 + 2
      · rw [if_pos hshort, if_pos hshort]
        rfl
      · rw [if_neg hshort, if_neg hshort, usizeAdd_of_lt (by omega)]
        rfl
    · rw [if_neg hzero, if_neg hzero, dataChunk]
      rcases hdata : usizeAdd checks (nl + 2) size with f | dataEnd
      · rfl
      simp only [ok_bind]
      rcases usizeAdd checks dataEnd 2 with f | chunkEnd
      · rfl
      simp only [ok_bind]
      by_cases hshort : rest.length < chunkEnd
      · rw [if_pos hshort, if_pos hshort]
        rfl
      · rw [if_neg hshort, if_neg hshort]
        rcases slice rest (nl + 2) dataEnd with f | data
        · rfl
        rw [ok_bind, usizeAdd_of_lt (by omega), ok_bind, sliceFrom_of_le (by omega) (by omega)]
        rfl

theorem decodeChunkedLoop_turn (rest body : Bytes) (consumed : Nat) :
    decodeChunkedLoop checks rest body consumed = (do
      match ← turn checks rest body consumed with
      | .done result => return result
      | .again rest' body' consumed' => decodeChunkedLoop checks rest' body' consumed') := by
  rw [decodeChunkedLoop]
  split <;> next h => rw [h]; rfl

theorem decodeChunkedLoop_eq {fuel : Nat} {rest : Bytes} (body : Bytes) {consumed : Nat}
    (hlen : consumed + rest.length < 2 ^ 63) (hfuel : rest.length < fuel) :
    decodeChunkedLoop checks rest body consumed =
      Transport.decodeChunkedLoop checks fuel rest body consumed := by
  induction fuel generalizing rest body consumed with
  | zero => omega
  | succ fuel ih =>
    rw [decodeChunkedLoop_turn, turn_eq body hlen, Transport.decodeChunkedLoop]
    rcases hc : nextChunk checks rest with f | c
    · rfl
    simp only [ok_bind]
    rcases c with - | ⟨c, n⟩
    · rfl
    obtain ⟨front, back, rfl, rfl, hpos, -⟩ := nextChunk_complete hc
    rw [List.length_append] at hlen hfuel
    cases c with
    | last => rfl
    | data data =>
      have hdrop : (front ++ back).drop front.length = back := List.drop_left
      simp only [Turn.ofChunk, pure_eq_ok, ok_bind, hdrop]
      exact ih (body ++ data) (by omega) (by omega)

theorem parseHeader_eq (h : Headers) {line : Bytes} (hlen : line.length < 2 ^ 63) :
    parseHeader checks h line = Transport.parseHeader h line := by
  unfold parseHeader Transport.parseHeader
  cases hcolon : line.findIdx? (· == 58) with
  | none => rw [okOr, error_bind, error_bind]
  | some colon =>
    have hlt : colon < line.length := (List.findIdx?_eq_some_iff_getElem.mp hcolon).1
    rw [okOr_some, ok_bind, ok_bind, slice_of_le hlen (Nat.zero_le _) hlt.le, ok_bind,
      List.drop_zero, usizeAdd_of_lt (by omega), ok_bind, sliceFrom_of_le hlen hlt, ok_bind]

theorem length_le_intercalate {sep l : Bytes} {ls : List Bytes} (h : l ∈ ls) :
    l.length ≤ (sep.intercalate ls).length := by
  induction ls with
  | nil => cases h
  | cons l' ls ih =>
    cases ls with
    | nil =>
      rw [List.mem_singleton.mp h]
      simp
    | cons l'' ls =>
      rw [List.intercalate_cons_cons, List.length_append, List.length_append]
      rcases List.mem_cons.mp h with rfl | h
      · omega
      · have := ih h
        omega

theorem length_le_of_mem_splitCrlf {block line : Bytes} (h : line ∈ splitCrlf block) :
    line.length ≤ block.length := by
  obtain ⟨l, hl, rfl⟩ := List.mem_map.mp h
  have hle : l.length ≤ ([10].intercalate (block.splitOn 10)).length := length_le_intercalate hl
  rw [List.intercalate_splitOn] at hle
  refine le_trans ?_ hle
  split_ifs
  · exact (List.dropLast_prefix l).length_le
  · exact le_rfl

theorem foldlM_parseHeader_eq {lines : List Bytes} (hlen : ∀ l ∈ lines, l.length < 2 ^ 63)
    (h : Headers) :
    lines.foldlM (parseHeader checks) h = lines.foldlM Transport.parseHeader h := by
  induction lines generalizing h with
  | nil => rw [List.foldlM_nil, List.foldlM_nil]
  | cons l lines ih =>
    have hih := ih fun l' hl' => hlen l' (List.mem_cons_of_mem _ hl')
    rw [List.foldlM_cons, List.foldlM_cons, parseHeader_eq h (hlen l (List.mem_cons_self ..))]
    simp only [hih]

theorem parseHead_eq {block : Bytes} (expected : Bytes) (hlen : block.length < 2 ^ 63) :
    parseHead checks block expected = Transport.parseHead block expected := by
  unfold parseHead Transport.parseHead
  cases hsplit : splitCrlf block with
  | nil => rfl
  | cons startLine lines =>
    have hlines : ∀ l ∈ lines, l.length < 2 ^ 63 := fun l hl =>
      (length_le_of_mem_splitCrlf (hsplit ▸ List.mem_cons_of_mem _ hl)).trans_lt hlen
    simp only [foldlM_parseHeader_eq hlines]

theorem parseBody_eq (h : Headers) {rest : Bytes} (hlen : rest.length < 2 ^ 63) :
    parseBody checks h rest = Transport.parseBody checks h rest := by
  unfold parseBody Transport.parseBody
  split_ifs with hchunked
  · exact decodeChunkedLoop_eq [] (by omega) (Nat.lt_succ_self _)
  · dsimp only
    by_cases hshort : rest.length < h.contentLength.getD 0
    · rw [if_pos hshort, if_pos hshort]
    · rw [if_neg hshort, if_neg hshort, slice_of_le hlen (Nat.zero_le _) (by omega), List.drop_zero]
      rfl

theorem parseMessage_eq {buf : Bytes} (expected : Bytes) (hlen : buf.length < 2 ^ 63) :
    parseMessage checks buf expected = Transport.parseMessage checks buf expected := by
  unfold parseMessage
  cases hf : findSubslice (crlf ++ crlf) buf with
  | none =>
    rw [Transport.parseMessage, hf]
  | some headersEnd =>
    obtain ⟨head, rest, rfl, rfl, hfind⟩ := findSubslice_eq_some (by decide) hf
    have hfront : (head ++ (crlf ++ crlf)).length = head.length + 4 := List.length_append
    have hhead : (head ++ (crlf ++ crlf) ++ rest).take head.length = head := by
      rw [List.append_assoc, List.take_left]
    have hall := hlen
    rw [List.length_append, hfront] at hall
    have hblock : slice (head ++ (crlf ++ crlf) ++ rest) 0 head.length = .ok head := by
      rw [slice_of_le hlen (Nat.zero_le _) (by rw [List.length_append, hfront]; omega), hhead,
        List.drop_zero]
    have hrest : sliceFrom (head ++ (crlf ++ crlf) ++ rest) (head.length + 4) = .ok rest := by
      rw [sliceFrom_of_le hlen (by rw [List.length_append, hfront]; omega), ← hfront, List.drop_left]
    rw [parseMessage_head expected hfind, hfront]
    simp only [hblock, ok_bind, usizeAdd_of_lt (by omega : head.length + 4 < 2 ^ 64),
      parseHead_eq expected (by omega : head.length < 2 ^ 63), hrest,
      parseBody_eq _ (by omega : rest.length < 2 ^ 63)]
    rcases Transport.parseHead head expected with f | ⟨status, hs⟩
    · rfl
    rw [ok_bind, ok_bind]
    rcases hbody : Transport.parseBody checks hs rest with f | b
    · rfl
    rcases b with - | ⟨body, bodyLen⟩
    · rfl
    obtain ⟨front, back, rfl, rfl, -⟩ := (parseBody_local hs).complete hbody
    rw [List.length_append] at hall
    simp only [ok_bind, usizeAdd_of_lt (by omega : head.length + 4 + front.length < 2 ^ 64)]
    rfl

end
end Checked
end HapRust.Transport
