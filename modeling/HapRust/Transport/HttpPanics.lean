import HapRust.Transport.HttpChecked

/-! Which buffers make the parser panic. The size of a chunk is a number of the
peer's choice: a size close to the largest there is overflows when the line before
the data and the end of the line behind it are added. -/

namespace HapRust.Transport
open Lib

/-! ## Sizes that are too large -/

structure SizeLine (rest line after : Bytes) (size : Nat) : Prop where
  eq : rest = line ++ crlf ++ after
  first : findSubslice crlf rest = some line.length
  declares : ∃ s, fromUtf8 line = some s ∧ fromStrRadix 64 16 (trim s) = some size

inductive Reaches : Bytes → Bytes → Prop
  | here (rest : Bytes) : Reaches rest rest
  | chunk {rest line data ending next stop : Bytes} :
    SizeLine rest line (data ++ ending ++ next) data.length → data ≠ [] → ending.length = 2 →
    Reaches next stop → Reaches rest stop

def Overflows (rest : Bytes) : Prop :=
  ∃ stop line after size, Reaches rest stop ∧ SizeLine stop line after size ∧
    2 ^ 64 ≤ line.length + 2 + size + 2

section
variable {checks : Bool} {rest line after : Bytes} {size : Nat}

theorem chunkSize_eq_ok :
    chunkSize line = .ok size ↔
      ∃ s, fromUtf8 line = some s ∧ fromStrRadix 64 16 (trim s) = some size := by
  constructor
  · intro h
    obtain ⟨s, hs, hsize⟩ := bind_eq_ok.mp h
    exact ⟨s, okOr_eq_ok.mp hs, okOr_eq_ok.mp hsize⟩
  · rintro ⟨s, hs, hsize⟩
    rw [chunkSize, hs, okOr_some, ok_bind, hsize, okOr_some]

theorem findSubslice_extend {needle before after : Bytes} (hn : needle ≠ [])
    (h : findSubslice needle (before ++ needle ++ after) = some before.length) (x : Bytes) :
    findSubslice needle (before ++ needle ++ x) = some before.length := by
  obtain ⟨before', after', heq, hlen, hx⟩ := findSubslice_eq_some hn h
  rw [List.append_assoc, List.append_assoc] at heq
  obtain rfl := (List.append_inj heq hlen.symm).1
  exact hx x

theorem SizeLine.find (h : SizeLine rest line after size) (x : Bytes) :
    findSubslice crlf (line ++ crlf ++ x) = some line.length :=
  findSubslice_extend (by decide) (h.eq ▸ h.first) x

theorem SizeLine.chunkSize (h : SizeLine rest line after size) : chunkSize line = .ok size :=
  chunkSize_eq_ok.mpr h.declares

theorem chunkSize_ne_panic (line : Bytes) : chunkSize line ≠ .error .panic := by
  intro h
  rcases bind_eq_error.mp h with h | ⟨s, -, h⟩
  · cases (okOr_eq_error.mp h).2
  · cases (okOr_eq_error.mp h).2

theorem chunk_of_nextChunk {data : Bytes} {n : Nat}
    (h : nextChunk checks rest = .ok (some (.data data, n))) :
    ∃ line ending, SizeLine rest line (data ++ ending ++ rest.drop n) data.length ∧ data ≠ [] ∧
      ending.length = 2 := by
  obtain ⟨line, after, rfl, hfind⟩ := exists_line_of_nextChunk (by rw [h]; simp)
  rw [nextChunk_line hfind] at h
  obtain ⟨size, hsize, hturn⟩ := bind_eq_ok.mp h
  split_ifs at hturn with hzero hshort
  · cases hturn
  · cases hturn
  rw [dataChunk_eq (chunkSize_lt hsize)] at hturn
  obtain ⟨dataEnd, hdata, hrest⟩ := bind_eq_ok.mp hturn
  obtain ⟨chunkEnd, hchunk, hres⟩ := bind_eq_ok.mp hrest
  split_ifs at hres with hshort hin
  · cases hres
  rw [usizeAdd_of_lt (by omega)] at hdata
  obtain rfl := Except.ok.inj hdata
  rw [usizeAdd_of_lt (by omega)] at hchunk
  obtain rfl := Except.ok.inj hchunk
  obtain ⟨hc, rfl⟩ := Prod.mk.inj (Option.some.inj (Except.ok.inj hres))
  obtain rfl := Chunk.data.inj hc
  have hlen : (after.take size).length = size := List.length_take_of_le (by omega)
  have hdrop : (line ++ crlf ++ after).drop ((line ++ crlf).length + size + 2) =
      (after.drop size).drop 2 := by
    rw [Nat.add_assoc, ← List.drop_drop, List.drop_left, List.drop_drop]
  refine ⟨line, (after.drop size).take 2, ⟨?_, hfind after, ?_⟩, ?_, ?_⟩
  · rw [hdrop, List.append_assoc (after.take size), List.take_append_drop, List.take_append_drop]
  · rw [hlen]
    exact chunkSize_eq_ok.mp hsize
  · intro hnil
    rw [hnil] at hlen
    exact hzero hlen.symm
  · rw [List.length_take, List.length_drop]
    omega

theorem panic_of_size (h : SizeLine rest line after size) (hrest : rest.length < 2 ^ 63)
    (hsize : 2 ^ 64 ≤ line.length + 2 + size + 2) : nextChunk true rest = .error .panic := by
  have hfront : (line ++ crlf).length = line.length + 2 := List.length_append
  have hlen : rest.length = line.length + 2 + after.length := by
    rw [h.eq, List.length_append, hfront]
  rw [h.eq, nextChunk_line h.find, h.chunkSize, ok_bind, if_neg (by omega),
    dataChunk_eq (chunkSize_lt h.chunkSize), hfront]
  by_cases hdata : line.length + 2 + size < 2 ^ 64
  · rw [usizeAdd_of_lt hdata, ok_bind, usizeAdd, if_neg (by omega), if_pos rfl]
    rfl
  · rw [usizeAdd, if_neg hdata, if_pos rfl]
    rfl

theorem size_of_panic (hrest : rest.length < 2 ^ 63) (h : nextChunk checks rest = .error .panic) :
    ∃ line after size, SizeLine rest line after size ∧ 2 ^ 64 ≤ line.length + 2 + size + 2 := by
  cases hf : findSubslice crlf rest with
  | none =>
    rw [nextChunk, hf] at h
    cases h
  | some nl =>
    obtain ⟨line, after, rfl, rfl, hfind⟩ := findSubslice_eq_some (by decide) hf
    have hfront : (line ++ crlf).length = line.length + 2 := List.length_append
    rw [List.length_append, hfront] at hrest
    rw [nextChunk_line hfind] at h
    rcases bind_eq_error.mp h with hsize | ⟨size, hsize, hturn⟩
    · exact absurd hsize (chunkSize_ne_panic line)
    refine ⟨line, after, size, ⟨rfl, hfind after, chunkSize_eq_ok.mp hsize⟩, ?_⟩
    by_contra hsmall
    split_ifs at hturn with hzero hshort
    · cases hturn
    · cases hturn
    rw [dataChunk_eq (chunkSize_lt hsize), hfront, usizeAdd_of_lt (by omega), ok_bind,
      usizeAdd_of_lt (by omega), ok_bind] at hturn
    split_ifs at hturn with hshort hin
    · cases hturn
    · cases hturn
    · omega

end

/-! ## The loop -/

section
variable {checks : Bool} {rest : Bytes}

theorem Overflows.chunk {line data ending next : Bytes}
    (hline : SizeLine rest line (data ++ ending ++ next) data.length) (hdata : data ≠ [])
    (hending : ending.length = 2) (h : Overflows next) : Overflows rest := by
  obtain ⟨stop, line', after, size, hreaches, hsize⟩ := h
  exact ⟨stop, line', after, size, .chunk hline hdata hending hreaches, hsize⟩

theorem overflows_of_panic {fuel : Nat} (hrest : rest.length < 2 ^ 63) {body : Bytes}
    {consumed : Nat} (h : decodeChunkedLoop checks fuel rest body consumed = .error .panic) :
    Overflows rest := by
  induction fuel generalizing rest body consumed with
  | zero => cases h
  | succ fuel ih =>
    rcases bind_eq_error.mp h with hpanic | ⟨c, hc, hres⟩
    · obtain ⟨line, after, size, hline, hsize⟩ := size_of_panic hrest hpanic
      exact ⟨rest, line, after, size, .here rest, hline, hsize⟩
    · rcases c with - | ⟨c, n⟩
      · cases hres
      cases c with
      | last => cases hres
      | data data =>
        obtain ⟨line, ending, hline, hdata, hending⟩ := chunk_of_nextChunk hc
        have hnext : (rest.drop n).length ≤ rest.length := by
          rw [List.length_drop]
          omega
        exact .chunk hline hdata hending (ih (by omega) hres)

theorem panic_of_reaches {stop line after : Bytes} {size : Nat} (hreaches : Reaches rest stop)
    (hline : SizeLine stop line after size) (hsize : 2 ^ 64 ≤ line.length + 2 + size + 2)
    (hrest : rest.length < 2 ^ 63) {fuel : Nat} (hfuel : rest.length < fuel) (body : Bytes)
    (consumed : Nat) : decodeChunkedLoop true fuel rest body consumed = .error .panic := by
  induction hreaches generalizing fuel body consumed with
  | here rest =>
    obtain ⟨k, rfl⟩ : ∃ k, fuel = k + 1 := ⟨fuel - 1, by omega⟩
    rw [decodeChunkedLoop, panic_of_size hline hrest hsize]
    rfl
  | @chunk rest line' data ending next stop hchunk hdata hending _ ih =>
    obtain ⟨k, rfl⟩ : ∃ k, fuel = k + 1 := ⟨fuel - 1, by omega⟩
    have heq : rest = line' ++ crlf ++ (data ++ ending) ++ next := by
      rw [hchunk.eq, List.append_assoc (line' ++ crlf)]
    have hlen : rest.length = (line' ++ crlf ++ (data ++ ending)).length + next.length := by
      rw [heq, List.length_append]
    have hpos : 0 < (line' ++ crlf ++ (data ++ ending)).length := by
      rw [List.length_append, List.length_append]
      exact Nat.add_pos_left (Nat.add_pos_right _ (by decide)) _
    rw [decodeChunkedLoop, heq, nextChunk_whole hchunk.find hchunk.chunkSize hdata hending (by omega),
      ok_bind]
    simp only [List.drop_left]
    exact ih hline (by omega) (by omega) (body ++ data) _

end
/-! ## The head -/

structure ChunkedHead (expected head startLine : Bytes) (fields : List Field) : Prop where
  lines : splitCrlf head = startLine :: fields.map Field.line
  begins : expected <+: startLine
  status : ∃ code n, (startLine.splitOn 32)[1]? = some code ∧
    (fromUtf8 code).bind (fromStrRadix 16 10) = some n
  length : ∀ f ∈ fields, f.key = "content-length" → ∃ n, f.length = some n
  encoding : ∀ f ∈ fields, f.key = "transfer-encoding" →
    eqIgnoreAsciiCase f.content "chunked" = true
  chunked : ∃ f ∈ fields, f.key = "transfer-encoding"

theorem field_of_parseHeader {h h' : Headers} {line : Bytes} (hparse : parseHeader h line = .ok h') :
    ∃ f : Field, f.line = line ∧ (f.key = "content-length" → ∃ n, f.length = some n) ∧
      (f.key = "transfer-encoding" → eqIgnoreAsciiCase f.content "chunked" = true) := by
  obtain ⟨colon, hcolon, -⟩ := bind_eq_ok.mp hparse
  obtain ⟨hlt, hbyte, hbefore⟩ := List.findIdx?_eq_some_iff_getElem.mp (okOr_eq_ok.mp hcolon)
  have hname : (58 : UInt8) ∉ line.take colon := by
    intro hmem
    obtain ⟨i, hi, heq⟩ := List.mem_take_iff_getElem.mp hmem
    exact hbefore i (by omega) (by rw [heq]; rfl)
  obtain ⟨f, rfl⟩ : ∃ f : Field, f.line = line := by
    refine ⟨⟨line.take colon, line.drop (colon + 1), hname⟩, ?_⟩
    rw [Field.line, ← beq_iff_eq.mp hbyte, List.getElem_cons_drop, List.take_append_drop]
  refine ⟨f, rfl, ?_, ?_⟩
  · intro hkey
    rw [parseHeader_line, if_neg (by rw [hkey]; decide), if_pos hkey] at hparse
    obtain ⟨n, hn, -⟩ := bind_eq_ok.mp hparse
    exact ⟨n, okOr_eq_ok.mp hn⟩
  · intro hkey
    rw [parseHeader_line, if_neg (by rw [hkey]; decide), if_neg (by rw [hkey]; decide),
      if_pos hkey] at hparse
    split_ifs at hparse with heq
    exact heq

theorem fields_of_foldlM {lines : List Bytes} {h h' : Headers}
    (hfold : lines.foldlM parseHeader h = .ok h') :
    ∃ fields : List Field, fields.map Field.line = lines ∧
      (∀ f ∈ fields, f.key = "content-length" → ∃ n, f.length = some n) ∧
      ∀ f ∈ fields, f.key = "transfer-encoding" → eqIgnoreAsciiCase f.content "chunked" = true := by
  induction lines generalizing h with
  | nil => exact ⟨[], rfl, by simp, by simp⟩
  | cons line lines ih =>
    rw [List.foldlM_cons] at hfold
    obtain ⟨h₁, hparse, hrest⟩ := bind_eq_ok.mp hfold
    obtain ⟨f, hline, hlen, hencoding⟩ := field_of_parseHeader hparse
    obtain ⟨fields, hlines, hlens, hencodings⟩ := ih hrest
    refine ⟨f :: fields, by rw [List.map_cons, hline, hlines], ?_, ?_⟩
    · exact List.forall_mem_cons.mpr ⟨hlen, hlens⟩
    · exact List.forall_mem_cons.mpr ⟨hencoding, hencodings⟩

theorem parseStatusCode_eq_ok {startLine : Bytes} {status : UInt16}
    (h : parseStatusCode startLine = .ok status) :
    ∃ code n, (startLine.splitOn 32)[1]? = some code ∧
      (fromUtf8 code).bind (fromStrRadix 16 10) = some n := by
  obtain ⟨code, hcode, hafter⟩ := bind_eq_ok.mp h
  obtain ⟨n, hn, -⟩ := bind_eq_ok.mp hafter
  exact ⟨code, n, okOr_eq_ok.mp hcode, okOr_eq_ok.mp hn⟩

theorem chunkedHead_iff {expected head : Bytes} :
    (∃ startLine fields, ChunkedHead expected head startLine fields) ↔
      ∃ status h, parseHead head expected = .ok (status, h) ∧ h.chunked = true := by
  constructor
  · rintro ⟨startLine, fields, hh⟩
    obtain ⟨h, hfold, hd⟩ := declared_fold hh.encoding hh.length
    obtain ⟨code, n, hcode, hn⟩ := hh.status
    refine ⟨UInt16.ofNat n, h, ?_, hd.chunked.mpr hh.chunked⟩
    rw [parseHead, hh.lines]
    simp only [ensure_of hh.begins, ok_bind, parseStatusCode, hcode, hn, okOr_some, hfold,
      pure_eq_ok]
  · rintro ⟨status, h, hparse, hchunked⟩
    unfold parseHead at hparse
    split at hparse
    · cases hparse
    · next startLine lines hsplit =>
      obtain ⟨_, hbegins, hafter⟩ := bind_eq_ok.mp hparse
      obtain ⟨status', hstatus, hheaders⟩ := bind_eq_ok.mp hafter
      obtain ⟨h', hfold, hres⟩ := bind_eq_ok.mp hheaders
      obtain ⟨-, rfl⟩ := Prod.mk.inj (Except.ok.inj hres)
      obtain ⟨fields, rfl, hlen, hencoding⟩ := fields_of_foldlM hfold
      obtain ⟨h₂, hfold₂, hd⟩ := declared_fold hencoding hlen
      obtain rfl := Except.ok.inj (hfold.symm.trans hfold₂)
      exact ⟨startLine, fields, hsplit, ensure_eq_ok.mp hbegins, parseStatusCode_eq_ok hstatus, hlen,
        hencoding, hd.chunked.mp hchunked⟩

theorem parseHeader_ne_panic (h : Headers) (line : Bytes) : parseHeader h line ≠ .error .panic := by
  intro hpanic
  rcases bind_eq_error.mp hpanic with hcolon | ⟨colon, -, hafter⟩
  · cases (okOr_eq_error.mp hcolon).2
  dsimp only at hafter
  split_ifs at hafter
  · cases hafter
  · rcases bind_eq_error.mp hafter with hlen | ⟨n, -, hres⟩
    · cases (okOr_eq_error.mp hlen).2
    · cases hres
  · cases hafter
  · cases hafter
  · cases hafter

theorem foldlM_parseHeader_ne_panic (lines : List Bytes) (h : Headers) :
    lines.foldlM parseHeader h ≠ .error .panic := by
  induction lines generalizing h with
  | nil =>
    intro hpanic
    cases hpanic
  | cons line lines ih =>
    intro hpanic
    rw [List.foldlM_cons] at hpanic
    rcases bind_eq_error.mp hpanic with hline | ⟨h', -, hrest⟩
    · exact parseHeader_ne_panic h line hline
    · exact ih h' hrest

theorem parseStatusCode_ne_panic (startLine : Bytes) :
    parseStatusCode startLine ≠ .error .panic := by
  intro hpanic
  rcases bind_eq_error.mp hpanic with hcode | ⟨code, -, hafter⟩
  · cases (okOr_eq_error.mp hcode).2
  rcases bind_eq_error.mp hafter with hnumber | ⟨n, -, hres⟩
  · cases (okOr_eq_error.mp hnumber).2
  · cases hres

theorem parseHead_ne_panic (head expected : Bytes) : parseHead head expected ≠ .error .panic := by
  intro hpanic
  unfold parseHead at hpanic
  split at hpanic
  · cases hpanic
  rcases bind_eq_error.mp hpanic with hbegins | ⟨_, -, hafter⟩
  · unfold ensure at hbegins
    split_ifs at hbegins
    cases hbegins
  rcases bind_eq_error.mp hafter with hstatus | ⟨status, -, hheaders⟩
  · exact parseStatusCode_ne_panic _ hstatus
  rcases bind_eq_error.mp hheaders with hpanics | ⟨h, -, hres⟩
  · exact foldlM_parseHeader_ne_panic _ _ hpanics
  · cases hres

/-! ## The message -/

/-- The buffer holds a head that announces chunks, and then a chunk that overflows. -/
def Oversized (expected buf : Bytes) : Prop :=
  ∃ head rest startLine fields, buf = head ++ (crlf ++ crlf) ++ rest ∧
    findSubslice (crlf ++ crlf) buf = some head.length ∧
    ChunkedHead expected head startLine fields ∧ Overflows rest

theorem oversized_of_panic {checks : Bool} {buf expected : Bytes} (hbuf : buf.length < 2 ^ 63)
    (h : parseMessage checks buf expected = .error .panic) : Oversized expected buf := by
  obtain ⟨head, rest, rfl, hfind⟩ := exists_head_of_parseMessage (by rw [h]; simp)
  rw [parseMessage_head expected hfind] at h
  rw [List.length_append] at hbuf
  rcases bind_eq_error.mp h with hhead | ⟨⟨status, hs⟩, hhead, hafter⟩
  · exact absurd hhead (parseHead_ne_panic head expected)
  rcases bind_eq_error.mp hafter with hbody | ⟨b, -, hres⟩
  · unfold parseBody at hbody
    split_ifs at hbody with hchunked
    · obtain ⟨startLine, fields, hh⟩ := chunkedHead_iff.mpr ⟨status, hs, hhead, hchunked⟩
      exact ⟨head, rest, startLine, fields, rfl, hfind rest, hh, overflows_of_panic (by omega) hbody⟩
    · dsimp only at hbody
      split_ifs at hbody
  · cases hres

theorem panic_of_oversized {buf expected : Bytes} (hbuf : buf.length < 2 ^ 63)
    (h : Oversized expected buf) : parseMessage true buf expected = .error .panic := by
  obtain ⟨head, rest, startLine, fields, rfl, hf, hh, hover⟩ := h
  obtain ⟨stop, line, after, size, hreaches, hline, hsize⟩ := hover
  obtain ⟨status, hs, hhead, hchunked⟩ := chunkedHead_iff.mp ⟨startLine, fields, hh⟩
  rw [List.length_append] at hbuf
  have hpanic : decodeChunked true rest = .error .panic :=
    panic_of_reaches hreaches hline hsize (by omega) (Nat.lt_succ_self _) [] 0
  rw [parseMessage_head expected (findSubslice_extend (by decide) hf), hhead, ok_bind, parseBody,
    if_pos hchunked, hpanic, error_bind]

/-- The parser finishes, with no overflow and no index out of range, on the buffers
in which no chunk overflows, and on no others. -/
theorem parse_finishes_iff {buf : Bytes} (expected : Bytes) (hbuf : buf.length < 2 ^ 63) :
    (∀ checks, Checked.parseMessage checks buf expected ≠ .error .panic) ↔
      ¬ Oversized expected buf := by
  simp only [Checked.parseMessage_eq expected hbuf]
  constructor
  · intro h hover
    exact h true (panic_of_oversized hbuf hover)
  · intro h checks hpanic
    exact h (oversized_of_panic hbuf hpanic)

theorem parse_finishes_iff_abc :
    (∀ checks, Checked.parseMessage checks (asBytes
      "HTTP/1.1 200 OK\r\nTransfer-Encoding: chunked\r\n\r\n3\r\nabc\r\n0\r\n\r\n") httpPrefix ≠
        .error .panic) ∧
    ¬ Oversized httpPrefix (asBytes
      "HTTP/1.1 200 OK\r\nTransfer-Encoding: chunked\r\n\r\n3\r\nabc\r\n0\r\n\r\n") := by
  refine and_iff_left_of_imp (parse_finishes_iff httpPrefix (by decide +kernel)).mp |>.mpr ?_
  intro checks
  rw [Checked.parseMessage_eq httpPrefix (by decide +kernel)]
  cases checks <;> decide +kernel

/-- With the largest size that can be written the parser panics in every build: the
sum overflows, or the data ends before it begins. -/
theorem largest_size_panics :
    Checked.parseMessage true (asBytes
      "HTTP/1.1 200 OK\r\nTransfer-Encoding: chunked\r\n\r\nffffffffffffffff\r\nab\r\n") httpPrefix =
        .error .panic ∧
    Checked.parseMessage false (asBytes
      "HTTP/1.1 200 OK\r\nTransfer-Encoding: chunked\r\n\r\nffffffffffffffff\r\nab\r\n") httpPrefix =
        .error .panic := by
  rw [Checked.parseMessage_eq httpPrefix (by decide +kernel),
    Checked.parseMessage_eq httpPrefix (by decide +kernel)]
  constructor <;> decide +kernel

end HapRust.Transport
