import HapRust.Transport.HttpPanics

/-! Which bodies the chunk decoder takes. It goes by the sizes alone: two bytes
behind the data of each chunk, and behind the line of the last one, are passed over
without a look at them, and a size may have a sign and space around it. -/

namespace HapRust.Lib

def isHexDigit (b : UInt8) : Bool := (toDigit 16 (Char.ofNat b.toNat)).isSome

theorem isHexDigit_of_numeral {digits : List Char} {n : Nat} (h : Numeral 16 digits n) :
    (asBytes (String.ofList digits)).all isHexDigit = true := by
  rw [List.all_eq_true]
  intro b hb
  rw [asBytes_ofList] at hb
  obtain ⟨c, hc, hmem⟩ := List.mem_flatMap.mp hb
  have hdigit := toDigit_of_mem h.value c hc
  have hascii := ascii_of_toDigit hdigit
  rw [utf8EncodeChar_ascii hascii, List.mem_singleton] at hmem
  rw [isHexDigit, hmem, toNat_ofNat_of_lt (by omega), Char.ofNat_toNat]
  exact hdigit

theorem numeral_of_isHexDigit {s : String} {n : Nat} (hall : (asBytes s).all isHexDigit = true)
    (h : fromStrRadix 64 16 (trim s) = some n) : Numeral 16 s.toList n := by
  have hdigits : ∀ c ∈ s.toList, (toDigit 16 c).isSome = true := by
    intro c hc
    obtain ⟨b, t, hbytes, -⟩ := lossyStep_utf8EncodeChar c
    have hb : b ∈ String.utf8EncodeChar c := hbytes ▸ List.mem_cons_self ..
    have hmem : b ∈ asBytes s := by
      rw [asBytes_eq]
      exact List.mem_flatMap.mpr ⟨c, hc, hb⟩
    have hdigit := List.all_eq_true.mp hall b hmem
    have hsmall : b.toNat < 128 := by
      have hascii := ascii_of_toDigit hdigit
      rwa [toNat_charOfNat] at hascii
    rw [isHexDigit, eq_of_mem_utf8EncodeChar hsmall hb, Char.ofNat_toNat] at hdigit
    exact hdigit
  have hspace : ∀ c ∈ s.toList, isWhitespace c = false := by
    intro c hc
    cases hws : isWhitespace c with
    | false => rfl
    | true =>
      have hdigit := hdigits c hc
      rw [isWhitespace_not_digit hws] at hdigit
      cases hdigit
  have hplus : stripPlus s.toList = s.toList := by
    unfold stripPlus
    split
    · next rest heq =>
      have hdigit := hdigits '+' (heq ▸ List.mem_cons_self ..)
      cases hdigit
    · rfl
  have htrim := trim_of_no_whitespace hspace
  rw [String.ofList_toList] at htrim
  rw [htrim, fromStrRadix, hplus] at h
  split_ifs at h with hnil
  exact ⟨hnil, (Option.filter_eq_some_iff.mp h).1⟩

end HapRust.Lib

namespace HapRust.Transport
open Lib

/-! ## What the decoder passes over -/

/-- A size line, as much data as it declares, and two more bytes. -/
structure Piece where
  line : Bytes
  data : Bytes
  ending : Bytes

/-- The pieces of the buffer up to the first one without data, and what follows them. -/
inductive Cut : Bytes → List Piece → Bytes → Prop
  | last {buf line ending rest : Bytes} :
    SizeLine buf line (ending ++ rest) 0 → ending.length = 2 → Cut buf [⟨line, [], ending⟩] rest
  | chunk {buf line data ending next rest : Bytes} {pieces : List Piece} :
    SizeLine buf line (data ++ ending ++ next) data.length → data ≠ [] → ending.length = 2 →
    Cut next pieces rest → Cut buf (⟨line, data, ending⟩ :: pieces) rest

/-- A piece as it is written: nothing but digits in its line, and the end of a line behind it. -/
def Piece.Proper (p : Piece) : Prop := p.line.all isHexDigit = true ∧ p.ending = crlf

instance (p : Piece) : Decidable p.Proper := inferInstanceAs (Decidable (_ ∧ _))

/-- The bytes are the chunked encoding of this body: chunks of some data, each with its size in
hexadecimal digits, and the chunk of size zero. -/
def Encodes (front body : Bytes) : Prop :=
  ∃ (chunks : List SizedChunk) (zeros : List Char), Numeral 16 zeros 0 ∧
    front = chunks.flatMap SizedChunk.render ++ (asBytes (String.ofList zeros) ++ crlf ++ crlf) ∧
    body = chunks.flatMap (·.data)

/-- The decoder takes the encodings of bodies off the front, and nothing else. -/
def DecodesExactly (checks : Bool) (buf : Bytes) : Prop :=
  ∀ body n, decodeChunked checks buf = .ok (some (body, n)) ↔
    n ≤ buf.length ∧ Encodes (buf.take n) body

section
variable {checks : Bool} {buf rest : Bytes} {pieces : List Piece}

theorem SizeLine.length {line after : Bytes} {size : Nat} (h : SizeLine buf line after size) :
    buf.length = line.length + 2 + after.length := by
  have hcrlf : crlf.length = 2 := rfl
  rw [h.eq, List.length_append, List.length_append, hcrlf]

theorem SizeLine.unique {line line' after after' : Bytes} {size size' : Nat}
    (h : SizeLine buf line after size) (h' : SizeLine buf line' after' size') :
    line = line' ∧ after = after' ∧ size = size' := by
  have hlen : line.length = line'.length := Option.some.inj (h.first.symm.trans h'.first)
  have heq := h.eq.symm.trans h'.eq
  rw [List.append_assoc, List.append_assoc] at heq
  obtain ⟨rfl, hrest⟩ := List.append_inj heq hlen
  have hsize := h.chunkSize.symm.trans h'.chunkSize
  exact ⟨rfl, List.append_cancel_left hrest, Except.ok.inj hsize⟩

theorem Cut.length_le (h : Cut buf pieces rest) : rest.length ≤ buf.length := by
  induction h with
  | last hline hending =>
    rw [hline.length, List.length_append]
    omega
  | chunk hline hdata hending _ ih =>
    rw [hline.length, List.length_append]
    omega

theorem Cut.unique (h : Cut buf pieces rest) {pieces' : List Piece} {rest' : Bytes}
    (h' : Cut buf pieces' rest') : pieces = pieces' ∧ rest = rest' := by
  induction h generalizing pieces' rest' with
  | last hline hending =>
    cases h' with
    | last hline' hending' =>
      obtain ⟨rfl, hafter, -⟩ := hline.unique hline'
      obtain ⟨rfl, rfl⟩ := List.append_inj hafter (hending.trans hending'.symm)
      exact ⟨rfl, rfl⟩
    | chunk hline' hdata' _ _ =>
      obtain ⟨-, -, hsize⟩ := hline.unique hline'
      exact absurd (List.length_eq_zero_iff.mp hsize.symm) hdata'
  | chunk hline hdata hending _ ih =>
    cases h' with
    | last hline' _ =>
      obtain ⟨-, -, hsize⟩ := hline.unique hline'
      exact absurd (List.length_eq_zero_iff.mp hsize) hdata
    | chunk hline' hdata' hending' hnext' =>
      obtain ⟨rfl, hafter, hsize⟩ := hline.unique hline'
      rw [List.append_assoc, List.append_assoc] at hafter
      obtain ⟨rfl, htail⟩ := List.append_inj hafter hsize
      obtain ⟨rfl, rfl⟩ := List.append_inj htail (hending.trans hending'.symm)
      obtain ⟨rfl, rfl⟩ := ih hnext'
      exact ⟨rfl, rfl⟩

/-! ## The decoder takes what can be cut -/

theorem nextChunk_zero (checks : Bool) {line ending : Bytes} (next : Bytes)
    (hfind : ∀ x, findSubslice crlf (line ++ crlf ++ x) = some line.length)
    (hsize : chunkSize line = .ok 0) (hending : ending.length = 2) :
    nextChunk checks (line ++ crlf ++ (ending ++ next)) =
      .ok (some (.last, line.length + 2 + 2)) := by
  have hfront : (line ++ crlf).length = line.length + 2 := List.length_append
  rw [nextChunk_line hfind, hsize, ok_bind, if_pos rfl, if_neg, hfront]
  · rfl
  · rw [List.length_append]
    omega

theorem decodeChunkedLoop_cut (h : Cut buf pieces rest) (hbuf : buf.length < 2 ^ 63) {fuel : Nat}
    (hfuel : buf.length < fuel) (body : Bytes) (consumed : Nat) :
    decodeChunkedLoop checks fuel buf body consumed =
      .ok (some (body ++ pieces.flatMap (·.data), consumed + (buf.length - rest.length))) := by
  induction h generalizing fuel body consumed with
  | @last buf line ending rest hline hending =>
    obtain ⟨k, rfl⟩ : ∃ k, fuel = k + 1 := ⟨fuel - 1, by omega⟩
    have hlen : buf.length - rest.length = line.length + 2 + 2 := by
      rw [hline.length, List.length_append]
      omega
    have hnext := nextChunk_zero checks rest hline.find hline.chunkSize hending
    rw [← hline.eq] at hnext
    rw [decodeChunkedLoop, hnext, ok_bind, hlen]
    simp only [List.flatMap_cons, List.flatMap_nil, List.append_nil]
    rfl
  | @chunk buf line data ending next rest pieces hline hdata hending hcut ih =>
    obtain ⟨k, rfl⟩ : ∃ k, fuel = k + 1 := ⟨fuel - 1, by omega⟩
    have heq : buf = line ++ crlf ++ (data ++ ending) ++ next := by
      rw [hline.eq, List.append_assoc (line ++ crlf)]
    have hlen : buf.length = (line ++ crlf ++ (data ++ ending)).length + next.length := by
      rw [heq, List.length_append]
    have hpos : 0 < (line ++ crlf ++ (data ++ ending)).length := by
      rw [List.length_append, List.length_append]
      exact Nat.add_pos_left (Nat.add_pos_right _ (by decide)) _
    have hrest := hcut.length_le
    rw [hlen, decodeChunkedLoop, heq,
      nextChunk_whole hline.find hline.chunkSize hdata hending (by omega), ok_bind]
    simp only [List.drop_left]
    rw [ih (by omega) (by omega), List.append_assoc body, List.flatMap_cons,
      Nat.add_assoc consumed, Nat.add_sub_assoc hrest]

theorem last_of_nextChunk {n : Nat} (h : nextChunk checks buf = .ok (some (.last, n))) :
    ∃ line ending, SizeLine buf line (ending ++ buf.drop n) 0 ∧ ending.length = 2 := by
  obtain ⟨line, after, rfl, hfind⟩ := exists_line_of_nextChunk (by rw [h]; simp)
  rw [nextChunk_line hfind] at h
  obtain ⟨size, hsize, hturn⟩ := bind_eq_ok.mp h
  split_ifs at hturn with hzero hshort
  · cases hturn
  · obtain ⟨-, rfl⟩ := Prod.mk.inj (Option.some.inj (Except.ok.inj hturn))
    subst hzero
    have hdrop : (line ++ crlf ++ after).drop ((line ++ crlf).length + 2) = after.drop 2 := by
      rw [← List.drop_drop, List.drop_left]
    refine ⟨line, after.take 2, ⟨?_, hfind after, chunkSize_eq_ok.mp hsize⟩, ?_⟩
    · rw [hdrop, List.take_append_drop]
    · rw [List.length_take]
      omega
  · rw [dataChunk_eq (chunkSize_lt hsize)] at hturn
    obtain ⟨dataEnd, -, hrest⟩ := bind_eq_ok.mp hturn
    obtain ⟨chunkEnd, -, hres⟩ := bind_eq_ok.mp hrest
    split_ifs at hres
    · cases hres
    · obtain ⟨hc, -⟩ := Prod.mk.inj (Option.some.inj (Except.ok.inj hres))
      cases hc

theorem cut_of_decodeChunkedLoop {fuel n consumed : Nat} {body body' : Bytes}
    (h : decodeChunkedLoop checks fuel buf body consumed = .ok (some (body', n))) :
    ∃ pieces rest, Cut buf pieces rest ∧ body' = body ++ pieces.flatMap (·.data) ∧
      n = consumed + (buf.length - rest.length) := by
  induction fuel generalizing buf body consumed with
  | zero => cases h
  | succ fuel ih =>
    obtain ⟨c, hc, hres⟩ := bind_eq_ok.mp h
    rcases c with - | ⟨c, k⟩
    · cases hres
    cases c with
    | last =>
      obtain ⟨line, ending, hline, hending⟩ := last_of_nextChunk hc
      obtain ⟨rfl, rfl⟩ := Prod.mk.inj (Option.some.inj (Except.ok.inj hres))
      obtain ⟨front, back, rfl, rfl, hpos, -⟩ := nextChunk_complete hc
      refine ⟨_, _, .last hline hending, ?_, ?_⟩
      · simp only [List.flatMap_cons, List.flatMap_nil, List.append_nil]
      · rw [List.drop_left, List.length_append, Nat.add_sub_cancel]
    | data data =>
      obtain ⟨line, ending, hline, hdata, hending⟩ := chunk_of_nextChunk hc
      obtain ⟨front, back, rfl, rfl, hpos, -⟩ := nextChunk_complete hc
      rw [List.drop_left] at hline
      simp only [List.drop_left] at hres
      obtain ⟨pieces, rest, hcut, rfl, rfl⟩ := ih hres
      refine ⟨_, rest, .chunk hline hdata hending hcut, ?_, ?_⟩
      · rw [List.flatMap_cons, List.append_assoc]
      · have hrest := hcut.length_le
        rw [List.length_append, Nat.add_sub_assoc hrest, Nat.add_assoc]

theorem decodeChunked_eq_some (checks : Bool) (hbuf : buf.length < 2 ^ 63) {body : Bytes}
    {n : Nat} :
    decodeChunked checks buf = .ok (some (body, n)) ↔
      ∃ pieces rest, Cut buf pieces rest ∧ body = pieces.flatMap (·.data) ∧
        n = buf.length - rest.length := by
  constructor
  · intro h
    obtain ⟨pieces, rest, hcut, hbody, hn⟩ := cut_of_decodeChunkedLoop h
    rw [List.nil_append] at hbody
    rw [Nat.zero_add] at hn
    exact ⟨pieces, rest, hcut, hbody, hn⟩
  · rintro ⟨pieces, rest, hcut, rfl, rfl⟩
    rw [decodeChunked, decodeChunkedLoop_cut hcut hbuf (Nat.lt_succ_self _), List.nil_append,
      Nat.zero_add]

/-! ## Pieces that are written as they should be -/

theorem SizedChunk.sizeLine (c : SizedChunk) (hsize : c.data.length < 2 ^ 64) (x : Bytes) :
    SizeLine (c.render ++ x) (asBytes (String.ofList c.digits)) (c.data ++ crlf ++ x)
      c.data.length where
  eq := by rw [SizedChunk.render, List.append_assoc (_ ++ crlf)]
  first := by
    rw [SizedChunk.render, List.append_assoc (_ ++ crlf)]
    exact findSubslice_digits c.size _
  declares := chunkSize_eq_ok.mp (chunkSize_digits c.size hsize)

theorem Encodes.cut {front body : Bytes} (h : Encodes front body) (hlen : front.length < 2 ^ 63)
    (rest : Bytes) : ∃ pieces, Cut (front ++ rest) pieces rest ∧ ∀ p ∈ pieces, p.Proper := by
  obtain ⟨chunks, zeros, hzeros, rfl, -⟩ := h
  induction chunks with
  | nil =>
    refine ⟨[⟨asBytes (String.ofList zeros), [], crlf⟩], .last ⟨?_, ?_, ?_⟩ rfl, ?_⟩
    · rw [List.flatMap_nil, List.nil_append, List.append_assoc (_ ++ crlf)]
    · rw [List.flatMap_nil, List.nil_append, List.append_assoc (_ ++ crlf)]
      exact findSubslice_digits hzeros _
    · exact chunkSize_eq_ok.mp (chunkSize_digits hzeros (by decide))
    · intro p hp
      rw [List.mem_singleton.mp hp]
      exact ⟨isHexDigit_of_numeral hzeros, rfl⟩
  | cons c chunks ih =>
    rw [List.flatMap_cons, List.append_assoc, List.length_append] at hlen
    obtain ⟨pieces, hcut, hproper⟩ := ih (by omega)
    have hsize : c.data.length < 2 ^ 64 := by
      have hrender : c.render.length = _ := List.length_append
      rw [@List.length_append _ c.data] at hrender
      omega
    rw [List.flatMap_cons, List.append_assoc c.render, List.append_assoc c.render]
    refine ⟨⟨asBytes (String.ofList c.digits), c.data, crlf⟩ :: pieces,
      .chunk (c.sizeLine hsize _) c.nonempty rfl hcut, ?_⟩
    intro p hp
    rcases List.mem_cons.mp hp with rfl | hp
    · exact ⟨isHexDigit_of_numeral c.size, rfl⟩
    · exact hproper p hp

theorem SizeLine.numeral {line after : Bytes} {size : Nat} (h : SizeLine buf line after size)
    (hdigits : line.all isHexDigit = true) :
    ∃ digits, line = asBytes (String.ofList digits) ∧ Numeral 16 digits size := by
  obtain ⟨s, hs, hsize⟩ := h.declares
  obtain rfl := fromUtf8_eq_some.mp hs
  exact ⟨s.toList, by rw [String.ofList_toList], numeral_of_isHexDigit hdigits hsize⟩

theorem encodes_of_cut (h : Cut buf pieces rest) (hproper : ∀ p ∈ pieces, p.Proper) :
    ∃ front, buf = front ++ rest ∧ Encodes front (pieces.flatMap (·.data)) := by
  induction h with
  | @last buf line ending rest hline hending =>
    obtain ⟨hdigits, rfl⟩ := hproper _ (List.mem_cons_self ..)
    obtain ⟨digits, rfl, hzeros⟩ := hline.numeral hdigits
    refine ⟨_, ?_, [], digits, hzeros, rfl, rfl⟩
    rw [hline.eq, List.flatMap_nil, List.nil_append, List.append_assoc (_ ++ crlf)]
  | @chunk buf line data ending next rest pieces hline hdata hending _ ih =>
    obtain ⟨hdigits, rfl⟩ := hproper _ (List.mem_cons_self ..)
    obtain ⟨digits, rfl, hsize⟩ := hline.numeral hdigits
    obtain ⟨front, rfl, chunks, zeros, hzeros, rfl, hbody⟩ :=
      ih fun p hp => hproper p (List.mem_cons_of_mem _ hp)
    refine ⟨_, ?_, ⟨digits, data, hdata, hsize⟩ :: chunks, zeros, hzeros, rfl, ?_⟩
    · simp only [hline.eq, List.flatMap_cons, SizedChunk.render, List.append_assoc]
    · rw [List.flatMap_cons, List.flatMap_cons, hbody]

theorem Encodes.decodeChunked {front body : Bytes} (h : Encodes front body) (checks : Bool)
    (rest : Bytes) (hlen : front.length < 2 ^ 63) :
    decodeChunked checks (front ++ rest) = .ok (some (body, front.length)) := by
  obtain ⟨chunks, zeros, hzeros, rfl, rfl⟩ := h
  have hchunks : (chunks.flatMap SizedChunk.render).length < 2 ^ 63 := by
    rw [List.length_append] at hlen
    omega
  rw [Transport.decodeChunked, decodeChunkedLoop_render chunks hzeros hchunks, List.nil_append,
    Nat.zero_add]
  rw [List.length_append, List.length_append]
  omega

end

/-- The decoder takes exactly the chunked encodings off the front of a buffer if and only if,
where the buffer begins with pieces up to one without data, each of them is written as it should
be. -/
theorem decodesExactly_iff (checks : Bool) {buf : Bytes} (hbuf : buf.length < 2 ^ 63) :
    DecodesExactly checks buf ↔
      ∀ pieces rest, Cut buf pieces rest → ∀ p ∈ pieces, p.Proper := by
  constructor
  · intro hexact pieces rest hcut
    have hdecode := (decodeChunked_eq_some checks hbuf).mpr ⟨pieces, rest, hcut, rfl, rfl⟩
    obtain ⟨-, hencodes⟩ := (hexact _ _).mp hdecode
    have hlen : (buf.take (buf.length - rest.length)).length < 2 ^ 63 := by
      rw [List.length_take]
      omega
    obtain ⟨pieces', hcut', hproper⟩ := hencodes.cut hlen (buf.drop (buf.length - rest.length))
    rw [List.take_append_drop] at hcut'
    obtain ⟨rfl, -⟩ := hcut.unique hcut'
    exact hproper
  · intro hproper body n
    constructor
    · intro h
      obtain ⟨pieces, rest, hcut, rfl, rfl⟩ := (decodeChunked_eq_some checks hbuf).mp h
      obtain ⟨front, rfl, hencodes⟩ := encodes_of_cut hcut (hproper pieces rest hcut)
      rw [List.length_append, Nat.add_sub_cancel, List.take_left]
      exact ⟨Nat.le_add_right _ _, hencodes⟩
    · rintro ⟨hn, hencodes⟩
      have hlen : (buf.take n).length = n := List.length_take_of_le hn
      have hdecode := hencodes.decodeChunked checks (buf.drop n) (by omega)
      rwa [List.take_append_drop, hlen] at hdecode

def properBody : Bytes := asBytes "3\r\nabc\r\n0A\r\n0123456789\r\n00\r\n\r\nHTTP"

theorem decodesExactly_properBody :
    decodeChunked true properBody = .ok (some (asBytes "abc0123456789", 30)) ∧
      DecodesExactly true properBody := by
  refine ⟨by decide +kernel, (decodesExactly_iff true (by decide +kernel)).mpr ?_⟩
  intro pieces rest hcut
  have hcut' : Cut properBody [⟨asBytes "3", asBytes "abc", crlf⟩,
      ⟨asBytes "0A", asBytes "0123456789", crlf⟩, ⟨asBytes "00", [], crlf⟩] (asBytes "HTTP") := by
    have hlast : Cut (asBytes "00\r\n\r\nHTTP") [⟨asBytes "00", [], crlf⟩] (asBytes "HTTP") := by
      refine .last ⟨?_, ?_, ?_⟩ rfl
      all_goals decide +kernel
    have hsecond : Cut (asBytes "0A\r\n0123456789\r\n00\r\n\r\nHTTP")
        [⟨asBytes "0A", asBytes "0123456789", crlf⟩, ⟨asBytes "00", [], crlf⟩] (asBytes "HTTP") := by
      refine .chunk ⟨?_, ?_, ?_⟩ ?_ rfl hlast
      all_goals decide +kernel
    refine .chunk ⟨?_, ?_, ?_⟩ ?_ rfl hsecond
    all_goals decide +kernel
  obtain ⟨rfl, -⟩ := hcut.unique hcut'
  decide +kernel

def unendedBody : Bytes := asBytes "1\r\naXY0\r\n\r\n"

def signedBody : Bytes := asBytes "+1\r\na\r\n 0 \r\n\r\n"

theorem cut_unendedBody :
    Cut unendedBody [⟨asBytes "1", asBytes "a", asBytes "XY"⟩, ⟨asBytes "0", [], crlf⟩] [] := by
  have hlast : Cut (asBytes "0\r\n\r\n") [⟨asBytes "0", [], crlf⟩] [] := by
    refine .last ⟨?_, ?_, ?_⟩ rfl
    all_goals decide +kernel
  refine .chunk ⟨?_, ?_, ?_⟩ ?_ rfl hlast
  all_goals decide +kernel

theorem cut_signedBody :
    Cut signedBody [⟨asBytes "+1", asBytes "a", crlf⟩, ⟨asBytes " 0 ", [], crlf⟩] [] := by
  have hlast : Cut (asBytes " 0 \r\n\r\n") [⟨asBytes " 0 ", [], crlf⟩] [] := by
    refine .last ⟨?_, ?_, ?_⟩ rfl
    all_goals decide +kernel
  refine .chunk ⟨?_, ?_, ?_⟩ ?_ rfl hlast
  all_goals decide +kernel

theorem not_encodes_of_cut {buf : Bytes} {pieces : List Piece} (h : Cut buf pieces [])
    (hbuf : buf.length < 2 ^ 63) (himproper : ¬ ∀ p ∈ pieces, p.Proper) (body : Bytes) :
    ¬ Encodes buf body := by
  intro hencodes
  obtain ⟨pieces', hcut, hproper⟩ := hencodes.cut hbuf []
  rw [List.append_nil] at hcut
  obtain ⟨rfl, -⟩ := h.unique hcut
  exact himproper hproper

/-- Both are taken whole, and neither is the chunked encoding of anything. -/
theorem unended_chunk_taken :
    decodeChunked true unendedBody = .ok (some (asBytes "a", 11)) ∧
      ¬ Encodes (unendedBody.take 11) (asBytes "a") ∧
      decodeChunked true signedBody = .ok (some (asBytes "a", 14)) ∧
      ¬ Encodes (signedBody.take 14) (asBytes "a") := by
  have hunended : unendedBody.take 11 = unendedBody := by decide +kernel
  have hsigned : signedBody.take 14 = signedBody := by decide +kernel
  rw [hunended, hsigned]
  refine ⟨by decide +kernel, ?_, by decide +kernel, ?_⟩
  · exact not_encodes_of_cut cut_unendedBody (by decide +kernel) (by decide +kernel) _
  · exact not_encodes_of_cut cut_signedBody (by decide +kernel) (by decide +kernel) _

end HapRust.Transport
