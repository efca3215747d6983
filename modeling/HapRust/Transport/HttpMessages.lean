import HapRust.Transport.HttpGrammar

/-! The parser reads every message that is well formed, with its whole length, and
every response that is rendered with a length or in chunks. With what it has of a
message it can wait or decide: what has been decided stays. -/

namespace HapRust.Transport
open Lib

/-! ## The head -/

theorem parseStatusCode_line {expected : Bytes} (hspace : (32 : UInt8) ∉ expected) (s : StartLine) :
    parseStatusCode (s.line expected) = .ok s.status := by
  have hcode : (32 : UInt8) ∉ asBytes (String.ofList s.code) :=
    s.numeral.not_mem (by decide) (by decide)
  have hsecond : ((s.line expected).splitOn 32)[1]? = some (asBytes (String.ofList s.code)) := by
    rw [StartLine.line, splitOn_append_cons hspace]
    cases s.reason with
    | none =>
      rw [Option.map_none, Option.getD_none, List.append_nil, splitOn_of_not_mem hcode]
      rfl
    | some r =>
      rw [Option.map_some, Option.getD_some, splitOn_append_cons hcode]
      rfl
  rw [parseStatusCode, hsecond, okOr_some, ok_bind, fromUtf8_asBytes, Option.bind_some,
    s.numeral.fromStrRadix s.status.toNat_lt, okOr_some, ok_bind, pure_eq_ok,
    UInt16.ofNat_toNat]

theorem parseHeader_line (h : Headers) (f : Field) :
    parseHeader h f.line =
      if f.key = "content-type" then .ok { h with contentType := f.content }
      else if f.key = "content-length" then do
        let len ← okOr f.length (malformed "bad Content-Length")
        return { h with contentLength := some len }
      else if f.key = "transfer-encoding" then
        if eqIgnoreAsciiCase f.content "chunked" then .ok { h with chunked := true }
        else .error (.err (.unsupportedEncoding f.content))
      else .ok h := by
  have hcolon : f.line.findIdx? (· == 58) = some f.name.length := by
    have hname : f.name.findIdx? (· == 58) = none := by
      rw [List.findIdx?_eq_none_iff]
      intro b hb
      rw [beq_eq_false_iff_ne]
      rintro rfl
      exact f.noColon hb
    rw [Field.line, List.findIdx?_append, hname, Option.none_or, List.findIdx?_cons]
    simp
  have hname : f.line.take f.name.length = f.name := List.take_left
  have hvalue : f.line.drop (f.name.length + 1) = f.value := by
    rw [Field.line, ← List.drop_drop, List.drop_left]
    rfl
  rw [parseHeader, hcolon, okOr_some, ok_bind]
  simp only [hname, hvalue]
  rfl

structure Declared (fields : List Field) (h : Headers) : Prop where
  contentType : h.contentType = Message.contentType fields
  chunked : h.chunked = true ↔ ∃ f ∈ fields, f.key = "transfer-encoding"
  length : (h.contentLength = none ∧ ∀ f ∈ fields, f.key ≠ "content-length") ∨
    ∃ n, h.contentLength = some n ∧ ∃ f ∈ fields, f.key = "content-length" ∧ f.length = some n

theorem contentType_snoc (fields : List Field) (f : Field) :
    Message.contentType (fields ++ [f]) =
      if f.key = "content-type" then f.content else Message.contentType fields := by
  rw [Message.contentType, List.filter_append]
  split_ifs with hf
  · rw [List.filter_cons_of_pos (by simpa using hf), List.filter_nil, List.getLast?_concat]
    rfl
  · rw [List.filter_cons_of_neg (by simpa using hf), List.filter_nil, List.append_nil]
    rfl

theorem exists_mem_snoc {p : Field → Prop} {fields : List Field} {f : Field} :
    (∃ g ∈ fields ++ [f], p g) ↔ (∃ g ∈ fields, p g) ∨ p f := by
  simp only [List.mem_append, List.mem_singleton, or_and_right, exists_or, exists_eq_left]

section
variable {fields : List Field} {f : Field} {h : Headers}

theorem Declared.chunked_snoc (hd : Declared fields h) (hf : f.key ≠ "transfer-encoding") :
    h.chunked = true ↔ ∃ g ∈ fields ++ [f], g.key = "transfer-encoding" := by
  rw [exists_mem_snoc, or_iff_left hf]
  exact hd.chunked

theorem Declared.length_snoc (hd : Declared fields h) (hf : f.key ≠ "content-length") :
    (h.contentLength = none ∧ ∀ g ∈ fields ++ [f], g.key ≠ "content-length") ∨
      ∃ n, h.contentLength = some n ∧
        ∃ g ∈ fields ++ [f], g.key = "content-length" ∧ g.length = some n := by
  rcases hd.length with ⟨hnone, hall⟩ | ⟨n, hsome, g, hg, hkey⟩
  · refine .inl ⟨hnone, fun g hg => ?_⟩
    rcases List.mem_append.mp hg with hg | hg
    · exact hall g hg
    · rw [List.mem_singleton.mp hg]
      exact hf
  · exact .inr ⟨n, hsome, g, List.mem_append_left _ hg, hkey⟩

theorem Field.Announces.length {n : Nat} (h : f.Announces n) : f.length = some n := by
  obtain ⟨hn, digits, hcontent, hnumeral⟩ := h
  rw [Field.length, hcontent, hnumeral.fromStrRadix hn]

theorem Declared.snoc (hd : Declared fields h)
    (hencoding : f.key = "transfer-encoding" → eqIgnoreAsciiCase f.content "chunked" = true)
    (hlen : f.key = "content-length" → ∃ n, f.length = some n) :
    ∃ h', parseHeader h f.line = .ok h' ∧ Declared (fields ++ [f]) h' := by
  rw [parseHeader_line]
  by_cases htype : f.key = "content-type"
  · rw [if_pos htype]
    refine ⟨_, rfl, ?_, hd.chunked_snoc (by rw [htype]; decide),
      hd.length_snoc (by rw [htype]; decide)⟩
    rw [contentType_snoc, if_pos htype]
  have hsame : h.contentType = Message.contentType (fields ++ [f]) := by
    rw [contentType_snoc, if_neg htype]
    exact hd.contentType
  rw [if_neg htype]
  by_cases hlength : f.key = "content-length"
  · obtain ⟨n, hn⟩ := hlen hlength
    rw [if_pos hlength, hn, okOr_some, ok_bind]
    refine ⟨_, rfl, hsame, hd.chunked_snoc (by rw [hlength]; decide),
      .inr ⟨n, rfl, f, ?_, hlength, hn⟩⟩
    exact List.mem_append_right _ (List.mem_singleton_self f)
  rw [if_neg hlength]
  by_cases hte : f.key = "transfer-encoding"
  · rw [if_pos hte, if_pos (hencoding hte)]
    refine ⟨_, rfl, hsame, ?_, hd.length_snoc hlength⟩
    exact iff_of_true rfl ⟨f, List.mem_append_right _ (List.mem_singleton_self f), hte⟩
  · rw [if_neg hte]
    exact ⟨h, rfl, hsame, hd.chunked_snoc hte, hd.length_snoc hlength⟩

end

theorem declared_fold {fields : List Field}
    (hencoding : ∀ f ∈ fields, f.key = "transfer-encoding" →
      eqIgnoreAsciiCase f.content "chunked" = true)
    (hlen : ∀ f ∈ fields, f.key = "content-length" → ∃ n, f.length = some n) :
    ∃ h, (fields.map Field.line).foldlM parseHeader ⟨"", none, false⟩ = .ok h ∧
      Declared fields h := by
  induction fields using List.reverseRecOn with
  | nil => exact ⟨_, rfl, rfl, by simp, .inl ⟨rfl, by simp⟩⟩
  | append_singleton fields f ih =>
    obtain ⟨h, hfold, hd⟩ := ih (fun g hg => hencoding g (List.mem_append_left _ hg))
      (fun g hg => hlen g (List.mem_append_left _ hg))
    have hf : f ∈ fields ++ [f] := List.mem_append_right _ (List.mem_singleton_self f)
    obtain ⟨h', hparse, hd'⟩ := hd.snoc (hencoding f hf) (hlen f hf)
    refine ⟨h', ?_, hd'⟩
    rw [List.map_append, List.foldlM_append, hfold, ok_bind, List.map_singleton, List.foldlM_cons,
      hparse, ok_bind, List.foldlM_nil, pure_eq_ok]

structure IsProtocol (expected : Bytes) : Prop where
  isLine : IsLine expected
  space : (32 : UInt8) ∉ expected

theorem isProtocol_http : IsProtocol httpPrefix := by
  refine ⟨⟨⟨?_, ?_⟩, ?_⟩, ?_⟩ <;> decide +kernel

theorem isProtocol_event : IsProtocol eventPrefix := by
  refine ⟨⟨⟨?_, ?_⟩, ?_⟩, ?_⟩ <;> decide +kernel

namespace Message
variable {expected : Bytes} (m : Message)

theorem head_eq : m.head expected =
    joinLines (m.start.line expected) (m.fields.map Field.line) := by
  rw [head, joinLines, List.flatMap_map]

theorem isLine_fields : ∀ l ∈ m.fields.map Field.line, IsLine l := by
  intro l hl
  obtain ⟨f, hf, rfl⟩ := List.mem_map.mp hl
  exact Field.isLine (m.noBreak f hf)

theorem findSubslice_head (hexpected : IsProtocol expected) (x : Bytes) :
    findSubslice (crlf ++ crlf) (m.head expected ++ (crlf ++ crlf) ++ x) =
      some (m.head expected).length := by
  rw [head_eq]
  exact findSubslice_joinLines (m.start.isLine hexpected.isLine) m.isLine_fields x

theorem parseHead_head (hexpected : IsProtocol expected) :
    ∃ h, parseHead (m.head expected) expected = .ok (m.start.status, h) ∧ Declared m.fields h := by
  obtain ⟨h, hfold, hd⟩ := declared_fold m.encoding fun f hf hkey =>
    (m.announced f hf hkey).imp fun n hn => hn.1.length
  have hstart : expected <+: m.start.line expected := List.prefix_append _ _
  have hsplit := splitCrlf_joinLines (m.start.isLine hexpected.isLine) m.isLine_fields
  refine ⟨h, ?_, hd⟩
  rw [parseHead, head_eq, hsplit]
  simp only [ensure_of hstart, ok_bind, parseStatusCode_line hexpected.space, hfold, pure_eq_ok]

end Message

/-! ## The body -/

section
variable {checks : Bool}

theorem chunkSize_digits {digits : List Char} {n : Nat} (h : Numeral 16 digits n)
    (hn : n < 2 ^ 64) : chunkSize (asBytes (String.ofList digits)) = .ok n := by
  rw [chunkSize, fromUtf8_asBytes, okOr_some, ok_bind, trim_of_no_whitespace h.no_whitespace,
    h.fromStrRadix hn, okOr_some]

theorem findSubslice_digits {digits : List Char} {n : Nat} (h : Numeral 16 digits n) (x : Bytes) :
    findSubslice crlf (asBytes (String.ofList digits) ++ crlf ++ x) =
      some (asBytes (String.ofList digits)).length :=
  findSubslice_end rfl (h.not_mem (by decide) (by decide)) x

theorem nextChunk_whole {line data ending : Bytes}
    (hfind : ∀ x, findSubslice crlf (line ++ crlf ++ x) = some line.length)
    (hsize : chunkSize line = .ok data.length) (hdata : data ≠ []) (hending : ending.length = 2)
    (hlen : (line ++ crlf ++ (data ++ ending)).length < 2 ^ 63) (x : Bytes) :
    nextChunk checks (line ++ crlf ++ (data ++ ending) ++ x) =
      .ok (some (.data data, (line ++ crlf ++ (data ++ ending)).length)) := by
  have hne : data.length ≠ 0 := fun h => hdata (List.length_eq_zero_iff.mp h)
  have hall : (line ++ crlf ++ (data ++ ending)).length =
      (line ++ crlf).length + data.length + 2 := by
    rw [List.length_append, @List.length_append _ data, hending, Nat.add_assoc]
  have hafter : ((data ++ ending) ++ x).length = data.length + 2 + x.length := by
    rw [List.length_append, List.length_append, hending]
  rw [List.append_assoc (line ++ crlf), nextChunk_line hfind, hsize, ok_bind, if_neg hne,
    dataChunk_eq (by omega), usizeAdd_of_lt (by omega), ok_bind, usizeAdd_of_lt (by omega), ok_bind,
    if_neg (by omega), if_pos (by omega), List.append_assoc data, List.take_left, hall]
  rfl

theorem nextChunk_data (c : SizedChunk) (hlen : c.render.length < 2 ^ 63) (x : Bytes) :
    nextChunk checks (c.render ++ x) = .ok (some (.data c.data, c.render.length)) := by
  have hsize : c.data.length < 2 ^ 64 := by
    rw [SizedChunk.render, List.length_append, @List.length_append _ c.data] at hlen
    omega
  exact nextChunk_whole (findSubslice_digits c.size) (chunkSize_digits c.size hsize) c.nonempty rfl
    hlen x

theorem nextChunk_last {zeros : List Char} (h : Numeral 16 zeros 0) (x : Bytes) :
    nextChunk checks (asBytes (String.ofList zeros) ++ crlf ++ crlf ++ x) =
      .ok (some (.last, (asBytes (String.ofList zeros) ++ crlf ++ crlf).length)) := by
  rw [List.append_assoc (asBytes _ ++ crlf), nextChunk_line (findSubslice_digits h),
    chunkSize_digits h (by decide), ok_bind, if_pos rfl, if_neg,
    @List.length_append _ (asBytes _ ++ crlf) crlf]
  · rfl
  · rw [List.length_append]
    have : crlf.length = 2 := rfl
    omega

theorem decodeChunkedLoop_render (chunks : List SizedChunk) {zeros : List Char}
    (hzeros : Numeral 16 zeros 0)
    (hlen : (chunks.flatMap SizedChunk.render).length < 2 ^ 63) (x body : Bytes)
    (consumed fuel : Nat)
    (hfuel : (chunks.flatMap SizedChunk.render).length < fuel) :
    decodeChunkedLoop checks fuel (chunks.flatMap SizedChunk.render ++
        (asBytes (String.ofList zeros) ++ crlf ++ crlf) ++ x) body consumed =
      .ok (some (body ++ chunks.flatMap (·.data),
        consumed + (chunks.flatMap SizedChunk.render ++
          (asBytes (String.ofList zeros) ++ crlf ++ crlf)).length)) := by
  induction chunks generalizing body consumed fuel with
  | nil =>
    obtain ⟨k, rfl⟩ : ∃ k, fuel = k + 1 := ⟨fuel - 1, by omega⟩
    rw [List.flatMap_nil, List.flatMap_nil, List.nil_append, List.append_nil, decodeChunkedLoop,
      nextChunk_last hzeros, ok_bind]
    rfl
  | cons c chunks ih =>
    rw [List.flatMap_cons, List.length_append] at hlen hfuel
    have hpos : 0 < c.render.length := by
      rw [SizedChunk.render, List.length_append, List.length_append]
      exact Nat.add_pos_left (Nat.add_pos_right _ (by decide)) _
    obtain ⟨k, rfl⟩ : ∃ k, fuel = k + 1 := ⟨fuel - 1, by omega⟩
    rw [List.flatMap_cons, List.flatMap_cons, List.append_assoc c.render, List.append_assoc c.render,
      decodeChunkedLoop, nextChunk_data c (by omega), ok_bind]
    simp only [List.drop_left]
    rw [ih (by omega) (body ++ c.data) (consumed + c.render.length) k (by omega),
      List.append_assoc body, @List.length_append _ c.render, Nat.add_assoc]

theorem parseBody_render (m : Message) {h : Headers} (hd : Declared m.fields h)
    (hlen : m.body.render.length < 2 ^ 63) (x : Bytes) :
    parseBody checks h (m.body.render ++ x) = .ok (some (m.body.bytes, m.body.render.length)) := by
  have hchunked : h.chunked = m.body.isChunked := by
    rw [Bool.eq_iff_iff, hd.chunked, m.isChunked]
  have hunannounced := m.unannounced
  have hannounced := m.announced
  unfold parseBody
  rw [hchunked]
  generalize m.body = body at hlen hunannounced hannounced ⊢
  cases body with
  | chunked chunks zeros last =>
    have hchunks : (chunks.flatMap SizedChunk.render).length < 2 ^ 63 := by
      rw [Body.render, List.length_append] at hlen
      omega
    rw [Body.isChunked, if_pos rfl, decodeChunked, Body.render,
      decodeChunkedLoop_render chunks last hchunks, List.nil_append, Nat.zero_add]
    · rfl
    · rw [List.length_append, List.length_append]
      omega
  | plain data =>
    have hlength : h.contentLength.getD 0 = data.length := by
      rcases hd.length with ⟨hnone, hall⟩ | ⟨n, hsome, f, hf, hkey, hn⟩
      · have hempty : data = [] := hunannounced hall rfl
        rw [hnone, hempty]
        rfl
      · obtain ⟨n', hn', hdata⟩ := hannounced f hf hkey
        have heq := Option.some.inj (hn.symm.trans hn'.length)
        rw [hsome, Option.getD_some, heq]
        exact hdata rfl
    have hshort : ¬ (data ++ x).length < data.length := by
      rw [List.length_append]
      omega
    simp only [Body.isChunked, Body.render, Body.bytes, hlength, hshort, List.take_left, if_false,
      Bool.false_eq_true]

theorem parseMessage_render {expected : Bytes} (hexpected : IsProtocol expected) (m : Message)
    (hlen : (m.render expected).length < 2 ^ 63) (x : Bytes) :
    parseMessage checks (m.render expected ++ x) expected =
      .ok (.complete m.response (m.render expected).length) := by
  obtain ⟨h, hhead, hd⟩ := m.parseHead_head hexpected
  have hbody : m.body.render.length < 2 ^ 63 := by
    rw [Message.render, List.length_append] at hlen
    omega
  rw [Message.render, List.append_assoc _ m.body.render,
    parseMessage_head expected (m.findSubslice_head hexpected), hhead, ok_bind]
  simp only [parseBody_render m hd hbody, ok_bind, pure_eq_ok, ParseOutcome.ofBody, hd.contentType]
  rw [@List.length_append _ _ m.body.render]
  rfl

end
end HapRust.Transport
