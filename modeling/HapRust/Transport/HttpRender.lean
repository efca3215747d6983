import HapRust.Transport.HttpMessages

/-! Responses as an accessory writes them, with the length of the body or with
the body in chunks, and what the parser makes of them when they arrive in parts. -/

namespace HapRust.Transport
open Lib

/-- A text that a header line can hold and give back. -/
structure HeaderText (s : String) : Prop where
  cr : '\r' ∉ s.toList
  lf : '\n' ∉ s.toList
  trimmed : trim s = s

def renderStart (expected : Bytes) (status : UInt16) (reason contentType : String) : Bytes :=
  expected ++ asBytes " " ++ asBytes (toString status.toNat) ++ asBytes " " ++ asBytes reason ++
    asBytes "\r\nContent-Type: " ++ asBytes contentType

def renderWithLength (expected : Bytes) (status : UInt16) (reason contentType : String)
    (body : Bytes) : Bytes :=
  renderStart expected status reason contentType ++ asBytes "\r\nContent-Length: " ++
    asBytes (toString body.length) ++ asBytes "\r\n\r\n" ++ body

def renderChunk (data : Bytes) : Bytes :=
  asBytes (String.ofList (Nat.toDigits 16 data.length)) ++ asBytes "\r\n" ++ data ++ asBytes "\r\n"

def renderChunked (expected : Bytes) (status : UInt16) (reason contentType : String)
    (chunks : List Bytes) : Bytes :=
  renderStart expected status reason contentType ++
    asBytes "\r\nTransfer-Encoding: chunked\r\n\r\n" ++ chunks.flatMap renderChunk ++
    asBytes "0\r\n\r\n"

/-! ## Rendered responses are well formed -/

theorem asBytes_append (s t : String) : asBytes (s ++ t) = asBytes s ++ asBytes t := by
  rw [asBytes_eq, asBytes_eq, asBytes_eq, String.toList_append, List.flatMap_append]

theorem noBreak_asBytes {s : String} (hcr : '\r' ∉ s.toList) (hlf : '\n' ∉ s.toList) :
    NoBreak (asBytes s) where
  cr hmem := hcr (mem_of_mem_asBytes (by decide) hmem)
  lf hmem := hlf (mem_of_mem_asBytes (by decide) hmem)

theorem trim_space (s : String) : trim (" " ++ s) = trim s := by
  have hspace : (" " ++ s).toList = ' ' :: s.toList := String.toList_append
  rw [trim, hspace, List.dropWhile_cons_of_pos (by decide)]
  rfl

def Field.spaced (name value : String) (hcolon : (58 : UInt8) ∉ asBytes name) : Field :=
  ⟨asBytes name, 32 :: asBytes value, hcolon⟩

section
variable {name value : String} {hcolon : (58 : UInt8) ∉ asBytes name}

theorem Field.key_spaced : (Field.spaced name value hcolon).key = toAsciiLowercase (trim name) := by
  rw [Field.key, Field.spaced, fromUtf8Lossy_asBytes]

theorem Field.content_spaced : (Field.spaced name value hcolon).content = trim value := by
  have hspace : 32 :: asBytes value = asBytes (" " ++ value) := by
    rw [asBytes_append]
    rfl
  rw [Field.content, Field.spaced, hspace, fromUtf8Lossy_asBytes, trim_space]

theorem Field.noBreak_spaced (hname : NoBreak (asBytes name)) (hvalue : NoBreak (asBytes value)) :
    NoBreak (Field.spaced name value hcolon).line where
  cr := by simp [Field.line, Field.spaced, hname.cr, hvalue.cr]
  lf := by simp [Field.line, Field.spaced, hname.lf, hvalue.lf]

end

def Field.ofContentType (contentType : String) : Field :=
  .spaced "Content-Type" contentType (by decide)

theorem noBreak_numeral {radix n : Nat} {digits : List Char} (h : Numeral radix digits n) :
    NoBreak (asBytes (String.ofList digits)) :=
  ⟨h.not_mem (by decide) (by decide), h.not_mem (by decide) (by decide)⟩

theorem numeral_decimal (n : Nat) : Numeral 10 (Nat.toDigits 10 n) n :=
  numeral_toDigits (by decide) (by decide) n

def Field.ofLength (n : Nat) : Field :=
  .spaced "Content-Length" (String.ofList (Nat.toDigits 10 n)) (by decide)

def Field.ofChunked : Field := .spaced "Transfer-Encoding" "chunked" (by decide)

theorem key_ofContentType (contentType : String) :
    (Field.ofContentType contentType).key = "content-type" := Field.key_spaced

theorem key_ofLength (n : Nat) : (Field.ofLength n).key = "content-length" := Field.key_spaced

theorem key_ofChunked : Field.ofChunked.key = "transfer-encoding" := Field.key_spaced

theorem noBreak_ofContentType {contentType : String} (h : HeaderText contentType) :
    NoBreak (Field.ofContentType contentType).line :=
  Field.noBreak_spaced (noBreak_asBytes (by decide) (by decide)) (noBreak_asBytes h.cr h.lf)

theorem noBreak_ofLength (n : Nat) : NoBreak (Field.ofLength n).line :=
  Field.noBreak_spaced (noBreak_asBytes (by decide) (by decide)) (noBreak_numeral (numeral_decimal n))

theorem noBreak_ofChunked : NoBreak Field.ofChunked.line :=
  Field.noBreak_spaced (noBreak_asBytes (by decide) (by decide))
    (noBreak_asBytes (by decide) (by decide))

theorem announces_ofLength {n : Nat} (hn : n < 2 ^ 64) : (Field.ofLength n).Announces n := by
  refine ⟨hn, Nat.toDigits 10 n, ?_, numeral_decimal n⟩
  rw [Field.ofLength, Field.content_spaced, trim_of_no_whitespace (numeral_decimal n).no_whitespace]

theorem contentType_fields {contentType : String} (hcontent : HeaderText contentType) {f : Field}
    (hf : f.key ≠ "content-type") :
    Message.contentType [.ofContentType contentType, f] = contentType := by
  have hfields : [.ofContentType contentType, f] =
      [.ofContentType contentType] ++ [f] := rfl
  rw [hfields, contentType_snoc, if_neg hf, ← List.nil_append [_], contentType_snoc,
    if_pos (key_ofContentType _), Field.ofContentType, Field.content_spaced, hcontent.trimmed]

section
variable (status : UInt16) (reason contentType : String)
  (hreason : NoBreak (asBytes reason)) (hcontent : HeaderText contentType)

def StartLine.ofStatus : StartLine where
  status := status
  code := Nat.toDigits 10 status.toNat
  numeral := numeral_decimal _
  reason := some (asBytes reason)
  noBreak := fun _ hr => Option.some.inj hr ▸ hreason

def Message.withLength (body : Bytes) (hbody : body.length < 2 ^ 64) : Message where
  start := .ofStatus status reason hreason
  fields := [.ofContentType contentType, .ofLength body.length]
  noBreak := by simp [noBreak_ofContentType hcontent, noBreak_ofLength]
  body := .plain body
  encoding := by simp [key_ofContentType, key_ofLength]
  isChunked := by simp [Body.isChunked, key_ofContentType, key_ofLength]
  announced := by
    have hlength : ∃ n, (Field.ofLength body.length).Announces n ∧
        ((Body.plain body).isChunked = false → n = body.length) :=
      ⟨body.length, announces_ofLength hbody, fun _ => rfl⟩
    simp [key_ofContentType, key_ofLength, hlength, Body.bytes]
  unannounced := by simp [key_ofLength]

def SizedChunk.ofData (data : Bytes) (hdata : data ≠ []) : SizedChunk where
  digits := Nat.toDigits 16 data.length
  data := data
  nonempty := hdata
  size := numeral_toDigits (by decide) (by decide) _

def Message.inChunks (chunks : List Bytes) (hchunks : ∀ c ∈ chunks, c ≠ []) : Message where
  start := .ofStatus status reason hreason
  fields := [.ofContentType contentType, .ofChunked]
  noBreak := by simp [noBreak_ofContentType hcontent, noBreak_ofChunked]
  body := .chunked (chunks.attach.map fun c => .ofData c.1 (hchunks c.1 c.2)) ['0'] ⟨by simp, rfl⟩
  encoding := by
    have hchunked : Field.ofChunked.content = "chunked" := Field.content_spaced
    simp [key_ofContentType, hchunked, eqIgnoreAsciiCase]
  isChunked := by simp [Body.isChunked, key_ofChunked]
  announced := by simp [key_ofContentType, key_ofChunked]
  unannounced := by simp [Body.isChunked]

theorem renderStart_eq (expected : Bytes) :
    renderStart expected status reason contentType =
      (StartLine.ofStatus status reason hreason).line expected ++
        (crlf ++ (Field.ofContentType contentType).line) := by
  have hname : asBytes "\r\nContent-Type: " = crlf ++ asBytes "Content-Type" ++ [58, 32] := rfl
  have hspace : asBytes " " = [32] := rfl
  simp only [renderStart, hname, hspace, StartLine.line, StartLine.ofStatus, Field.line,
    Field.ofContentType, Field.spaced, Option.map_some, Option.getD_some, List.append_assoc,
    List.cons_append, List.nil_append]
  rfl

theorem renderWithLength_eq (expected body : Bytes) (hbody : body.length < 2 ^ 64) :
    (Message.withLength status reason contentType hreason hcontent body hbody).render expected =
      renderWithLength expected status reason contentType body := by
  have hname : asBytes "\r\nContent-Length: " = crlf ++ asBytes "Content-Length" ++ [58, 32] := rfl
  have hblank : asBytes "\r\n\r\n" = crlf ++ crlf := rfl
  rw [renderWithLength, renderStart_eq status reason contentType hreason, hname, hblank]
  simp only [Message.render, Message.head, Message.withLength, Body.render, Field.ofLength,
    List.flatMap_cons, List.flatMap_nil, List.append_nil, List.append_assoc]
  rfl

theorem renderChunk_eq (data : Bytes) (hdata : data ≠ []) :
    (SizedChunk.ofData data hdata).render = renderChunk data := by
  have hbreak : asBytes "\r\n" = crlf := rfl
  simp only [SizedChunk.render, SizedChunk.ofData, renderChunk, hbreak, List.append_assoc]

theorem renderChunked_eq (expected : Bytes) (chunks : List Bytes) (hchunks : ∀ c ∈ chunks, c ≠ []) :
    (Message.inChunks status reason contentType hreason hcontent chunks hchunks).render expected =
      renderChunked expected status reason contentType chunks := by
  have hfield : asBytes "\r\nTransfer-Encoding: chunked\r\n\r\n" =
      crlf ++ Field.ofChunked.line ++ (crlf ++ crlf) := rfl
  have hlast : asBytes "0\r\n\r\n" = asBytes (String.ofList ['0']) ++ crlf ++ crlf := rfl
  have hdata : (chunks.attach.map fun c => SizedChunk.ofData c.1 (hchunks c.1 c.2)).flatMap
      SizedChunk.render = chunks.flatMap renderChunk := by
    rw [List.flatMap_map]
    simp only [renderChunk_eq]
    rw [← List.flatMap_map, List.attach_map_subtype_val]
  rw [renderChunked, renderStart_eq status reason contentType hreason, hfield, hlast,
    ← hdata]
  simp only [Message.render, Message.head, Message.inChunks, Body.render, List.flatMap_cons,
    List.flatMap_nil, List.append_nil, List.append_assoc]

theorem response_withLength (body : Bytes) (hbody : body.length < 2 ^ 64) :
    (Message.withLength status reason contentType hreason hcontent body hbody).response =
      ⟨status, contentType, body⟩ := by
  have htype := contentType_fields hcontent
    (by rw [key_ofLength]; decide : (Field.ofLength body.length).key ≠ "content-type")
  rw [Message.response, Message.withLength, htype]
  rfl

theorem response_inChunks (chunks : List Bytes) (hchunks : ∀ c ∈ chunks, c ≠ []) :
    (Message.inChunks status reason contentType hreason hcontent chunks hchunks).response =
      ⟨status, contentType, chunks.flatten⟩ := by
  have htype := contentType_fields hcontent
    (by rw [key_ofChunked]; decide : Field.ofChunked.key ≠ "content-type")
  have hdata : (chunks.attach.map fun c => SizedChunk.ofData c.1 (hchunks c.1 c.2)).flatMap
      (·.data) = chunks.flatten := by
    rw [List.flatMap_map, List.flatMap_def]
    simp only [SizedChunk.ofData]
    rw [List.attach_map_subtype_val]
  rw [Message.response, Message.inChunks, htype, Body.bytes, hdata]
  rfl

end

/-! ## What the parser makes of them -/

section
variable {expected : Bytes}

theorem isProtocol_of (h : expected = httpPrefix ∨ expected = eventPrefix) :
    IsProtocol expected := by
  rcases h with rfl | rfl
  · exact isProtocol_http
  · exact isProtocol_event

/-- A rendered response is read back, and no more than it is consumed. -/
theorem parseMessage_rendered (checks : Bool)
    (hexpected : expected = httpPrefix ∨ expected = eventPrefix) (status : UInt16)
    {reason contentType : String} (hreason : '\r' ∉ reason.toList ∧ '\n' ∉ reason.toList)
    (hcontent : HeaderText contentType) {body : Bytes} {chunks : List Bytes}
    (hchunks : chunks.flatten = body) (hne : ∀ c ∈ chunks, c ≠ []) (trailing : Bytes) :
    let plain := renderWithLength expected status reason contentType body
    let chunked := renderChunked expected status reason contentType chunks
    (plain.length < 2 ^ 63 → parseMessage checks (plain ++ trailing) expected =
      .ok (.complete ⟨status, contentType, body⟩ plain.length)) ∧
    (chunked.length < 2 ^ 63 → parseMessage checks (chunked ++ trailing) expected =
      .ok (.complete ⟨status, contentType, body⟩ chunked.length)) := by
  have hprotocol := isProtocol_of hexpected
  have hbreak := noBreak_asBytes hreason.1 hreason.2
  refine ⟨fun hlen => ?_, fun hlen => ?_⟩
  · have hbody : body.length < 2 ^ 64 := by
      rw [renderWithLength, List.length_append] at hlen
      omega
    rw [← renderWithLength_eq status reason contentType hbreak hcontent expected body hbody] at hlen ⊢
    rw [parseMessage_render hprotocol _ hlen, response_withLength]
  · rw [← renderChunked_eq status reason contentType hbreak hcontent expected chunks hne] at hlen ⊢
    rw [parseMessage_render hprotocol _ hlen, response_inChunks, hchunks]

theorem parseMessage_rendered_ok :
    parseMessage true (renderWithLength httpPrefix 200 "OK" "text/plain" [1, 2, 3] ++ [9]) httpPrefix =
        .ok (.complete ⟨200, "text/plain", [1, 2, 3]⟩ 67) ∧
      parseMessage true (renderChunked httpPrefix 200 "OK" "text/plain" [[1], [2, 3]] ++ [9])
        httpPrefix = .ok (.complete ⟨200, "text/plain", [1, 2, 3]⟩ 91) := by
  have h := parseMessage_rendered true (.inl rfl) 200 (by decide : '\r' ∉ "OK".toList ∧ _)
    (⟨by decide, by decide, rfl⟩ : HeaderText "text/plain")
    (rfl : [[1], [2, 3]].flatten = ([1, 2, 3] : Bytes)) (by decide) [9]
  exact ⟨h.1 (by decide +kernel), h.2 (by decide +kernel)⟩

/-- What has been decided stays, and with the rest of a message the parser no
longer waits. -/
theorem parseMessage_append (checks : Bool) (buf expected x : Bytes) :
    (∀ r n, parseMessage checks buf expected = .ok (.complete r n) →
      n ≤ buf.length ∧ parseMessage checks (buf ++ x) expected = .ok (.complete r n)) ∧
    (∀ e, parseMessage checks buf expected = .error (.err e) →
      parseMessage checks (buf ++ x) expected = .error (.err e)) ∧
    (expected = httpPrefix ∨ expected = eventPrefix → (buf ++ x).length < 2 ^ 63 →
      WellFormed expected (buf ++ x) → parseMessage checks buf expected = .ok .incomplete →
      ∃ r, parseMessage checks (buf ++ x) expected = .ok (.complete r (buf ++ x).length)) := by
  refine ⟨?_, ?_, ?_⟩
  · intro r n h
    obtain ⟨front, back, rfl, rfl, -, -, hx⟩ := parseMessage_complete h
    rw [List.append_assoc, hx, List.length_append]
    exact ⟨Nat.le_add_right _ _, rfl⟩
  · intro e h
    exact parseMessage_error h x
  · rintro hexpected hlen ⟨m, hm⟩ -
    rw [← hm] at hlen ⊢
    have hparse : parseMessage checks (m.render expected ++ []) expected =
        .ok (.complete m.response (m.render expected).length) :=
      parseMessage_render (isProtocol_of hexpected) m hlen []
    rw [List.append_nil] at hparse
    exact ⟨m.response, hparse⟩

theorem parseMessage_append_cut :
    let message := renderChunked httpPrefix 200 "OK" "text/plain" [[1], [2, 3]]
    parseMessage true (message.take 84) httpPrefix = .ok .incomplete ∧
      ∃ r, parseMessage true (message.take 84 ++ message.drop 84) httpPrefix =
        .ok (.complete r (message.take 84 ++ message.drop 84).length) := by
  intro message
  have hincomplete : parseMessage true (message.take 84) httpPrefix = .ok .incomplete := by
    decide +kernel
  have hwellFormed : WellFormed httpPrefix message :=
    ⟨_, renderChunked_eq 200 "OK" "text/plain" (noBreak_asBytes (by decide) (by decide))
      ⟨by decide, by decide, rfl⟩ httpPrefix [[1], [2, 3]] (by decide)⟩
  refine ⟨hincomplete, ?_⟩
  refine (parseMessage_append true (message.take 84) httpPrefix (message.drop 84)).2.2 (.inl rfl)
    ?_ ?_ hincomplete
  · decide +kernel
  · rw [List.take_append_drop]
    exact hwellFormed

end
end HapRust.Transport
