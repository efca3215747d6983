import HapRust.Transport.Record

/-! The HTTP parser: one message off the front of a buffer, with a body of
declared length or in chunks. -/

namespace HapRust.Transport
open Lib

/-- How a call may end other than by returning a value. -/
inductive Fault where
  | err (e : TransportError)
  | panic
  deriving DecidableEq, Repr

structure HapResponse where
  status : UInt16
  contentType : String
  body : Bytes
  deriving DecidableEq

inductive ParseOutcome where
  | complete (response : HapResponse) (consumed : Nat)
  | incomplete
  deriving DecidableEq

def eventPrefix : Bytes := asBytes "EVENT/1.0"
def httpPrefix : Bytes := asBytes "HTTP/1.1"
def crlf : Bytes := [13, 10]

structure Request where
  method : String
  path : String
  contentType : String
  body : Bytes
  deriving DecidableEq

def encodeRequest (q : Request) : Bytes :=
  asBytes q.method ++ asBytes " " ++ asBytes q.path ++ asBytes " HTTP/1.1\r\nContent-Type: " ++
    asBytes q.contentType ++ asBytes "\r\nContent-Length: " ++ asBytes (toString q.body.length) ++
    asBytes "\r\n\r\n" ++ q.body

def malformed (msg : String) : Fault := .err (.malformedHttp msg)

def findSubslice (needle : Bytes) : Bytes → Option Nat
  | [] => none
  | b :: t => if needle <+: b :: t then some 0 else (findSubslice needle t).map (· + 1)

def splitCrlf (block : Bytes) : List Bytes :=
  (block.splitOn 10).map fun l => if l.getLast? = some 13 then l.dropLast else l

section
variable (checks : Bool)

def usizeAdd (a b : Nat) : Except Fault Nat :=
  if a + b < 2 ^ 64 then .ok (a + b)
  else if checks then .error .panic
  else .ok ((a + b) % 2 ^ 64)

def slice (rest : Bytes) (start stop : Nat) : Except Fault Bytes :=
  if start ≤ stop ∧ stop ≤ rest.length ∧ stop < 2 ^ 63 then .ok ((rest.take stop).drop start)
  else .error .panic

inductive Chunk where
  | last
  | data (bytes : Bytes)
  deriving DecidableEq

def chunkSize (line : Bytes) : Except Fault Nat := do
  let sizeStr ← okOr (fromUtf8 line) (malformed "bad chunk size")
  okOr (fromStrRadix 64 16 (trim sizeStr)) (malformed "bad chunk size")

def dataChunk (rest : Bytes) (afterSize size : Nat) : Except Fault (Option (Chunk × Nat)) := do
  let dataEnd ← usizeAdd checks afterSize size
  let chunkEnd ← usizeAdd checks dataEnd 2
  if rest.length < chunkEnd then return none
  else
    let data ← slice rest afterSize dataEnd
    return some (.data data, chunkEnd)

def nextChunk (rest : Bytes) : Except Fault (Option (Chunk × Nat)) :=
  match findSubslice crlf rest with
  | none => .ok none
  | some nl => do
    let size ← chunkSize (rest.take nl)
    let afterSize := nl + 2
    if size = 0 then
      if rest.length < afterSize + 2 then return none
      else return some (.last, afterSize + 2)
    else dataChunk checks rest afterSize size

def decodeChunkedLoop : Nat → Bytes → Bytes → Nat → Except Fault (Option (Bytes × Nat))
  | 0, _, _, _ => .ok none
  | fuel + 1, rest, body, consumed => do
    match ← nextChunk checks rest with
    | none => return none
    | some (.last, stop) => return some (body, consumed + stop)
    | some (.data data, chunkEnd) =>
      decodeChunkedLoop fuel (rest.drop chunkEnd) (body ++ data) (consumed + chunkEnd)

def decodeChunked (rest : Bytes) : Except Fault (Option (Bytes × Nat)) :=
  decodeChunkedLoop checks (rest.length + 1) rest [] 0

def parseStatusCode (startLine : Bytes) : Except Fault UInt16 := do
  let code ← okOr (startLine.splitOn 32)[1]? (malformed "missing status code")
  let status ← okOr ((fromUtf8 code).bind (fromStrRadix 16 10))
    (malformed "non-numeric status code")
  return UInt16.ofNat status

structure Headers where
  contentType : String
  contentLength : Option Nat
  chunked : Bool
  deriving DecidableEq

def parseHeader (h : Headers) (line : Bytes) : Except Fault Headers := do
  let colon ← okOr (line.findIdx? (· == 58)) (malformed "header without colon")
  let name := toAsciiLowercase (trim (fromUtf8Lossy (line.take colon)))
  let value := trim (fromUtf8Lossy (line.drop (colon + 1)))
  if name = "content-type" then return { h with contentType := value }
  else if name = "content-length" then
    let len ← okOr (fromStrRadix 64 10 value) (malformed "bad Content-Length")
    return { h with contentLength := some len }
  else if name = "transfer-encoding" then
    if eqIgnoreAsciiCase value "chunked" then return { h with chunked := true }
    else throw (.err (.unsupportedEncoding value))
  else return h

def parseHead (headerBlock expected : Bytes) : Except Fault (UInt16 × Headers) :=
  match splitCrlf headerBlock with
  | [] => .error (malformed "empty start line")
  | startLine :: lines => do
    ensure (expected <+: startLine)
      (malformed ("unexpected start line: " ++ fromUtf8Lossy startLine))
    let status ← parseStatusCode startLine
    let headers ← lines.foldlM parseHeader ⟨"", none, false⟩
    return (status, headers)

def parseBody (h : Headers) (rest : Bytes) : Except Fault (Option (Bytes × Nat)) :=
  if h.chunked then decodeChunked checks rest
  else
    let len := h.contentLength.getD 0
    if rest.length < len then .ok none else .ok (some (rest.take len, len))

def ParseOutcome.ofBody (status : UInt16) (h : Headers) (bodyStart : Nat) :
    Option (Bytes × Nat) → ParseOutcome
  | none => .incomplete
  | some (body, bodyLen) => .complete ⟨status, h.contentType, body⟩ (bodyStart + bodyLen)

def parseMessage (buf expected : Bytes) : Except Fault ParseOutcome :=
  match findSubslice (crlf ++ crlf) buf with
  | none => .ok .incomplete
  | some headersEnd => do
    let head ← parseHead (buf.take headersEnd) expected
    let body ← parseBody checks head.2 (buf.drop (headersEnd + 4))
    return .ofBody head.1 head.2 (headersEnd + 4) body

end

end HapRust.Transport
