import HapRust.Lib.Bytes
import HapRust.Lib.Dialogue
import HapRust.Lib.Run
import Mathlib.Logic.Function.Basic

/-! The CoAP client over UDP. Any number of posts run on one socket; each is a
sequence of exchanges, and each exchange transmits its request again until the
reader task has handed it a packet with its token. -/

namespace HapRust.Thread
open Lib Asking

inductive MessageType where
  | confirmable
  | nonConfirmable
  | acknowledgement
  | reset
  deriving DecidableEq, Repr

structure BlockValue where
  num : UInt16
  more : Bool
  sizeExponent : Fin 8
  deriving DecidableEq, Repr

def blockSize (sizeExponent : Fin 8) : Nat := 2 ^ (sizeExponent.val + 4)

def exponent (size : Nat) : Fin 8 := Fin.ofNat 8 (size.log2 - 4)

theorem exponent_blockSize (e : Fin 8) :
    exponent (blockSize e) = e ∧ 16 ≤ blockSize e ∧ blockSize e < 4096 := by
  revert e
  decide

/-- A decoded datagram, with the options the client looks at. -/
structure Packet where
  kind : MessageType
  code : UInt8
  messageId : UInt16
  token : Bytes
  uriPath : String
  block2 : Option BlockValue
  payload : Bytes
  deriving DecidableEq, Repr

namespace Packet

def isEmpty (p : Packet) : Bool := p.code = 0

def isEventPut (p : Packet) : Bool := p.kind = .confirmable && p.code ≠ 0 && p.code >>> 5 = 0

def splitCode (p : Packet) : UInt8 × UInt8 := (p.code >>> 5, p.code &&& 0x1f)

def ack (code : UInt8) (messageId : UInt16) (token : Bytes) : Packet :=
  ⟨.acknowledgement, code, messageId, token, "", none, []⟩

def emptyAck (messageId : UInt16) : Packet := ack 0 messageId []

end Packet

/-- What is used of the CoAP library, and what it has to be like. -/
class CoapLite where
  newBlock : Nat → Bool → Nat → Except String BlockValue
  /-- The bytes of the encoded packet before its payload. -/
  overhead : Packet → Nat
  newBlock_ok : ∀ {num size : Nat} (more : Bool), num < 2 ^ 16 → 16 ≤ size → size < 4096 →
    newBlock num more size = .ok ⟨UInt16.ofNat num, more, exponent size⟩
  newBlock_large : ∀ {num : Nat} (more : Bool) (size : Nat), 2 ^ 16 ≤ num →
    ∃ e, newBlock num more size = .error e
  overhead_root : ∀ {p : Packet}, p.uriPath = "" →
    overhead p ≤ 5 + p.token.length + if p.block2.isSome then 5 else 0

/-- One that does, for the examples: every option takes as many bytes as it may. -/
@[reducible] def coapLite : CoapLite where
  newBlock num more size :=
    if num < 2 ^ 16 ∧ 16 ≤ size ∧ size < 4096 then .ok ⟨UInt16.ofNat num, more, exponent size⟩
    else .error "invalid block value"
  overhead p :=
    5 + p.token.length + p.uriPath.utf8ByteSize + if p.block2.isSome then 5 else 0
  newBlock_ok more hnum hlow hhigh := if_pos ⟨hnum, hlow, hhigh⟩
  newBlock_large more size hnum := ⟨_, if_neg fun h => Nat.not_lt.mpr hnum h.1⟩
  overhead_root h := by
    rw [h]
    exact Nat.le_refl _

inductive CoapError where
  | io
  | coap (msg : String)
  deriving DecidableEq, Repr

structure CoapResponse where
  code : UInt8 × UInt8
  payload : Bytes
  deriving DecidableEq, Repr

def maxTransmissions : Nat := 4
def maxBlocks : Nat := 1024

/-! ## Posts -/

inductive CoapCall where
  | nextMessageId
  | exchange (request : Packet)
  deriving DecidableEq

structure CoapAnswer where
  id : UInt16
  response : Except CoapError Packet

abbrev CoapM := Asking CoapCall CoapAnswer CoapError

def nextMessageId : CoapM UInt16 := do
  let answer ← ask .nextMessageId
  return answer.id

def exchange (request : Packet) : CoapM Packet := do
  let answer ← ask (.exchange request)
  lift answer.response

def frame (path : String) (payload token : Bytes) : CoapM Packet := do
  let id ← nextMessageId
  return ⟨.confirmable, 0x02, id, token, path, none, payload⟩

def freshToken : CoapM Bytes := do
  let id ← nextMessageId
  return [UInt8.ofNat (id.toNat / 256), UInt8.ofNat id.toNat]

section
variable [CoapLite]

def BlockValue.following (block : BlockValue) (sizeExponent : Fin 8) :
    Except CoapError BlockValue :=
  mapErr (fun e => .coap ("invalid Block2 request: " ++ e))
    (CoapLite.newBlock (block.num.toNat + 1) false (blockSize sizeExponent))

def fetchBlocks (path : String) (sizeExponent : Fin 8) :
    Nat → UInt8 × UInt8 → BlockValue → Bytes → CoapM CoapResponse
  | left, code, block, full =>
    if block.more then
      match left with
      | 0 => throw (.coap "too many Block2 fragments in one response")
      | left + 1 => do
        let requestBlock2 ← lift (block.following sizeExponent)
        let token ← freshToken
        let request ← frame path [] token
        let r ← exchange { request with block2 := some requestBlock2 }
        match r.block2 with
        | some next => fetchBlocks path sizeExponent left r.splitCode next (full ++ r.payload)
        | none => return ⟨r.splitCode, full ++ r.payload⟩
    else return ⟨code, full⟩

def post (path : String) (payload : Bytes) : CoapM CoapResponse := do
  let token ← freshToken
  let request ← frame path payload token
  let resp ← exchange request
  match resp.block2 with
  | none => return ⟨resp.splitCode, resp.payload⟩
  | some block =>
    fetchBlocks path block.sizeExponent (maxBlocks - 1) resp.splitCode block resp.payload

end

/-! ## The socket -/

inductive Sending where
  | sent
  | refused
  | unencodable (e : String)
  deriving DecidableEq, Repr

inductive ExchangePhase where
  | transmitted (left : Nat)
  | acknowledged
  deriving DecidableEq, Repr

structure Exchange where
  request : Packet
  channel : Nat
  phase : ExchangePhase
  -- An empty acknowledgement of the request's message id has been received,
  acked : Bool
  -- and how often the request has been transmitted since.
  late : Nat
  deriving DecidableEq

def Exchange.note (p : Packet) (e : Exchange) : Exchange :=
  { e with acked := e.acked ||
      (p.kind = .acknowledgement && p.isEmpty && p.messageId = e.request.messageId) }

structure Post where
  program : Dialogue CoapCall CoapAnswer (Except CoapError CoapResponse)
  exchange : Option Exchange

def Post.note (p : Packet) (x : Post) : Post := { x with exchange := x.exchange.map (Exchange.note p) }

structure UdpCoapTransport where
  messageId : UInt16
  pending : Bytes → Option Nat
  channels : Nat → List Packet
  opened : Nat
  posts : Nat → Option Post
  events : List Bytes
  sent : List Packet
  ended : List (Bool × Except CoapError Packet)

/-- Steps of the posts and of the reader. Where a datagram is sent, it is said what comes of it;
one that is sent again has been encoded before. -/
inductive CoapAction where
  | post (t : Nat) (path : String) (payload : Bytes)
  | allocate (t : Nat)
  | transmit (t : Nat) (sending : Sending)
  | datagram (p : Packet)
  | receive (t : Nat) (sending : Sending)
  | elapsed (t : Nat) (taken : Bool)
  | closed (t : Nat)
  | finish (t : Nat)
  | drop (t : Nat)
  deriving DecidableEq

namespace UdpCoapTransport

def connect : UdpCoapTransport := ⟨1, fun _ => none, fun _ => [], 0, fun _ => none, [], [], []⟩

def setPost (s : UdpCoapTransport) (t : Nat) (x : Option Post) : UdpCoapTransport :=
  { s with posts := Function.update s.posts t x }

def send (s : UdpCoapTransport) (p : Packet) : UdpCoapTransport := { s with sent := s.sent ++ [p] }

def running (s : UdpCoapTransport) (t : Nat) : Option (Exchange × (CoapAnswer → Post)) :=
  match s.posts t with
  | some ⟨.ask _ next, some e⟩ => some (e, fun answer => ⟨next answer, none⟩)
  | _ => none

def setExchange (s : UdpCoapTransport) (t : Nat) (e : Exchange) : UdpCoapTransport :=
  { s with posts := Function.update s.posts t ((s.posts t).map fun x => { x with exchange := some e }) }

def finishExchange (s : UdpCoapTransport) (t : Nat) (e : Exchange) (next : CoapAnswer → Post)
    (result : Except CoapError Packet) : UdpCoapTransport :=
  { s.setPost t (some (next ⟨0, result⟩)) with
    pending := Function.update s.pending e.request.token none
    ended := s.ended ++ [(e.acked, result)] }

def accept (s : UdpCoapTransport) (t : Nat) (e : Exchange) (next : CoapAnswer → Post) (p : Packet)
    (sending : Sending) : UdpCoapTransport :=
  if p.kind = .confirmable then
    match sending with
    | .sent => (s.send (.emptyAck p.messageId)).finishExchange t e next (.ok p)
    | .refused => s.finishExchange t e next (.error .io)
    | .unencodable msg =>
      s.finishExchange t e next (.error (.coap ("could not encode CoAP ACK: " ++ msg)))
  else s.finishExchange t e next (.ok p)

def beginExchange (s : UdpCoapTransport) (t : Nat) (request : Packet) : UdpCoapTransport :=
  { s with
    pending := Function.update s.pending request.token (some s.opened)
    channels := Function.update s.channels s.opened []
    opened := s.opened + 1 }.setExchange t
      ⟨request, s.opened, .transmitted (maxTransmissions - 1), false, 0⟩

def route (s : UdpCoapTransport) (p : Packet) : UdpCoapTransport :=
  match s.pending p.token with
  | some c => { s with channels := Function.update s.channels c (s.channels c ++ [p]) }
  | none => s

def readerLoop (s : UdpCoapTransport) (p : Packet) : UdpCoapTransport :=
  let s := { s with posts := fun t => (s.posts t).map (Post.note p) }
  if p.isEventPut then
    { s.send (.ack 0x43 p.messageId p.token) with events := s.events ++ [p.payload] }
  else s.route p

def receive (s : UdpCoapTransport) (t : Nat) (sending : Sending) : Option UdpCoapTransport :=
  match s.running t with
  | some (e, next) =>
    match s.channels e.channel with
    | p :: rest =>
      let s := { s with channels := Function.update s.channels e.channel rest }
      if p.isEmpty then some (s.setExchange t { e with phase := .acknowledged })
      else some (s.accept t e next p sending)
    | [] => none
  | none => none

def elapsed (s : UdpCoapTransport) (t : Nat) (taken : Bool) : Option UdpCoapTransport :=
  match s.running t with
  | some (e, next) =>
    if s.channels e.channel = [] then
      match e.phase with
      | .transmitted (left + 1) =>
        if taken then
          some ((s.send e.request).setExchange t
            { e with phase := .transmitted left, late := if e.acked then e.late + 1 else e.late })
        else some (s.finishExchange t e next (.error .io))
      | .transmitted 0 => some (s.finishExchange t e next
          (.error (.coap "no CoAP response after maximum retransmissions")))
      | .acknowledged => some (s.finishExchange t e next
          (.error (.coap "no separate CoAP response after the empty ACK")))
    else none
  | none => none

def step [CoapLite] (s : UdpCoapTransport) : CoapAction → Option UdpCoapTransport
  | .post t path payload =>
    if (s.posts t).isNone then some (s.setPost t (some ⟨Thread.post path payload, none⟩)) else none
  | .allocate t =>
    match s.posts t with
    | some ⟨.ask .nextMessageId next, _⟩ =>
      some { s.setPost t (some ⟨next ⟨s.messageId, .error .io⟩, none⟩) with
        messageId := s.messageId + 1 }
    | _ => none
  | .transmit t sending =>
    match s.posts t with
    | some ⟨.ask (.exchange request) next, none⟩ =>
      match sending with
      | .sent => some ((s.beginExchange t request).send request)
      -- the token is registered, and deregistered again
      | .refused => some { s.setPost t (some ⟨next ⟨0, .error .io⟩, none⟩) with
          pending := Function.update s.pending request.token none }
      | .unencodable e => some (s.setPost t (some ⟨next
          ⟨0, .error (.coap ("could not encode CoAP request: " ++ e))⟩, none⟩))
    | _ => none
  | .datagram p => some (s.readerLoop p)
  | .receive t sending => s.receive t sending
  | .elapsed t taken => s.elapsed t taken
  | .closed t =>
    match s.running t with
    | some (e, next) =>
      -- another exchange has taken over its token, or given it up
      if s.channels e.channel = [] ∧ s.pending e.request.token ≠ some e.channel then
        some (s.finishExchange t e next (.error (.coap "CoAP reader task stopped")))
      else none
    | none => none
  | .finish t =>
    match s.posts t with
    | some ⟨.ret _, _⟩ => some (s.setPost t none)
    | _ => none
  | .drop t => if (s.posts t).isSome then some (s.setPost t none) else none

end UdpCoapTransport
end HapRust.Thread
