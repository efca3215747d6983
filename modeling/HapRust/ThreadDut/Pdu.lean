import HapRust.Thread.Session

/-! The accessory's codec for request and response PDUs. -/

namespace HapRust.ThreadDut
open Lib Tlv8

structure Request where
  opcode : UInt8
  tid : UInt8
  iid : UInt16
  body : Bytes
  deriving DecidableEq

def decodeRequest : Bytes → Except DutError (Request × Bytes)
  | _ :: opcode :: tid :: iid0 :: iid1 :: len0 :: len1 :: tail =>
    let len := leNat [len0, len1]
    if tail.length < len then .error (.protocol "request body shorter than declared")
    else .ok (⟨opcode, tid, UInt16.ofNat (leNat [iid0, iid1]), tail.take len⟩, tail.drop len)
  | _ => .error (.protocol "request PDU shorter than its 7-byte header")

def decodeRequestsFuel : Nat → Bytes → Except DutError (List Request)
  | _, [] => .ok []
  | 0, _ :: _ => .ok []
  | fuel + 1, b :: pdu => do
    let (req, rest) ← decodeRequest (b :: pdu)
    let reqs ← decodeRequestsFuel fuel rest
    return req :: reqs

def decodeRequests (pdu : Bytes) : Except DutError (List Request) :=
  decodeRequestsFuel pdu.length pdu

def encodeResponse (tid status : UInt8) (body : Bytes) : Bytes :=
  [0x02, tid, status] ++ leBytes 2 (min body.length 65535) ++ body

def paramValue : UInt8 := 0x01

def valueBody (value : Bytes) : Bytes := Tlv8Writer.push [] paramValue value

def extractValue (body : Bytes) : Except DutError Bytes := do
  let map ← mapErr DutError.tlv8 (Tlv8Map.parse body)
  okOr (map.get paramValue) (.protocol "write body missing value param")

end HapRust.ThreadDut
