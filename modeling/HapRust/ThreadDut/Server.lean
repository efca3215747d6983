import HapRust.Thread.Coap
import HapRust.ThreadDut.Accessory

/-! The reference accessory as a CoAP server: what it answers to a datagram, in one
piece, separately after an empty acknowledgement, or block by block. -/

namespace HapRust.Thread
open Lib

namespace Packet
variable [CoapLite]

/-- The datagram as it arrives in a receive buffer of this size. -/
def received (p : Packet) (recvBuf : Nat) : Packet :=
  { p with payload := p.payload.take (recvBuf - CoapLite.overhead p) }

def Fits (p : Packet) (recvBuf : Nat) : Prop :=
  CoapLite.overhead p + p.payload.length ≤ recvBuf

instance (p : Packet) (recvBuf : Nat) : Decidable (p.Fits recvBuf) :=
  inferInstanceAs (Decidable (_ ≤ _))

theorem received_of_fits {p : Packet} {recvBuf : Nat} (h : p.Fits recvBuf) :
    p.received recvBuf = p := by
  rw [received, List.take_of_length_le]
  rw [Fits] at h
  omega

theorem fits_whole {kind : MessageType} {code : UInt8} {id : UInt16} {token payload : Bytes}
    {recvBuf : Nat} (htoken : token.length = 2) (h : payload.length + 7 ≤ recvBuf) :
    (⟨kind, code, id, token, "", none, payload⟩ : Packet).Fits recvBuf := by
  have hoverhead := CoapLite.overhead_root (p := ⟨kind, code, id, token, "", none, payload⟩) rfl
  simp only [htoken, Option.isSome_none, Bool.false_eq_true, if_false] at hoverhead
  simp only [Fits]
  omega

end Packet

def recvBuf : Nat := 16 * 1024

end HapRust.Thread

namespace HapRust.ThreadDut
open Lib Crypto Thread

def recvBuf : Nat := 1500

def ResponseCode.byte : ResponseCode → UInt8
  | .changed => 0x44
  | .badRequest => 0x80
  | .unauthorized => 0x81
  | .notFound => 0x84
  | .internalServerError => 0xA0

structure Draws where
  salt : Bytes
  b : Nat
  ephemeralSecret : Arr 32

structure Server where
  accessory : ReferenceAccessory
  nextMid : UInt16
  slow : Bool
  blockwise : Option Nat
  blockCache : Option (UInt8 × Bytes)

namespace Server

def inputOf (draws : Draws) (path : String) (payload : Bytes) : ReferenceAccessory.Input :=
  if path = "0" then .identify
  else if path = "2" then .pairVerify draws.ephemeralSecret payload
  else if path = "1" then .pairSetup draws.salt draws.b payload
  else if path = "" then .secure payload
  else .unknown

def sendWhole (s : Server) (req : Packet) (code : UInt8) (payload : Bytes) : List Packet × Server :=
  if s.slow then
    ([.emptyAck req.messageId, ⟨.confirmable, code, s.nextMid, req.token, "", none, payload⟩],
      { s with nextMid := s.nextMid + 1 })
  else ([⟨.acknowledgement, code, req.messageId, req.token, "", none, payload⟩], s)

section
variable [CoapLite] (P : Primitives)

def sendBlock (s : Server) (messageId : UInt16) (token : Bytes) (code : UInt8) (full : Bytes)
    (num bs : Nat) : List Packet × Server :=
  let start := min (num * bs) full.length
  let stop := min (start + bs) full.length
  let more := decide (stop < full.length)
  ([⟨.acknowledgement, code, messageId, token, "",
      (CoapLite.newBlock num more bs).toOption, (full.drop start).take (stop - start)⟩],
    if more then s else { s with blockCache := none })

def sendResponse (s : Server) (req : Packet) (code : UInt8) (payload : Bytes) :
    List Packet × Server :=
  match s.blockwise with
  | some bs =>
    if bs < payload.length then
      { s with blockCache := some (code, payload) }.sendBlock req.messageId req.token code payload 0 bs
    else s.sendWhole req code payload
  | none => s.sendWhole req code payload

def serveCachedBlock (s : Server) (req : Packet) (num bs : Nat) : List Packet × Server :=
  match s.blockCache with
  | some (code, payload) => s.sendBlock req.messageId req.token code payload num bs
  | none => ([], s)

def answer (s : Server) (draws : Draws) (req : Packet) : List Packet × Server :=
  let ((code, payload), accessory) := s.accessory.handle P (inputOf draws req.uriPath req.payload)
  { s with accessory := accessory }.sendResponse req code.byte payload

def serve (s : Server) (draws : Draws) (datagram : Packet) : List Packet × Server :=
  let req := datagram.received recvBuf
  if req.kind = .acknowledgement then ([], s)
  else
    match s.blockwise, req.block2 with
    | some bs, some block =>
      -- a continuation is answered from the cache
      if 0 < block.num then s.serveCachedBlock req block.num.toNat bs else s.answer P draws req
    | _, _ => s.answer P draws req

end

end Server
end HapRust.ThreadDut
