import HapRust.Thread.Blockwise
import HapRust.ThreadDut.Server

/-! What a post comes to when the accessory answers each of its requests at once. -/

namespace HapRust.ThreadDut
open Lib Crypto Thread

def Guarded (reliable : Bool) (fits rest : Prop) : Prop :=
  (reliable = true → fits) ∧ (fits → rest)

theorem Guarded.of_fits {reliable : Bool} {fits rest : Prop} (hfits : fits) (hrest : rest) :
    Guarded reliable fits rest := ⟨fun _ => hfits, fun _ => hrest⟩

def Hearable [CoapLite] (p : Packet) : Prop :=
  p.Fits Thread.recvBuf ∧
    p.block2.all (fun b => decide (b.more = true → b.num.toNat + 1 < maxBlocks)) = true

instance [CoapLite] (p : Packet) : Decidable (Hearable p) := inferInstanceAs (Decidable (_ ∧ _ = true))

def Stale (p : Packet) : Prop := p.token = [] ∧ p.isEventPut = false

structure Answers (p request : Packet) : Prop where
  token : p.token = request.token
  notEmpty : p.isEmpty = false
  notEvent : p.isEventPut = false

def Replied [CoapLite] (reliable : Bool) (request : Packet) (out : List Packet × Server)
    (rest : Packet → Server → Prop) : Prop :=
  ∃ stale reply, out.1 = stale ++ [reply] ∧ (∀ p ∈ stale, Stale p) ∧ Answers reply request ∧
    Guarded reliable (Hearable reply) (rest reply out.2)

theorem ResponseCode.byte_ne_zero (code : ResponseCode) : code.byte ≠ 0 := by
  cases code <;> decide

theorem ResponseCode.byte_class (code : ResponseCode) : code.byte >>> 5 ≠ 0 := by
  cases code <;> decide

namespace Server

theorem inputOf_secure (draws : Draws) (payload : Bytes) :
    inputOf draws "" payload = .secure payload := by
  rw [inputOf, if_neg (by decide), if_neg (by decide), if_neg (by decide), if_pos rfl]

def blockReply (id : UInt16) (token : Bytes) (code : UInt8) (full : Bytes) (num bs : Nat) : Packet :=
  ⟨.acknowledgement, code, id, token, "",
    some ⟨UInt16.ofNat num, decide ((num + 1) * bs < full.length), exponent bs⟩,
    (full.drop (num * bs)).take bs⟩

theorem blockReply_answers {request : Packet} {token : Bytes} {code : UInt8}
    (htoken : token = request.token) (hcode : code ≠ 0) (id : UInt16) (full : Bytes) (num bs : Nat) :
    Answers (blockReply id token code full num bs) request :=
  ⟨htoken, decide_eq_false hcode, rfl⟩

end Server

section
variable [CoapLite] (P : Primitives) (reliable : Bool) (Q : Server → Except CoapError CoapResponse → Prop)

def Leads : Dialogue CoapCall CoapAnswer (Except CoapError CoapResponse) → Server → Prop
  | .ret r, s => Q s r
  | .ask .nextMessageId next, s => ∀ x, Leads (next x) s
  | .ask (.exchange request) next, s =>
    request.kind = .confirmable ∧ request.token ≠ [] ∧
    Guarded reliable (request.Fits recvBuf) (∀ draws, Replied reliable request
      (s.serve P draws request) fun reply s' => Leads (next ⟨0, .ok reply⟩) s')

end

section
variable [CoapLite] {P : Primitives} {reliable : Bool} {Q : Server → Except CoapError CoapResponse → Prop}
  {s : Server} {request : Packet}

namespace Server

theorem serve_ack (draws : Draws) (h : request.kind = .acknowledgement) :
    s.serve P draws request = ([], s) := if_pos h

theorem answer_first {tokenId id : UInt16} {payload : Bytes} (draws : Draws) :
    s.answer P draws (firstRequest "" payload tokenId id) =
      { s with accessory := (s.accessory.securePdu P payload).2 }.sendResponse
        (firstRequest "" payload tokenId id) (s.accessory.securePdu P payload).1.1.byte
        (s.accessory.securePdu P payload).1.2 := by
  unfold answer
  rw [show inputOf draws (firstRequest "" payload tokenId id).uriPath
    (firstRequest "" payload tokenId id).payload = .secure payload from inputOf_secure draws payload]
  rfl

theorem serve_first {tokenId id : UInt16} {payload : Bytes} (draws : Draws)
    (hfits : (firstRequest "" payload tokenId id).Fits recvBuf) :
    s.serve P draws (firstRequest "" payload tokenId id) =
      { s with accessory := (s.accessory.securePdu P payload).2 }.sendResponse
        (firstRequest "" payload tokenId id) (s.accessory.securePdu P payload).1.1.byte
        (s.accessory.securePdu P payload).1.2 := by
  unfold serve
  rw [Packet.received_of_fits hfits, ← answer_first draws]
  cases hbs : s.blockwise <;> rfl

theorem serve_continuation {code : UInt8} {full : Bytes} {bs : Nat} (draws : Draws) (path : String)
    (tokenId id : UInt16) (e : Fin 8) (block : BlockValue) (hbs : s.blockwise = some bs)
    (hnum : block.num.toNat + 1 < 2 ^ 16) (hcache : s.blockCache = some (code, full)) :
    s.serve P draws (continuation path e block tokenId id) =
      s.sendBlock id (tokenBytes tokenId) code full (block.num.toNat + 1) bs := by
  have hsucc : (block.num + 1).toNat = block.num.toNat + 1 := by
    rw [UInt16.toNat_add]
    exact Nat.mod_eq_of_lt hnum
  have hpos : (0 : UInt16) < block.num + 1 := by
    rw [UInt16.lt_iff_toNat_lt, hsucc]
    exact Nat.succ_pos _
  unfold serve
  simp only [Packet.received, continuation, List.take_nil, hbs, if_pos hpos, serveCachedBlock, hcache,
    hsucc]
  rfl

theorem sendBlock_eq {id : UInt16} {token full : Bytes} {code : UInt8} {num bs : Nat}
    (hsize : 16 ≤ bs ∧ bs < 4096) (hnum : num < 2 ^ 16) (hstart : num * bs < full.length) :
    s.sendBlock id token code full num bs =
      ([blockReply id token code full num bs],
        if (num + 1) * bs < full.length then s else { s with blockCache := none }) := by
  have hstop : (num + 1) * bs = num * bs + bs := Nat.succ_mul num bs
  have hmore : (min (num * bs + bs) full.length < full.length) = ((num + 1) * bs < full.length) := by
    rw [hstop, min_lt_iff, or_iff_left (lt_irrefl _)]
  have hpayload : (full.drop (num * bs)).take (min (num * bs + bs) full.length - num * bs) =
      (full.drop (num * bs)).take bs := by
    rw [List.take_eq_take_iff, List.length_drop]
    omega
  simp only [sendBlock, min_eq_left hstart.le, hpayload, hmore, blockReply,
    CoapLite.newBlock_ok _ hnum hsize.1 hsize.2, Except.toOption, decide_eq_true_eq]

end Server

theorem Server.fits_blockReply {id : UInt16} {token full : Bytes} {code : UInt8} {num bs : Nat}
    (htoken : token.length = 2) (hbs : bs < 4096) :
    (Server.blockReply id token code full num bs).Fits Thread.recvBuf := by
  have hoverhead := CoapLite.overhead_root (p := Server.blockReply id token code full num bs) rfl
  have hlen : (Server.blockReply id token code full num bs).payload.length ≤ bs :=
    List.length_take_le ..
  rw [show (Server.blockReply id token code full num bs).token.length = 2 from htoken,
    if_pos (show (Server.blockReply id token code full num bs).block2.isSome = true from rfl)]
    at hoverhead
  rw [Packet.Fits, Thread.recvBuf]
  omega

theorem fetch_leads {code : UInt8} {full : Bytes} {bs : Nat} (hbs : s.blockwise = some bs)
    (hsize : 16 ≤ bs ∧ bs < 4096) (hcache : s.blockCache = some (code, full)) (hcode : code ≠ 0)
    (hshort : reliable = true → full.length ≤ 4096)
    (hQ : Q { s with blockCache := none } (.ok ⟨(code >>> 5, code &&& 0x1f), full⟩)) (left : Nat)
    {n : Nat} (hleft : n + 1 + left = maxBlocks) (hn : n + 1 < maxBlocks)
    (hmore : (n + 1) * bs < full.length) :
    Leads P reliable Q (fetchBlocks "" (exponent bs) left (code >>> 5, code &&& 0x1f)
      ⟨UInt16.ofNat n, true, exponent bs⟩ (full.take ((n + 1) * bs))) s := by
  induction left generalizing n with
  | zero => omega
  | succ left ih =>
    have hmax : maxBlocks = 1024 := rfl
    have hnum : (UInt16.ofNat n).toNat = n :=
      UInt16.toNat_ofNat_of_lt' (show n < 65536 by omega)
    have hnum' : (UInt16.ofNat (n + 1)).toNat = n + 1 :=
      UInt16.toNat_ofNat_of_lt' (show n + 1 < 65536 by omega)
    rw [fetchBlocks_more _ _ _ _ _ rfl (by dsimp only; omega)]
    intro x y
    refine ⟨rfl, List.cons_ne_nil _ _, .of_fits ?_ fun draws => ?_⟩
    · exact Nat.le_trans (CoapLite.overhead_root rfl) (by decide : 5 + 2 + 5 ≤ recvBuf)
    have hserve := Server.serve_continuation (P := P) draws "" x.id y.id (exponent bs)
      ⟨UInt16.ofNat n, true, exponent bs⟩ hbs (by dsimp only; omega) hcache
    dsimp only at hserve
    rw [hnum, Server.sendBlock_eq hsize (by omega) hmore] at hserve
    rw [hserve]
    refine ⟨[], _, rfl, List.forall_mem_nil _, Server.blockReply_answers (by rfl) hcode _ _ _ _, ?_⟩
    have htake : full.take ((n + 1) * bs) ++ (full.drop ((n + 1) * bs)).take bs =
        full.take ((n + 1 + 1) * bs) := by
      rw [Nat.succ_mul (n + 1), List.take_add]
    refine ⟨fun hreliable => ⟨?_, ?_⟩, fun hhear => ?_⟩
    · exact Server.fits_blockReply rfl hsize.2
    · refine decide_eq_true fun hb => ?_
      rw [hnum', hmax]
      have hlast := of_decide_eq_true hb
      have hbound : (n + 1 + 1) * 16 ≤ (n + 1 + 1) * bs := Nat.mul_le_mul_left _ hsize.1
      have hfull := hshort hreliable
      omega
    · simp only [fetchNext, Server.blockReply, htake]
      by_cases hlast : (n + 1 + 1) * bs < full.length
      · have hnext := of_decide_eq_true hhear.2 (decide_eq_true hlast)
        rw [hnum'] at hnext
        simp only [hlast, if_true, decide_true]
        exact ih (by omega) hnext hlast
      · rw [if_neg hlast, fetchBlocks_done _ _ _ _ _ (decide_eq_false hlast),
          List.take_of_length_le (Nat.le_of_not_lt hlast)]
        exact hQ

section
variable {payload response : Bytes} {code : ResponseCode}
  (hQ : ∀ s' : Server, s'.accessory = s.accessory → s'.slow = s.slow → s'.blockwise = s.blockwise →
    Q s' (.ok ⟨(code.byte >>> 5, code.byte &&& 0x1f), response⟩))
  (hshort : reliable = true → response.length ≤ 4096) (x y : UInt16)
include hQ hshort

theorem sendWhole_replied :
    Replied reliable (firstRequest "" payload x y)
      (s.sendWhole (firstRequest "" payload x y) code.byte response)
      fun reply s' => Leads P reliable Q (postNext "" (.ok reply)) s' := by
  have hnotEmpty : decide (code.byte = 0) = false := decide_eq_false code.byte_ne_zero
  have hclass : decide (code.byte >>> 5 = 0) = false := decide_eq_false code.byte_class
  have hfits : ∀ kind id, reliable = true →
      (⟨kind, code.byte, id, tokenBytes x, "", none, response⟩ : Packet).Fits Thread.recvBuf := by
    intro kind id hreliable
    have hlen := hshort hreliable
    exact Packet.fits_whole rfl (by rw [Thread.recvBuf]; omega)
  unfold Server.sendWhole
  split_ifs
  · refine ⟨[_], _, rfl, ?_, ⟨rfl, hnotEmpty, ?_⟩, fun h => ⟨hfits _ _ h, rfl⟩,
      fun _ => hQ _ rfl rfl rfl⟩
    · intro p hp
      rw [List.mem_singleton.mp hp]
      exact ⟨rfl, rfl⟩
    · simp only [Packet.isEventPut, hclass, Bool.and_false]
  · exact ⟨[], _, rfl, nofun, ⟨rfl, hnotEmpty, rfl⟩, fun h => ⟨hfits _ _ h, rfl⟩,
      fun _ => hQ _ rfl rfl rfl⟩

theorem sendResponse_replied (hsize : ∀ bs ∈ s.blockwise, 16 ≤ bs ∧ bs < 4096) :
    Replied reliable (firstRequest "" payload x y)
      (s.sendResponse (firstRequest "" payload x y) code.byte response)
      fun reply s' => Leads P reliable Q (postNext "" (.ok reply)) s' := by
  unfold Server.sendResponse
  split
  · next bs hbs =>
    split_ifs with hlong
    · have hsize := hsize bs hbs
      have hmore : (0 + 1) * bs < response.length := by rwa [Nat.zero_add, Nat.one_mul]
      rw [Server.sendBlock_eq hsize (by decide) (by omega), if_pos hmore]
      refine ⟨[], _, rfl, nofun, ⟨rfl, decide_eq_false code.byte_ne_zero, rfl⟩, fun _ => ⟨?_, ?_⟩,
        fun hhear => ?_⟩
      · exact Server.fits_blockReply rfl hsize.2
      · exact decide_eq_true fun _ => (by decide : (UInt16.ofNat 0).toNat + 1 < maxBlocks)
      · have hleads := fetch_leads (P := P) (Q := Q) (s := { s with blockCache := some (code.byte, response) })
          hbs hsize rfl code.byte_ne_zero hshort (hQ _ rfl rfl rfl) (maxBlocks - 1) (n := 0) rfl
          (by decide) hmore
        simp only [postNext, Server.blockReply, hmore, decide_true, Packet.splitCode]
        rw [Nat.zero_add, Nat.one_mul] at hleads
        simpa only [Nat.zero_mul, List.drop_zero] using hleads
    · exact sendWhole_replied hQ hshort x y
  · exact sendWhole_replied hQ hshort x y

end

theorem post_leads {payload response : Bytes} {code : ResponseCode} {accessory : ReferenceAccessory}
    (hsize : ∀ bs ∈ s.blockwise, 16 ≤ bs ∧ bs < 4096)
    (hpdu : s.accessory.securePdu P payload = ((code, response), accessory))
    (hshort : reliable = true → payload.length + 7 ≤ recvBuf ∧ response.length ≤ 4096)
    (hQ : ∀ s' : Server, s'.accessory = accessory → s'.slow = s.slow → s'.blockwise = s.blockwise →
      Q s' (.ok ⟨(code.byte >>> 5, code.byte &&& 0x1f), response⟩)) :
    Leads P reliable Q (post "" payload) s := by
  rw [post_eq]
  intro x y
  refine ⟨rfl, List.cons_ne_nil _ _, fun hreliable => ?_, fun hfits draws => ?_⟩
  · exact Packet.fits_whole rfl (hshort hreliable).1
  · rw [Server.serve_first draws hfits, hpdu]
    exact sendResponse_replied (s := { s with accessory := accessory }) hQ
      (fun h => (hshort h).2) x.id y.id hsize

end

end HapRust.ThreadDut
