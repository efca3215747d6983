import HapRust.Ble.RemovePairing
import HapRust.Ble.SessionChannels

/-! A request on its way to the accessory: it is cut to the size of a GATT write, each
fragment is sealed, and the accessory opens what is written and puts it together. -/

namespace HapRust.Ble
open Lib Tlv8 Crypto BleM

def defaultFragmentSize : Nat := 180

def maxWrite : Option Nat → Nat
  | none => defaultFragmentSize
  | some n => min (max n 20) 512

/-! ## Cutting -/

theorem length_fragment_le {pdu f : Bytes} {fragSize : Nat} (h : f ∈ fragment pdu fragSize) :
    f.length ≤ max fragSize 3 := by
  unfold fragment at h
  dsimp only at h
  split_ifs at h with hwhole
  · rw [List.mem_singleton.mp h]
    exact hwhole
  · rcases List.mem_cons.mp h with rfl | h
    · exact List.length_take_le _ _
    · obtain ⟨chunk, hchunk, rfl⟩ := List.mem_map.mp h
      have hlen := length_le_of_mem_chunks (by omega) hchunk
      rw [List.length_cons, List.length_cons]
      omega

theorem continuation_of_mem_tail {pdu f : Bytes} {fragSize : Nat}
    (h : f ∈ (fragment pdu fragSize).tail) :
    ∃ tid chunk, pdu[2]? = some tid ∧ f = 0x80 :: tid :: chunk := by
  unfold fragment at h
  dsimp only at h
  split_ifs at h with hwhole
  · cases h
  · obtain ⟨chunk, -, rfl⟩ := List.mem_map.mp h
    have hlen : 2 < pdu.length := by omega
    refine ⟨pdu.getD 2 0, chunk, ?_, rfl⟩
    rw [List.getD_eq_getElem?_getD, List.getElem?_eq_getElem hlen, Option.getD_some]

/-! ## Sealing and writing -/

def writesOf (transcript : List (GattOp × Answer)) : List Bytes :=
  transcript.filterMap fun e => match e.1 with
    | .write _ value => some value
    | _ => none

/-- Writes of these values to the characteristic, and anything that is no write. -/
def GattOp.among (uuid : String) (cs : List Bytes) : GattOp → Prop
  | .write u value => u = uuid ∧ value ∈ cs
  | _ => True

section
variable {P : Primitives} {uuid : String} {s : BleState}

theorem asks_bind {α β : Type} {m : BleM α} {f : α → BleM β} {p : GattOp → Prop}
    (hm : (m s).Asks p) (hf : ∀ a t, (f a t).Asks p) : ((m >>= f) s).Asks p := by
  rw [bind_apply]
  refine hm.bind ?_
  rintro ⟨x, t⟩
  cases x with
  | error e => exact .ret _
  | ok a => exact hf a t

theorem asks_retrying {op : GattOp} {p : GattOp → Prop} (hop : p op) (hconnect : p .connect)
    (left : Nat) (s : BleState) : (retrying op left s).Asks p := by
  induction left generalizing s with
  | zero =>
    refine .ask hop fun x => ?_
    cases x with
    | done link value => exact .ret _
    | lost link => cases link <;> exact .ret _
    | failed e => exact .ret _
  | succ left ih =>
    refine .ask hop fun x => ?_
    cases x with
    | done link value => exact .ret _
    | lost link =>
      have hagain (t : BleState) : ((reconnect >>= fun _ => retrying op left) t).Asks p := by
        refine asks_bind (.ask hconnect fun y => ?_) fun _ u => ih u
        cases y <;> exact .ret _
      cases link with
      | none => exact hagain _
      | some link => exact hagain _
    | failed e => exact .ret _

theorem asks_writeSealed {frags cs all : List Bytes} {last : UInt64}
    (h : Sealed P.chacha20Poly1305 s.session.keys.writeKey s.session.sendCounter cs frags last)
    (hall : ∀ c ∈ cs, c ∈ all) : (writeSealed P uuid frags s).Asks (GattOp.among uuid all) := by
  induction frags generalizing s cs with
  | nil => exact .ret _
  | cons frag frags ih =>
    cases h with
    | @cons _ _ c _ cs _ head tail =>
      rw [List.forall_mem_cons] at hall
      rw [writeSealed, bind_apply, sealFrag_apply head, Dialogue.ret_bind, andThen, bind_apply,
        write, bind_apply, Dialogue.bind_assoc]
      refine (asks_retrying ⟨rfl, hall.1⟩ trivial _ _).bind_always (sparing_retrying _ _ _) ?_
      rintro ⟨x, t⟩ ht
      cases x with
      | error e => exact .ret _
      | ok value =>
        refine ih ?_ hall.2
        rw [show t.session = s.sealed.session from ht.session]
        exact tail

theorem asks_lift {α : Type} {p : GattOp → Prop} (x : Except BleError α) (s : BleState) :
    (lift x s).Asks p := .ret _

theorem asks_readResponse {p : GattOp → Prop} (P : Primitives) (uuid : String)
    (hread : p (.read uuid)) (hconnect : p .connect) (s : BleState) :
    (readResponse (readSealed P uuid) s).Asks p := by
  have hnext (s : BleState) : (readSealed P uuid s).Asks p := by
    refine asks_bind (asks_retrying hread hconnect _ s) fun data t => ?_
    rw [openFrag_eq]
    exact .ret _
  refine readResponse_of (C := fun α m => ∀ s, (m s).Asks p) asks_lift ?_ hnext s
  exact fun hm hf s => asks_bind (hm s) hf

theorem writesOf_writeSealed {α : Type} {frags cs : List Bytes} {last : UInt64} {k : BleM α}
    (hk : ∀ t xs, writesOf ((k t).transcript xs) = [])
    (h : Sealed P.chacha20Poly1305 s.session.keys.writeKey s.session.sendCounter cs frags last)
    (answers : List (Nat × Bytes)) :
    writesOf (((writeSealed P uuid frags >>= fun _ => k) s).transcript
      (answers.map fun x => .done x.1 x.2)) = cs.take answers.length := by
  induction frags generalizing s cs answers with
  | nil =>
    cases h
    rw [List.take_nil]
    exact hk s _
  | cons frag frags ih =>
    cases h with
    | @cons _ _ c _ cs _ head tail =>
      cases answers with
      | nil =>
        rw [bind_apply, writeSealed, bind_apply, sealFrag_apply head]
        rfl
      | cons x answers =>
        have hrest := ih (s := s.sealed.reach (.write uuid c) x.1) tail answers
        rw [List.length_cons, List.take_succ_cons, ← hrest, bind_apply, writeSealed, bind_apply,
          sealFrag_apply head]
        rfl

end

/-! ## The accessory's end -/

section
variable (P : Primitives)

def BleSession.openAll (s : BleSession) : List Bytes → Except BleError (List Bytes) × BleSession
  | [] => (.ok [], s)
  | c :: cs =>
    match s.open P c with
    | (.error e, s) => (.error e, s)
    | (.ok frag, s) =>
      match s.openAll cs with
      | (.error e, s) => (.error e, s)
      | (.ok frags, s) => (.ok (frag :: frags), s)

def BleSession.receive (s : BleSession) (cs : List Bytes) : Except BleError Bytes :=
  (s.openAll P cs).1 >>= reassemble

variable {P}

theorem BleSession.openAll_sealed (hA : P.chacha20Poly1305.Inverts) {s : BleSession}
    {cs frags : List Bytes} {last : UInt64}
    (h : Sealed P.chacha20Poly1305 s.keys.readKey s.recvCounter cs frags last) :
    s.openAll P cs = (.ok frags, { s with recvCounter := last }) := by
  induction cs generalizing s frags with
  | nil =>
    cases h
    rfl
  | cons c cs ih =>
    cases h with
    | cons head tail =>
      have hopen := hA.decrypt_of_encrypt head
      rw [openAll, BleSession.open, openNext, hopen]
      dsimp only [Option.map_some]
      rw [ih tail]

end

/-- Whatever the size of a fragment, the fragments of a PDU make it again, fit, and continue it
under its transaction id. With a negotiated size, the sealed fragments of a request fit it, they
are all that is written, in order if nothing fails, and the accessory gets the request. -/
theorem request_fragments_arrive {P : Primitives} (hA : P.chacha20Poly1305.Inverts)
    (htag : P.chacha20Poly1305.Tagged) :
    (∀ pdu n, reassemble (fragment pdu n) = .ok pdu ∧
      (∀ f ∈ fragment pdu n, f.length ≤ max n 3) ∧
      ∀ f ∈ (fragment pdu n).tail, ∃ tid chunk, pdu[2]? = some tid ∧ f = 0x80 :: tid :: chunk) ∧
    ∀ size, 20 ≤ size → size ≤ 512 → ∀ uuid op tid iid body (s : BleState) (accessory : BleSession),
      accessory.keys.readKey = s.session.keys.writeKey →
      accessory.recvCounter = s.session.sendCounter →
      ∃ cs, (∀ c ∈ cs, c.length ≤ size) ∧
        (requestSecure P uuid op tid iid body (maxWrite (some size)) s).Asks
          (GattOp.among uuid cs) ∧
        (∀ answers : List (Nat × Bytes),
          writesOf ((requestSecure P uuid op tid iid body (maxWrite (some size)) s).transcript
            (answers.map fun x => .done x.1 x.2)) = cs.take answers.length) ∧
        accessory.receive P cs = .ok (encodeRequest op tid iid body) := by
  refine ⟨fun pdu n => ⟨reassemble_fragment pdu n, fun f hf => length_fragment_le hf, fun f hf =>
    continuation_of_mem_tail hf⟩, ?_⟩
  intro size hlow hhigh uuid op tid iid body s accessory hkey hcounter
  have hsize : maxWrite (some size) = size := by rw [maxWrite, max_eq_left hlow, min_eq_left hhigh]
  rw [hsize]
  obtain ⟨cs, last, hsealed⟩ := exists_sealed hA s.session.keys.writeKey s.session.sendCounter
    (secureFragments op tid iid body size)
  refine ⟨cs, ?_, ?_, ?_, ?_⟩
  · refine hsealed.length_le htag fun f hf => ?_
    have hlen := length_fragment_le hf
    omega
  · rw [requestSecure]
    exact asks_bind (asks_writeSealed hsealed fun _ hc => hc) fun _ t =>
      asks_readResponse P uuid trivial trivial t
  · intro answers
    refine writesOf_writeSealed (fun t xs => ?_) hsealed answers
    rw [writesOf, List.filterMap_eq_nil_iff]
    intro e he
    have hread := (asks_readResponse P uuid
      (p := fun q => ∀ u v, q ≠ GattOp.write u v) (by simp) (by simp) t).transcript he
    split
    · next u v h => exact absurd h (hread u v)
    · rfl
  · rw [← hkey, ← hcounter] at hsealed
    rw [BleSession.receive, BleSession.openAll_sealed hA hsealed]
    exact reassemble_fragment _ _

def samplePeer : BleSession := .new ⟨constArr 32 5, constArr 32 4⟩

theorem request_fragments_arrive_twenty :
    ∃ cs, (∀ c ∈ cs, c.length ≤ 20) ∧
      writesOf ((requestSecure taggedPrimitives "25" .characteristicRead 1 9 [] (maxWrite (some 20))
        sampleState).transcript [.done 0 [], .done 0 []]) = cs.take 2 ∧
      samplePeer.receive taggedPrimitives cs = .ok [0x00, 0x03, 1, 9, 0] := by
  obtain ⟨cs, hsize, -, hwrites, hrequest⟩ :=
    (request_fragments_arrive taggedPrimitives_honest.aead taggedPrimitives_tagged).2 20 (by decide)
      (by decide) "25" .characteristicRead 1 9 [] sampleState samplePeer rfl rfl
  exact ⟨cs, hsize, hwrites [(0, []), (0, [])], hrequest⟩

end HapRust.Ble
