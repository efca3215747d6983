import HapRust.Crypto.Primitives

/-! HAP-BLE PDUs: requests and responses, and how they are cut into fragments
of the size of one GATT write. -/

namespace HapRust.Ble
open Lib Tlv8 Crypto

inductive BleError where
  | tlv8 (e : Tlv8Error)
  | crypto (e : CryptoError)
  | model (msg : String)
  | accessoryNotFound
  | characteristicNotFound (aid iid : UInt64)
  | malformedPdu (msg : String)
  | pairingRejected (status : UInt8)
  | requestRejected (status : UInt8)
  | disconnected
  | backend (msg : String)
  deriving DecidableEq, Repr

inductive OpCode where
  | characteristicSignatureRead
  | characteristicWrite
  | characteristicRead
  | characteristicConfig
  | protocolConfig
  deriving DecidableEq, Repr

def OpCode.toByte : OpCode → UInt8
  | characteristicSignatureRead => 0x01
  | characteristicWrite => 0x02
  | characteristicRead => 0x03
  | characteristicConfig => 0x07
  | protocolConfig => 0x08

namespace Param
def value : UInt8 := 0x01
def returnResponse : UInt8 := 0x09
end Param

def encodeRequest (op : OpCode) (tid : UInt8) (iid : UInt16) (body : Bytes) : Bytes :=
  let header := [0x00, op.toByte, tid] ++ leBytes 2 iid.toNat
  if body = [] then header else header ++ leBytes 2 (min body.length 65535) ++ body

def encodeWriteBody (value : Bytes) : Bytes :=
  Tlv8Writer.push (Tlv8Writer.pushU8 [] Param.returnResponse 1) Param.value value

def valueParam (body : Bytes) : Except BleError Bytes := do
  let map ← mapErr .tlv8 (Tlv8Map.parse body)
  okOr (map.get Param.value) (.malformedPdu "missing value param (0x01)")

structure Response where
  tid : UInt8
  status : UInt8
  body : Bytes
  deriving DecidableEq, Repr

def decodeResponse : Bytes → Except BleError Response
  | [_, tid, status] => .ok ⟨tid, status, []⟩
  | _ :: tid :: status :: lo :: hi :: rest =>
    let len := leNat [lo, hi]
    if rest.length < len then .error (.malformedPdu "response body shorter than declared")
    else .ok ⟨tid, status, rest.take len⟩
  | [_, _, _, _] => .error (.malformedPdu "response body length truncated")
  | _ => .error (.malformedPdu "response shorter than 3 bytes")

def fragment (pdu : Bytes) (fragSize : Nat) : List Bytes :=
  let fragSize := max fragSize 3
  if pdu.length ≤ fragSize then [pdu]
  else
    let tid := pdu.getD 2 0
    pdu.take fragSize ::
      (chunks (max (fragSize - 2) 1) (pdu.drop fragSize)).map fun chunk => 0x80 :: tid :: chunk

def reassemble : List Bytes → Except BleError Bytes
  | [] => .error (.malformedPdu "no fragments to reassemble")
  | first :: rest =>
    rest.foldlM (fun out f =>
      if f.length < 2 then .error (.malformedPdu "continuation fragment too short")
      else .ok (out ++ f.drop 2)) first

def declaredTotal : Bytes → Nat
  | _ :: _ :: _ :: lo :: hi :: _ => 5 + leNat [lo, hi]
  | first => first.length

def maxResponseFragments : Nat := 64

theorem fragment_ne_nil (pdu : Bytes) (fragSize : Nat) : fragment pdu fragSize ≠ [] := by
  unfold fragment
  dsimp only
  split_ifs <;> exact List.cons_ne_nil _ _

theorem foldlM_continuations {ι : Type} (control tid : ι → UInt8) (chunk : ι → Bytes) (cs : List ι)
    (out : Bytes) :
    (cs.map fun c => control c :: tid c :: chunk c).foldlM (fun out f =>
      if f.length < 2 then .error (.malformedPdu "continuation fragment too short")
      else .ok (out ++ f.drop 2)) out =
      (.ok (out ++ (cs.map chunk).flatten) : Except BleError Bytes) := by
  induction cs generalizing out with
  | nil => rw [List.map_nil, List.map_nil, List.flatten_nil, List.append_nil]; rfl
  | cons c cs ih =>
    rw [List.map_cons, List.foldlM_cons, if_neg (by simp)]
    rw [ok_bind, ih, List.map_cons, List.flatten_cons, ← List.append_assoc]
    rfl

theorem reassemble_fragment (pdu : Bytes) (fragSize : Nat) :
    reassemble (fragment pdu fragSize) = .ok pdu := by
  unfold fragment
  dsimp only
  split_ifs
  · rfl
  · rw [reassemble]
    refine (foldlM_continuations (fun _ => 0x80) (fun _ => pdu.getD 2 0) id _ _).trans ?_
    rw [List.map_id, chunks_flatten (by omega), List.take_append_drop]

/-! ## Reading a response -/

structure FragmentReader (m : Type → Type) (α : Type) where
  next : m Bytes
  reassemble : List Bytes → m Bytes
  declaredTotal : List Bytes → m Nat
  tooMany : {β : Type} → m β
  finish : List Bytes → Bytes → m α

namespace FragmentReader
variable {m : Type → Type} [Monad m] {α : Type} (r : FragmentReader m α)

def readRest : Nat → List Bytes → m α
  | left, frags => do
    let pdu ← r.reassemble frags
    let total ← r.declaredTotal frags
    if pdu.length < total then
      match left with
      | 0 => r.tooMany
      | left + 1 => do
        let frag ← r.next
        readRest left (frags ++ [frag])
    else r.finish frags pdu

def readResponse : m α := do
  let first ← r.next
  r.readRest (maxResponseFragments - 1) [first]

def logging : FragmentReader m (List Bytes × α) where
  next := r.next
  reassemble := r.reassemble
  declaredTotal := r.declaredTotal
  tooMany := r.tooMany
  finish frags pdu := do
    let a ← r.finish frags pdu
    pure (frags, a)

def lifting (lift : {β : Type} → Except BleError β → m β) (next : m Bytes) :
    FragmentReader m Response where
  next := next
  reassemble frags := lift (Ble.reassemble frags)
  declaredTotal frags := lift (.ok (Ble.declaredTotal (frags.headD [])))
  tooMany := lift (.error (.malformedPdu "too many response fragments"))
  finish _ pdu := lift (decodeResponse pdu)

theorem readResponse_of {C : {β : Type} → m β → Prop}
    (hbind : ∀ {β γ : Type} {x : m β} {f : β → m γ}, C x → (∀ b, C (f b)) → C (x >>= f))
    (hnext : C r.next) (hreassemble : ∀ frags, C (r.reassemble frags))
    (htotal : ∀ frags, C (r.declaredTotal frags)) (hmany : ∀ {β : Type}, C (r.tooMany (β := β)))
    (hfinish : ∀ frags pdu, C (r.finish frags pdu)) : C r.readResponse := by
  have hrest (left : Nat) (frags : List Bytes) : C (r.readRest left frags) := by
    induction left generalizing frags with
    | zero =>
      rw [readRest]
      refine hbind (hreassemble frags) fun pdu => hbind (htotal frags) fun total => ?_
      split_ifs
      · exact hmany
      · exact hfinish frags pdu
    | succ left ih =>
      rw [readRest]
      refine hbind (hreassemble frags) fun pdu => hbind (htotal frags) fun total => ?_
      split_ifs
      · exact hbind hnext fun frag => ih (frags ++ [frag])
      · exact hfinish frags pdu
  exact hbind hnext fun first => hrest _ _

theorem lifting_readResponse_of {lift : {β : Type} → Except BleError β → m β} {next : m Bytes}
    {C : {β : Type} → m β → Prop}
    (hbind : ∀ {β γ : Type} {x : m β} {f : β → m γ}, C x → (∀ b, C (f b)) → C (x >>= f))
    (hlift : ∀ {β : Type} (x : Except BleError β), C (lift x)) (hnext : C next) :
    C (lifting lift next).readResponse :=
  readResponse_of _ hbind hnext (fun _ => hlift _) (fun _ => hlift _) (hlift _)
    fun _ _ => hlift _

end FragmentReader
end HapRust.Ble
