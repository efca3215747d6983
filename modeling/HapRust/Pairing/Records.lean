import HapRust.Lib.TextRoundTrip
import HapRust.Transport.Record

/-! What is kept of a controller and its accessories, and the records of the store
file. Keys are written as hexadecimal digits, device identifiers as six groups
of two; records of the first version have a bare address in the place of a
transport. -/

namespace HapRust.Pairing
open Lib Tlv8 Crypto Transport

inductive PairingError where
  | tlv8 (e : Tlv8Error)
  | crypto (e : CryptoError)
  | transport (e : TransportError)
  | store (msg : String)
  | accessory (code : UInt8)
  | malformed (msg : String)
  | unknownAccessory (id : String)
  | wrongTransport
  deriving DecidableEq, Repr

inductive IpAddr where
  | v4 (octets : Arr 4)
  | v6 (octets : Arr 16)
  deriving DecidableEq

structure SocketAddr where
  ip : IpAddr
  port : UInt16
  deriving DecidableEq

structure StoredBroadcast where
  key : Arr 32
  gsn : UInt16
  deriving DecidableEq

inductive StoredTransport where
  | ip (addr : SocketAddr)
  | ble (deviceId : Arr 6) (broadcast : Option StoredBroadcast)
  deriving DecidableEq

structure StoredAccessory where
  pairing : AccessoryPairing
  transport : StoredTransport
  deriving DecidableEq

def StoredAccessory.id (a : StoredAccessory) : String := a.pairing.pairingId

/-! ## Records -/

structure ControllerRecord where
  id : String
  signingKeyHex : String
  deriving DecidableEq

structure BroadcastRecord where
  keyHex : String
  gsn : UInt16
  deriving DecidableEq

inductive TransportRecord where
  | ip (addr : SocketAddr)
  | ble (deviceId : String) (broadcast : Option BroadcastRecord)
  deriving DecidableEq

structure AccessoryRecord where
  id : String
  ltpkHex : String
  transport : Option TransportRecord
  addr : Option SocketAddr
  deriving DecidableEq

def hexPair (b : UInt8) : List Char := [Nat.digitChar (b.toNat / 16), Nat.digitChar (b.toNat % 16)]

def encodeHex (bytes : Bytes) : String := String.ofList (bytes.flatMap hexPair)

def hexDigit (c : UInt8) : Except PairingError UInt8 :=
  if 0x30 ≤ c ∧ c ≤ 0x39 then .ok (c - 0x30)
  else if 0x61 ≤ c ∧ c ≤ 0x66 then .ok (c - 0x61 + 10)
  else if 0x41 ≤ c ∧ c ≤ 0x46 then .ok (c - 0x41 + 10)
  else .error (.malformed "non-hex digit in key")

def decodePairs : Bytes → Except PairingError Bytes
  | c :: d :: rest => do
    let hi ← hexDigit c
    let lo ← hexDigit d
    let out ← decodePairs rest
    return (hi <<< 4 ||| lo) :: out
  | _ => .ok []

def decodeKey32 (s : String) : Except PairingError (Arr 32) := do
  ensure ((asBytes s).length = 64) (.malformed "expected 64 hex chars (32 bytes)")
  let out ← decodePairs (asBytes s)
  okOr (tryIntoArr 32 out) (.malformed "expected 64 hex chars (32 bytes)")

def formatDeviceId (id : Arr 6) : String := String.ofList ([':'].intercalate (id.val.map hexPair))

def parseByte (p : List Char) : Option UInt8 :=
  if (asBytes (String.ofList p)).length ≠ 2 then none
  else (fromStrRadix 8 16 (String.ofList p)).map UInt8.ofNat

def parseDeviceId (s : String) : Option (Arr 6) :=
  ((s.toList.splitOn ':').mapM parseByte).bind (tryIntoArr 6)

def controllerToRecord (k : ControllerKeypair) : ControllerRecord := ⟨k.id, encodeHex k.signing.val⟩

def controllerFromRecord (r : ControllerRecord) : Except PairingError ControllerKeypair := do
  let seed ← decodeKey32 r.signingKeyHex
  return ⟨r.id, seed⟩

def broadcastToRecord (b : StoredBroadcast) : BroadcastRecord := ⟨encodeHex b.key.val, b.gsn⟩

def broadcastFromRecord (b : BroadcastRecord) : Except PairingError StoredBroadcast := do
  let key ← decodeKey32 b.keyHex
  return ⟨key, b.gsn⟩

def accessoryToRecord (a : StoredAccessory) : AccessoryRecord where
  id := a.pairing.pairingId
  ltpkHex := encodeHex a.pairing.ltpk.val
  transport := some <| match a.transport with
    | .ip addr => .ip addr
    | .ble deviceId broadcast => .ble (formatDeviceId deviceId) (broadcast.map broadcastToRecord)
  addr := none

def transportFromRecord : Option TransportRecord → Option SocketAddr →
    Except PairingError StoredTransport
  | some (.ip addr), _ => .ok (.ip addr)
  | none, some addr => .ok (.ip addr)
  | some (.ble deviceId broadcast), _ => do
    let id ← okOr (parseDeviceId deviceId) (.malformed "malformed BLE device id")
    match broadcast with
    | none => return .ble id none
    | some b =>
      let b ← broadcastFromRecord b
      return .ble id (some b)
  | none, none => .error (.malformed "record has no transport")

def accessoryFromRecord (r : AccessoryRecord) : Except PairingError StoredAccessory := do
  let ltpk ← decodeKey32 r.ltpkHex
  let transport ← transportFromRecord r.transport r.addr
  return ⟨⟨r.id, ltpk⟩, transport⟩

/-! ## What is written reads back -/

theorem hexDigit_digitChar {n : Nat} (hn : n < 16) :
    ∃ c, String.utf8EncodeChar (Nat.digitChar n) = [c] ∧ hexDigit c = .ok (UInt8.ofNat n) := by
  refine ⟨UInt8.ofNat (Nat.digitChar n).toNat, ?_⟩
  revert n
  decide

theorem toDigit_digitChar {n : Nat} (hn : n < 16) :
    toDigit 16 (Nat.digitChar n) = some n ∧ Nat.digitChar n ≠ ':' := by
  revert n
  decide

theorem high_lt (b : UInt8) : b.toNat / 16 < 16 := by
  have := b.toNat_lt
  omega

theorem low_lt (b : UInt8) : b.toNat % 16 < 16 := Nat.mod_lt _ (by decide)

theorem shiftLeft_or_low (b : UInt8) :
    (UInt8.ofNat (b.toNat / 16) <<< 4 ||| UInt8.ofNat (b.toNat % 16)) = b := by
  apply UInt8.toNat_inj.mp
  have hb := b.toNat_lt
  have hhi : (UInt8.ofNat (b.toNat / 16)).toNat = b.toNat / 16 := by
    rw [UInt8.toNat_ofNat']
    omega
  have hlo : (UInt8.ofNat (b.toNat % 16)).toNat = b.toNat % 16 := by
    rw [UInt8.toNat_ofNat']
    omega
  have hfour : (4 : UInt8).toNat % 8 = 4 := rfl
  have hfits : (b.toNat / 16) <<< 4 < 2 ^ 8 := by
    rw [Nat.shiftLeft_eq]
    omega
  rw [UInt8.toNat_or, UInt8.toNat_shiftLeft, hhi, hlo, hfour, Nat.mod_eq_of_lt hfits,
    ← Nat.shiftLeft_add_eq_or_of_lt (low_lt b), Nat.shiftLeft_eq]
  omega

theorem utf8Encode_hexPair (b : UInt8) : ∃ c d, (hexPair b).flatMap String.utf8EncodeChar = [c, d] ∧
    hexDigit c = .ok (UInt8.ofNat (b.toNat / 16)) ∧ hexDigit d = .ok (UInt8.ofNat (b.toNat % 16)) := by
  obtain ⟨c, hc, hhi⟩ := hexDigit_digitChar (high_lt b)
  obtain ⟨d, hd, hlo⟩ := hexDigit_digitChar (low_lt b)
  refine ⟨c, d, ?_, hhi, hlo⟩
  rw [hexPair, List.flatMap_cons, List.flatMap_cons, hc, hd]
  rfl

theorem decodePairs_encodeHex (bytes : Bytes) :
    (asBytes (encodeHex bytes)).length = 2 * bytes.length ∧
      decodePairs (asBytes (encodeHex bytes)) = .ok bytes := by
  rw [encodeHex, asBytes_ofList]
  induction bytes with
  | nil => exact ⟨rfl, rfl⟩
  | cons b bytes ih =>
    obtain ⟨c, d, hcd, hhi, hlo⟩ := utf8Encode_hexPair b
    rw [List.flatMap_cons, List.flatMap_append, hcd]
    constructor
    · rw [List.length_append, ih.1, List.length_cons, List.length_cons, List.length_cons,
        List.length_nil]
      omega
    · change (do
        let hi ← hexDigit c
        let lo ← hexDigit d
        let out ← decodePairs ((bytes.flatMap hexPair).flatMap String.utf8EncodeChar)
        return (hi <<< 4 ||| lo) :: out) = _
      rw [hhi, hlo, ih.2]
      simp only [ok_bind, pure_eq_ok, shiftLeft_or_low]

theorem decodeKey32_encodeHex (k : Arr 32) : decodeKey32 (encodeHex k.val) = .ok k := by
  obtain ⟨hlen, hpairs⟩ := decodePairs_encodeHex k.val
  rw [k.property] at hlen
  rw [decodeKey32, ensure_of hlen, ok_bind, hpairs, ok_bind, tryIntoArr_val, okOr_some]

theorem numeral_hexPair (b : UInt8) : Numeral 16 (hexPair b) b.toNat := by
  obtain ⟨hhi, -⟩ := toDigit_digitChar (high_lt b)
  obtain ⟨hlo, -⟩ := toDigit_digitChar (low_lt b)
  refine ⟨List.cons_ne_nil _ _, ?_⟩
  simp only [digitsValue, hexPair, List.foldlM_cons, List.foldlM_nil, hhi, hlo, Option.map_some,
    Option.pure_def, Option.bind_eq_bind, Option.bind_some]
  congr 1
  omega

theorem parseByte_of_numeral {p : List Char} {b : UInt8} (hlen : p.length = 2)
    (h : Numeral 16 p b.toNat) : parseByte p = some b := by
  have hbytes : (asBytes (String.ofList p)).length = 2 := by
    rw [asBytes_ascii fun c hc => ascii_of_toDigit (toDigit_of_mem h.value c hc), List.length_map,
      hlen]
  rw [parseByte, if_neg (not_not.mpr hbytes), h.fromStrRadix b.toNat_lt, Option.map_some,
    UInt8.ofNat_toNat]

theorem parseByte_hexPair (b : UInt8) : parseByte (hexPair b) = some b :=
  parseByte_of_numeral rfl (numeral_hexPair b)

theorem splitOn_formatDeviceId (id : Arr 6) :
    (formatDeviceId id).toList.splitOn ':' = id.val.map hexPair := by
  have hcolon : ∀ p ∈ id.val.map hexPair, ':' ∉ p := by
    intro p hp hmem
    obtain ⟨b, -, rfl⟩ := List.mem_map.mp hp
    rcases List.mem_pair.mp hmem with h | h
    · exact (toDigit_digitChar (high_lt b)).2 h.symm
    · exact (toDigit_digitChar (low_lt b)).2 h.symm
  have hne : id.val.map hexPair ≠ [] := by
    intro h
    have hlen := congrArg List.length h
    rw [List.length_map, id.property] at hlen
    cases hlen
  rw [formatDeviceId, String.toList_ofList, List.splitOn_intercalate ':' hcolon hne]

theorem parseDeviceId_formatDeviceId (id : Arr 6) : parseDeviceId (formatDeviceId id) = some id := by
  have hbytes : (id.val.map hexPair).mapM parseByte = some id.val := by
    rw [mapM_eq_some, List.forall₂_map_left_iff, List.forall₂_same]
    exact fun b _ => parseByte_hexPair b
  rw [parseDeviceId, splitOn_formatDeviceId, hbytes, Option.bind_some, tryIntoArr_val]

theorem controllerFromRecord_toRecord (k : ControllerKeypair) :
    controllerFromRecord (controllerToRecord k) = .ok k := by
  rw [controllerFromRecord, controllerToRecord, decodeKey32_encodeHex]
  rfl

theorem broadcastFromRecord_toRecord (b : StoredBroadcast) :
    broadcastFromRecord (broadcastToRecord b) = .ok b := by
  rw [broadcastFromRecord, broadcastToRecord, decodeKey32_encodeHex]
  rfl

theorem accessoryFromRecord_toRecord (a : StoredAccessory) :
    accessoryFromRecord (accessoryToRecord a) = .ok a := by
  obtain ⟨pairing, transport⟩ := a
  rw [accessoryFromRecord, accessoryToRecord, decodeKey32_encodeHex, ok_bind]
  cases transport with
  | ip addr => rfl
  | ble deviceId broadcast =>
    cases broadcast with
    | none =>
      simp only [transportFromRecord, Option.map_none, parseDeviceId_formatDeviceId, okOr_some,
        ok_bind, pure_eq_ok]
    | some b =>
      simp only [transportFromRecord, Option.map_some, parseDeviceId_formatDeviceId, okOr_some,
        broadcastFromRecord_toRecord, ok_bind, pure_eq_ok]

theorem accessoryFromRecord_id {r : AccessoryRecord} {a : StoredAccessory}
    (h : accessoryFromRecord r = .ok a) : r.id = a.id := by
  obtain ⟨ltpk, -, h⟩ := bind_eq_ok.mp h
  obtain ⟨transport, -, h⟩ := bind_eq_ok.mp h
  obtain rfl := Except.ok.inj h
  rfl

end HapRust.Pairing
