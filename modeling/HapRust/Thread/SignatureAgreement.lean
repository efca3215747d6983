import HapRust.Ble.Signature
import HapRust.Thread.DatabaseTree

/-! One characteristic on two transports: over BLE it is described by its signature, over
Thread by its entry in the database. Both carry the same three fields under the same TLV
types, so that one body can be given to both decoders. -/

namespace HapRust.Thread
open Lib Tlv8 Model Ble

structure SignatureFields where
  type : Arr 16
  properties : UInt16
  presentation : Option Bytes

namespace SignatureFields
variable (f : SignatureFields)

def uuid : Uuid := ⟨String.ofList (dashed f.type.val)⟩

structure CarriedBy (body : Bytes) (map : Tlv8Map) : Prop where
  parse : Tlv8Map.parse body = .ok map
  type : map.get 0x04 = some f.type.val.reverse
  properties : map.get 0x0A = some (leBytes 2 f.properties.toNat)
  presentation : map.get 0x0C = f.presentation

def entry (iid : UInt16) : CharacteristicEntry := ⟨.full f.type, iid, f.properties, f.presentation⟩

theorem carriedBy_entry (iid : UInt16) : f.CarriedBy (f.entry iid).bytes ⟨(f.entry iid).items⟩ :=
  ⟨(f.entry iid).parse_bytes, rfl, rfl, (f.entry iid).get_presentation⟩

variable {f} {body : Bytes} {map : Tlv8Map}

/-! ## Over BLE -/

theorem cut_hexBytes {b : Bytes} {i j : Nat} (hij : i ≤ j) (hj : j ≤ b.length) :
    ((hexBytes b).take (2 * j)).drop (2 * i) = hexBytes ((b.drop i).take (j - i)) := by
  have happend : ∀ l r : Bytes, hexBytes (l ++ r) = hexBytes l ++ hexBytes r :=
    fun l r => List.flatMap_append
  have htake : (hexBytes b).take (2 * j) = hexBytes (b.take j) := by
    conv_lhs => rw [← List.take_append_drop j b, happend]
    exact List.take_left' (by rw [length_hexBytes, List.length_take, Nat.min_eq_left hj])
  have hsplit : b.take j = b.take i ++ (b.drop i).take (j - i) := by
    rw [← List.drop_take, ← List.take_append_drop i (b.take j), List.take_take,
      Nat.min_eq_left hij, List.drop_left' (by rw [List.length_take]; omega)]
  rw [htake, hsplit, happend]
  exact List.drop_left' (by rw [length_hexBytes, List.length_take]; omega)

theorem leBytesToUuid_eq (be : Arr 16) :
    leBytesToUuid be.val.reverse = .ok (String.ofList (dashed be.val)) := by
  have hlen := be.property
  have h₀ : (hexBytes be.val).take 8 = hexBytes (be.val.take 4) :=
    cut_hexBytes (i := 0) (j := 4) (by decide) (by omega)
  have h₁ := cut_hexBytes (b := be.val) (i := 4) (j := 6) (by decide) (by omega)
  have h₂ := cut_hexBytes (b := be.val) (i := 6) (j := 8) (by decide) (by omega)
  have h₃ := cut_hexBytes (b := be.val) (i := 8) (j := 10) (by decide) (by omega)
  have h₄ := cut_hexBytes (b := be.val) (i := 10) (j := 16) (by decide) (by omega)
  have hlast : (be.val.drop 10).take 6 = be.val.drop 10 :=
    List.take_of_length_le (by rw [List.length_drop]; omega)
  rw [leBytesToUuid, ensure_of (by rw [List.length_reverse, hlen]), ok_bind, List.reverse_reverse]
  change Except.ok (String.ofList (['-'].intercalate [(hexBytes be.val).take 8,
    ((hexBytes be.val).take 12).drop 8, ((hexBytes be.val).take 16).drop 12,
    ((hexBytes be.val).take 20).drop 16, ((hexBytes be.val).take 32).drop 20])) = _
  rw [h₀, h₁, h₂, h₃, h₄, hlast]
  rfl

theorem parseSignature_of_carriedBy (h : f.CarriedBy body map) :
    parseSignature body =
      (okOr (signatureFormat (.fromUuid f.uuid) f.presentation)
        (.malformedPdu "no usable characteristic format")).map fun format =>
          ⟨.fromUuid f.uuid, format, permsFromProperties f.properties, f.properties⟩ := by
  have hword : UInt16.ofNat (leNat ((leBytes 2 f.properties.toNat).take 2)) = f.properties := by
    rw [List.take_of_length_le (by rw [leBytes_length]), leNat_leBytes,
      Nat.mod_eq_of_lt (show f.properties.toNat < 256 ^ 2 from f.properties.toNat_lt),
      UInt16.ofNat_toNat]
  rw [parseSignature, h.parse, mapErr_ok, ok_bind, Param.charType, h.type, okOr_some, ok_bind,
    leBytesToUuid_eq, ok_bind, parse_dashed f.type.property, mapErr_ok, ok_bind, Param.properties,
    h.properties, okOr_some, ok_bind, ensure_of (by rw [leBytes_length]), ok_bind, hword,
    Param.presentationFormat, h.presentation]
  rfl

/-! ## Over Thread -/

section
variable {σ : Type} (serviceType : Uuid → σ)

def typeTables : TypeTables σ CharacteristicType := ⟨serviceType, CharacteristicType.fromUuid⟩

theorem of_decodeCharacteristic {c : Characteristic CharacteristicType} (h : f.CarriedBy body map)
    (hc : decodeCharacteristic (typeTables serviceType) body = .ok c) :
    c.charType = .fromUuid (TypeCode.full f.type).read ∧
      c.format = (formatAndUnit f.presentation).1 ∧ c.perms = permsFrom f.properties := by
  have hread := TypeCode.typeUuid_bytes (.full f.type)
  rw [decodeCharacteristic, h.parse, mapErr_ok, ok_bind] at hc
  obtain ⟨iid, -, hc⟩ := bind_eq_ok.mp hc
  rw [Ty.chrType, h.type, Option.getD_some] at hc
  obtain ⟨uuid, huuid, hc⟩ := bind_eq_ok.mp hc
  obtain rfl : uuid = (TypeCode.full f.type).read := Except.ok.inj (huuid.symm.trans hread)
  rw [Ty.chrProps, Tlv8Map.getU16_of_get h.properties, mapErr_ok, ok_bind, Ty.presFmt,
    h.presentation] at hc
  obtain rfl := (Except.ok.inj hc).symm
  exact ⟨rfl, rfl, rfl⟩

end

/-! ## What they make of the fields -/

/-- The descriptor starts with a format that is known. -/
def Described (f : SignatureFields) : Prop :=
  ((f.presentation.bind List.head?).bind charFormatFromGatt).isSome = true

theorem presentationFormat_some (b : UInt8) :
    presentationFormat (some b) = (charFormatFromGatt b).getD .data := by
  unfold charFormatFromGatt
  split <;> try rfl
  unfold presentationFormat
  split <;> simp_all

theorem formatAndUnit_eq (pf : Option Bytes) :
    (formatAndUnit pf).1 = ((pf.bind List.head?).bind charFormatFromGatt).getD .data := by
  rcases pf with _ | _ | ⟨b, pf⟩
  · rfl
  · rfl
  · exact presentationFormat_some b

theorem signatureFormat_of_described (h : f.Described) :
    signatureFormat (.fromUuid f.uuid) f.presentation = some (formatAndUnit f.presentation).1 := by
  obtain ⟨format, hformat⟩ := Option.isSome_iff_exists.mp h
  rw [signatureFormat, formatAndUnit_eq, hformat]
  rfl

theorem signatureFormat_of_not_described (h : ¬ f.Described) :
    signatureFormat (.fromUuid f.uuid) f.presentation =
      (CharacteristicType.fromUuid f.uuid).defaultFormat := by
  rw [Described, Option.not_isSome_iff_eq_none] at h
  rw [signatureFormat, h, Option.none_or]

theorem format_of_not_described (h : ¬ f.Described) : (formatAndUnit f.presentation).1 = .data := by
  rw [Described, Option.not_isSome_iff_eq_none] at h
  rw [formatAndUnit_eq, h, Option.getD_none]

/-- The permissions that only the database knows of are not given. -/
def PlainPermissions (p : UInt16) : Prop :=
  p &&& 0x0004 = 0 ∧ p &&& 0x0008 = 0 ∧ (p &&& 0x0080 = 0 → p &&& 0x0100 = 0)

theorem perms_eq_iff (p : UInt16) : permsFrom p = permsFromProperties p ↔ PlainPermissions p := by
  have hmask : ∀ a b : UInt16, (p &&& (a ||| b) != 0) = (p &&& a != 0 || p &&& b != 0) := by
    intro a b
    have hdistrib : p &&& (a ||| b) = p &&& a ||| p &&& b :=
      UInt16.toBitVec_inj.mp BitVec.and_or_distrib_left
    rw [hdistrib, Bool.eq_iff_iff]
    simp only [bne_iff_ne, ne_eq, Bool.or_eq_true, UInt16.or_eq_zero_iff]
    tauto
  simp only [permsFrom, permsFromProperties, Perms.mk.injEq, hmask, PlainPermissions]
  simp only [true_and, and_true, bne_eq_false_iff_eq, Bool.or_eq_left_iff_imp]
  simp only [bne_iff_ne]
  tauto

theorem digit_of_headless (h : (TypeCode.full f.type).Headless) :
    f.uuid.full.toList[14]? = some '0' := by
  have hzeros : f.type.val.take 12 = List.replicate 12 0 := by
    rw [List.eq_replicate_iff, List.length_take, f.type.property]
    refine ⟨rfl, fun b hb => ?_⟩
    simpa using List.all_eq_true.mp h b hb
  rw [uuid, String.toList_ofList, ← List.take_append_drop 12 f.type.val, hzeros]
  rfl

theorem digit_hapBase (n : UInt32) : (Uuid.hapBase n).full.toList[14]? = some '1' := by
  have hbefore : (fixedDigits 16 8 n.toNat).length ≤ 14 := by
    rw [length_fixedDigits]
    decide
  rw [Uuid.hapBase, String.toList_ofList, List.getElem?_append_right hbefore, length_fixedDigits]
  decide

theorem read_eq_uuid_iff :
    (TypeCode.full f.type).read = f.uuid ↔ ¬ (TypeCode.full f.type).Headless := by
  constructor
  · intro hread hhead
    have hdigit := digit_of_headless hhead
    have hzero : (f.type.val.take 12).all (· == 0) = true := hhead
    rw [← hread, TypeCode.read, if_pos hzero, digit_hapBase] at hdigit
    cases hdigit
  · exact TypeCode.read_eq_uuid

/-- Whatever bodies the fields come in, if both decoders accept them they agree. -/
def SameModel {σ : Type} (serviceType : Uuid → σ) (f : SignatureFields) : Prop :=
  ∀ body map body' map' sig c, f.CarriedBy body map → f.CarriedBy body' map' →
    parseSignature body = .ok sig →
    decodeCharacteristic (typeTables serviceType) body' = .ok c →
    c.charType = sig.charType ∧ c.format = sig.format ∧ c.perms = sig.perms

/-- The transports agree on a characteristic whose descriptor gives a known format, whose type
has a head and whose permissions both know. Without a known format BLE goes by the type, and
takes the characteristic only if the type is known for one; Thread never does. -/
theorem sameModel_iff {σ : Type} (serviceType : Uuid → σ) (f : SignatureFields) :
    f.SameModel serviceType ↔
      (f.Described ∧ ¬ (TypeCode.full f.type).Headless ∧ PlainPermissions f.properties) ∨
      (¬ f.Described ∧ (CharacteristicType.fromUuid f.uuid).defaultFormat = none) := by
  constructor
  · intro hsame
    have hcarried := f.carriedBy_entry 1
    have hdecode := decodeCharacteristic_bytes (T := typeTables serviceType) (f.entry 1)
    have hparse := parseSignature_of_carriedBy hcarried
    by_cases hdesc : f.Described
    · rw [signatureFormat_of_described hdesc] at hparse
      obtain ⟨htype, -, hperms⟩ := hsame _ _ _ _ _ _ hcarried hcarried hparse hdecode
      have hread : (TypeCode.full f.type).read = f.uuid :=
        CharacteristicType.fromUuid_injective htype
      exact .inl ⟨hdesc, read_eq_uuid_iff.mp hread, (perms_eq_iff _).mp hperms⟩
    · refine .inr ⟨hdesc, ?_⟩
      rw [signatureFormat_of_not_described hdesc] at hparse
      cases hdefault : (CharacteristicType.fromUuid f.uuid).defaultFormat with
      | none => rfl
      | some format =>
        rw [hdefault] at hparse
        obtain ⟨-, hformat, -⟩ := hsame _ _ _ _ _ _ hcarried hcarried hparse hdecode
        have hdata : format = .data := hformat.symm.trans (format_of_not_described hdesc)
        rw [hdata] at hdefault
        exact absurd hdefault (CharacteristicType.defaultFormat_ne_data _)
  · rintro (⟨hdesc, hhead, hplain⟩ | ⟨hdesc, hdefault⟩)
    · intro body map body' map' sig c hcarried hcarried' hparse hdecode
      rw [parseSignature_of_carriedBy hcarried, signatureFormat_of_described hdesc] at hparse
      obtain rfl := (Except.ok.inj hparse).symm
      obtain ⟨htype, hformat, hperms⟩ := of_decodeCharacteristic serviceType hcarried' hdecode
      rw [read_eq_uuid_iff.mpr hhead] at htype
      exact ⟨htype, hformat, hperms.trans ((perms_eq_iff _).mpr hplain)⟩
    · intro body map body' map' sig c hcarried _ hparse _
      rw [parseSignature_of_carriedBy hcarried, signatureFormat_of_not_described hdesc,
        hdefault] at hparse
      cases hparse

def disconnectedSwitch : SignatureFields where
  type := TypeCode.hapBase 0x25
  properties := 0x0101
  presentation := some [0x01, 0x00, 0x00, 0x27, 0x01, 0x00, 0x00]

/-- Over Thread it has events, over BLE it has none. -/
theorem events_only_over_thread :
    ∃ sig c, parseSignature (disconnectedSwitch.entry 9).bytes = .ok sig ∧
      decodeCharacteristic (typeTables fun u => u) (disconnectedSwitch.entry 9).bytes = .ok c ∧
      sig.perms.events = false ∧ c.perms.events = true := by
  refine ⟨_, _, parseSignature_of_carriedBy (disconnectedSwitch.carriedBy_entry 9),
    decodeCharacteristic_bytes (disconnectedSwitch.entry 9), ?_, ?_⟩
  · decide
  · decide

end SignatureFields
end HapRust.Thread
