import HapRust.Thread.Database

/-! Databases as accessories encode them, innermost value first: a list is its entries with
an empty item of type zero between them, and what is encoded is a value of the level above. -/

namespace HapRust.Thread
open Lib Tlv8 Model

/-! ## Types -/

/-- A type: the number of one that HAP defines, in so many bytes, or a UUID written out. -/
inductive TypeCode where
  | short (n : UInt32) (width : Nat) (fits : n.toNat < 256 ^ width)
  | full (be : Arr 16)

namespace TypeCode

def bytes : TypeCode → Bytes
  | short n width _ => leBytes width n.toNat
  | full be => be.val.reverse

def uuid : TypeCode → Uuid
  | short n _ _ => .hapBase n
  | full be => ⟨String.ofList (dashed be.val)⟩

/-- Written out, but with nothing in the twelve bytes above a number. -/
def Headless : TypeCode → Prop
  | short _ _ _ => False
  | full be => (be.val.take 12).all (· == 0) = true

def hapBase (n : UInt32) : Arr 16 :=
  ⟨(leBytes 4 n.toNat).reverse ++
    [0x00, 0x00, 0x10, 0x00, 0x80, 0x00, 0x00, 0x26, 0xBB, 0x76, 0x52, 0x91], by
    rw [List.length_append, List.length_reverse, leBytes_length]
    rfl⟩

theorem typeBytes_leBytes {n width : Nat} (h : n < 256 ^ width) :
    typeBytes (leBytes width n) = leBytes 16 n := by
  rw [typeBytes, leBytes_length]
  by_cases hwidth : width ≤ 16
  · have hsplit : leBytes (width + (16 - width)) n =
        leBytes width n ++ List.replicate (16 - width) 0 := by
      rw [leBytes_add, Nat.div_eq_of_lt h, leBytes_zero]
    rw [Nat.add_sub_cancel' hwidth] at hsplit
    rw [List.take_of_length_le (by rwa [leBytes_length]), hsplit]
  · have hsplit : leBytes (16 + (width - 16)) n =
        leBytes 16 n ++ leBytes (width - 16) (n / 256 ^ 16) := leBytes_add 16 (width - 16) n
    rw [Nat.add_sub_cancel' (by omega)] at hsplit
    rw [hsplit, List.take_append_of_le_length (by rw [leBytes_length]),
      List.take_of_length_le (by rw [leBytes_length]), Nat.sub_eq_zero_of_le (by omega)]
    exact List.append_nil _

theorem leBytes_sixteen (n : UInt32) :
    leBytes 16 n.toNat = leBytes 4 n.toNat ++ List.replicate 12 0 := by
  have hlt : n.toNat < 256 ^ 4 := n.toNat_lt
  have hsplit := leBytes_add 4 12 n.toNat
  rwa [Nat.div_eq_of_lt hlt, leBytes_zero] at hsplit

theorem typeUuid_short (n : UInt32) {width : Nat} (h : n.toNat < 256 ^ width) :
    typeUuid (leBytes width n.toNat) = .ok (.hapBase n) := by
  have hbytes : typeBytes (leBytes width n.toNat) =
      leBytes 4 n.toNat ++ List.replicate 12 0 := by
    rw [typeBytes_leBytes h, leBytes_sixteen]
  have hdrop : (typeBytes (leBytes width n.toNat)).drop 4 = List.replicate 12 0 := by
    rw [hbytes, List.drop_left' (leBytes_length _ _)]
  have htake : (typeBytes (leBytes width n.toNat)).take 4 = leBytes 4 n.toNat := by
    rw [hbytes, List.take_left' (leBytes_length _ _)]
  have hshort : IsShort (leBytes width n.toNat) := by
    rw [IsShort, hdrop]
    rfl
  have hlt : n.toNat < 256 ^ 4 := n.toNat_lt
  rw [typeUuid_of_short hshort, htake, leNat_leBytes, Nat.mod_eq_of_lt hlt, UInt32.ofNat_toNat]

theorem typeBytes_full (be : Arr 16) : typeBytes be.val.reverse = be.val.reverse := by
  apply typeBytes_of_length
  rw [List.length_reverse, be.property]

theorem isShort_full {be : Arr 16} : IsShort be.val.reverse ↔ (full be).Headless := by
  have hdrop : be.val.reverse.drop 4 = (be.val.take 12).reverse := by
    rw [List.drop_reverse, be.property]
  rw [IsShort, typeBytes_full, hdrop, List.all_reverse]
  rfl

def read : TypeCode → Uuid
  | short n _ _ => .hapBase n
  | full be =>
    if (be.val.take 12).all (· == 0) then .hapBase (UInt32.ofNat (leNat (be.val.reverse.take 4)))
    else ⟨String.ofList (dashed be.val)⟩

theorem typeUuid_bytes (t : TypeCode) : typeUuid t.bytes = .ok t.read := by
  cases t with
  | short n width fits => exact typeUuid_short n fits
  | full be =>
    rw [read]
    split_ifs with hhead
    · have hread := typeUuid_of_short (isShort_full.mpr hhead)
      rwa [typeBytes_full] at hread
    · have hread := typeUuid_of_not_short (mt isShort_full.mp hhead)
      rwa [typeBytes_full, List.reverse_reverse] at hread

theorem read_eq_uuid {t : TypeCode} (h : ¬ t.Headless) : t.read = t.uuid := by
  cases t with
  | short n width fits => rfl
  | full be => exact if_neg h

theorem not_headless_hapBase (n : UInt32) : ¬ (full (hapBase n)).Headless := by
  intro hhead
  have hmem : (0x10 : UInt8) ∈ (hapBase n).val.take 12 := by
    rw [hapBase, List.take_append, List.take_of_length_le
      (by rw [List.length_reverse, leBytes_length]; decide), List.length_reverse, leBytes_length]
    exact List.mem_append_right _ (by decide)
  have hzero := List.all_eq_true.mp hhead _ hmem
  revert hzero
  decide

theorem dashed_hapBase (n : UInt32) :
    String.ofList (dashed (hapBase n).val) = (Uuid.hapBase n).full := by
  have hsplit : ∀ head tail : Bytes, head.length = 4 → dashed (head ++ tail) =
      ['-'].intercalate [hexBytes head, hexBytes (tail.take 2), hexBytes ((tail.drop 2).take 2),
        hexBytes ((tail.drop 4).take 2), hexBytes (tail.drop 6)] := by
    intro head tail hhead
    rw [dashed, List.take_left' hhead, List.drop_left' hhead, ← List.drop_drop (i := 2) (j := 4),
      ← List.drop_drop (i := 4) (j := 4), ← List.drop_drop (i := 6) (j := 4),
      List.drop_left' hhead]
  rw [hapBase, hsplit _ _ (by rw [List.length_reverse, leBytes_length]), hexBytes_leBytes,
    Uuid.hapBase]
  rfl

def StandsFor (n : UInt32) : TypeCode → Prop
  | short m _ _ => m = n
  | full be => be = hapBase n

theorem StandsFor.read_eq {n : UInt32} {t : TypeCode} (h : t.StandsFor n) : t.read = .hapBase n := by
  cases t with
  | short m width fits =>
    cases h
    rfl
  | full be =>
    cases h
    rw [read_eq_uuid (not_headless_hapBase n), uuid, dashed_hapBase]

def Respelled (t t' : TypeCode) : Prop := t = t' ∨ ∃ n, t.StandsFor n ∧ t'.StandsFor n

theorem Respelled.read_eq {t t' : TypeCode} (h : t.Respelled t') : t.read = t'.read := by
  rcases h with rfl | ⟨n, ht, ht'⟩
  · rfl
  · rw [ht.read_eq, ht'.read_eq]

end TypeCode

/-! ## Lists -/

def listEntries (itemType : UInt8) : List Bytes → List Item
  | [] => []
  | [entry] => [(itemType, entry)]
  | entry :: next :: entries =>
    (itemType, entry) :: (0x00, []) :: listEntries itemType (next :: entries)

def encodeList (itemType : UInt8) (entries : List Bytes) : Bytes :=
  writeTlv (listEntries itemType entries)

section
variable {itemType : UInt8}

theorem filter_listEntries (h : itemType ≠ 0) (entries : List Bytes) :
    ((listEntries itemType entries).filter (·.1 == itemType)).map (·.2) = entries := by
  fun_induction listEntries itemType entries with
  | case1 => rfl
  | case2 entry => simp
  | case3 entry next entries ih =>
    rw [List.filter_cons_of_pos (by simp), List.filter_cons_of_neg (by simpa using h.symm),
      List.map_cons, ih]

theorem any_separator_listEntries (h : itemType ≠ separator) (entries : List Bytes) :
    (listEntries itemType entries).any (fun i => i.1 == separator) = false := by
  have hitem : (itemType == separator) = false := by simpa using h
  fun_induction listEntries itemType entries with
  | case1 => rfl
  | case2 entry => rw [List.any_cons, hitem, List.any_nil, Bool.or_false]
  | case3 entry next entries ih =>
    rw [List.any_cons, List.any_cons, ih, hitem]
    rfl

theorem listItems_encodeList (hzero : itemType ≠ 0) (hseparator : itemType ≠ separator)
    (entries : List Bytes) : listItems (encodeList itemType entries) itemType = .ok entries := by
  rw [listItems, encodeList, Tlv8Map.parse_writeTlv (any_separator_listEntries hseparator entries),
    mapErr_ok, ok_bind, filter_listEntries hzero]
  rfl

end

/-! ## The tree -/

structure CharacteristicEntry where
  type : TypeCode
  iid : UInt16
  properties : UInt16
  presentation : Option Bytes

structure ServiceEntry where
  type : TypeCode
  iid : UInt16
  characteristics : List CharacteristicEntry
  properties : Option Bytes
  linked : Option Bytes

structure AccessoryEntry where
  aid : UInt16
  services : List ServiceEntry

def optionalItem (ty : UInt8) (value : Option Bytes) : List Item :=
  value.toList.map fun v => (ty, v)

def CharacteristicEntry.items (c : CharacteristicEntry) : List Item :=
  [(0x04, c.type.bytes), (0x05, leBytes 2 c.iid.toNat), (0x0A, leBytes 2 c.properties.toNat)] ++
    optionalItem 0x0C c.presentation

def CharacteristicEntry.bytes (c : CharacteristicEntry) : Bytes := writeTlv c.items

def ServiceEntry.items (s : ServiceEntry) : List Item :=
  [(0x06, s.type.bytes), (0x07, leBytes 2 s.iid.toNat),
    (0x14, encodeList 0x13 (s.characteristics.map CharacteristicEntry.bytes))] ++
    optionalItem 0x0F s.properties ++ optionalItem 0x10 s.linked

def ServiceEntry.bytes (s : ServiceEntry) : Bytes := writeTlv s.items

def AccessoryEntry.items (a : AccessoryEntry) : List Item :=
  [(0x1A, leBytes 2 a.aid.toNat), (0x16, encodeList 0x15 (a.services.map ServiceEntry.bytes))]

def AccessoryEntry.bytes (a : AccessoryEntry) : Bytes := writeTlv a.items

def encodeDatabase (tree : List AccessoryEntry) : Bytes :=
  writeTlv [(0x18, encodeList 0x19 (tree.map AccessoryEntry.bytes))]

section
variable {σ χ : Type} (T : TypeTables σ χ) (name : TypeCode → Uuid)

/-! The tree that is described, with the types under the names that `name` gives them. -/

def CharacteristicEntry.characteristic (c : CharacteristicEntry) : Characteristic χ where
  iid := c.iid.toUInt64
  charType := T.characteristicType (name c.type)
  format := (formatAndUnit c.presentation).1
  perms := permsFrom c.properties
  value := none
  unit := (formatAndUnit c.presentation).2
  minValue := none
  maxValue := none
  minStep := none
  maxLen := none

def ServiceEntry.service (s : ServiceEntry) : Service σ χ where
  iid := s.iid.toUInt64
  serviceType := T.serviceType (name s.type)
  characteristics := s.characteristics.map (CharacteristicEntry.characteristic T name)

def AccessoryEntry.accessory (a : AccessoryEntry) : Accessory σ χ where
  aid := a.aid.toUInt64
  services := a.services.map (ServiceEntry.service T name)

def ServiceEntry.types (s : ServiceEntry) : List TypeCode :=
  s.type :: s.characteristics.map CharacteristicEntry.type

def AccessoryEntry.types (a : AccessoryEntry) : List TypeCode := a.services.flatMap ServiceEntry.types

section
variable {T name}

theorem CharacteristicEntry.parse_bytes (c : CharacteristicEntry) :
    Tlv8Map.parse c.bytes = .ok ⟨c.items⟩ := by
  apply Tlv8Map.parse_writeTlv
  cases hpf : c.presentation <;> simp [items, optionalItem, hpf] <;> decide

theorem CharacteristicEntry.get_presentation (c : CharacteristicEntry) :
    Tlv8Map.get ⟨c.items⟩ Ty.presFmt = c.presentation := by
  cases hpf : c.presentation <;> rw [items, hpf] <;> rfl

theorem decodeCharacteristic_bytes (c : CharacteristicEntry) :
    decodeCharacteristic T c.bytes = .ok (c.characteristic T TypeCode.read) := by
  have hiid : Tlv8Map.getU16 ⟨c.items⟩ Ty.chrIid = .ok (some c.iid) := Tlv8Map.getU16_of_get rfl
  have hproperties : Tlv8Map.getU16 ⟨c.items⟩ Ty.chrProps = .ok (some c.properties) :=
    Tlv8Map.getU16_of_get rfl
  have htype : Tlv8Map.get ⟨c.items⟩ Ty.chrType = some c.type.bytes := rfl
  rw [decodeCharacteristic, c.parse_bytes, mapErr_ok, ok_bind, hiid, mapErr_ok, ok_bind, htype,
    Option.getD_some, TypeCode.typeUuid_bytes, ok_bind, hproperties, mapErr_ok, ok_bind,
    c.get_presentation]
  rfl

theorem decodeService_bytes (s : ServiceEntry) :
    decodeService T s.bytes = .ok (s.service T TypeCode.read) := by
  have hno : s.items.any (fun i => i.1 == separator) = false := by
    cases hprops : s.properties <;> cases hlinked : s.linked <;>
      simp [ServiceEntry.items, optionalItem, hprops, hlinked] <;> decide
  have hiid : Tlv8Map.getU16 ⟨s.items⟩ Ty.svcIid = .ok (some s.iid) := Tlv8Map.getU16_of_get rfl
  have htype : Tlv8Map.get ⟨s.items⟩ Ty.svcType = some s.type.bytes := rfl
  have hchars : Tlv8Map.get ⟨s.items⟩ Ty.chars =
      some (encodeList Ty.char (s.characteristics.map CharacteristicEntry.bytes)) := rfl
  rw [decodeService, ServiceEntry.bytes, Tlv8Map.parse_writeTlv hno, mapErr_ok, ok_bind, hiid,
    mapErr_ok, ok_bind, htype, Option.getD_some, TypeCode.typeUuid_bytes, ok_bind, hchars,
    Option.getD_some, listItems_encodeList (by decide) (by decide), ok_bind,
    mapM_map_eq_ok fun c _ => decodeCharacteristic_bytes c]
  rfl

theorem decodeAccessory_bytes (a : AccessoryEntry) :
    decodeAccessory T a.bytes = .ok (a.accessory T TypeCode.read) := by
  have haid : Tlv8Map.getU16 ⟨a.items⟩ Ty.accIid = .ok (some a.aid) := Tlv8Map.getU16_of_get rfl
  have hservices : Tlv8Map.get ⟨a.items⟩ Ty.services =
      some (encodeList Ty.service (a.services.map ServiceEntry.bytes)) := rfl
  rw [decodeAccessory, AccessoryEntry.bytes, Tlv8Map.parse_writeTlv rfl, mapErr_ok, ok_bind, haid,
    mapErr_ok, ok_bind, hservices, Option.getD_some, listItems_encodeList (by decide) (by decide),
    ok_bind, mapM_map_eq_ok fun s _ => decodeService_bytes s]
  rfl

theorem decodeDatabase_bytes (tree : List AccessoryEntry) :
    decodeDatabase T (encodeDatabase tree) =
      .ok (tree.map (AccessoryEntry.accessory T TypeCode.read)) := by
  have haccessories : Tlv8Map.get ⟨[(0x18, encodeList 0x19 (tree.map AccessoryEntry.bytes))]⟩
      Ty.accessories = some (encodeList Ty.accessory (tree.map AccessoryEntry.bytes)) := rfl
  rw [decodeDatabase, encodeDatabase, Tlv8Map.parse_writeTlv rfl, mapErr_ok, ok_bind, haccessories,
    Option.getD_some, listItems_encodeList (by decide) (by decide), ok_bind]
  exact mapM_map_eq_ok fun a _ => decodeAccessory_bytes a

theorem service_congr {name' : TypeCode → Uuid} {s : ServiceEntry}
    (h : ∀ t ∈ s.types, name t = name' t) : s.service T name = s.service T name' := by
  have hchars : s.characteristics.map (CharacteristicEntry.characteristic T name) =
      s.characteristics.map (CharacteristicEntry.characteristic T name') := by
    apply List.map_congr_left
    intro c hc
    rw [CharacteristicEntry.characteristic, CharacteristicEntry.characteristic,
      h c.type (List.mem_cons_of_mem _ (List.mem_map_of_mem hc))]
  rw [ServiceEntry.service, ServiceEntry.service, h s.type (List.mem_cons_self ..), hchars]

theorem accessory_congr {name' : TypeCode → Uuid} {a : AccessoryEntry}
    (h : ∀ t ∈ a.types, name t = name' t) : a.accessory T name = a.accessory T name' := by
  have hservices : a.services.map (ServiceEntry.service T name) =
      a.services.map (ServiceEntry.service T name') := by
    apply List.map_congr_left
    intro s hs
    apply service_congr
    intro t ht
    exact h t (List.mem_flatMap.mpr ⟨s, hs, ht⟩)
  rw [AccessoryEntry.accessory, AccessoryEntry.accessory, hservices]

/-! Trees that differ in how their types are given. -/

def CharacteristicEntry.Respelled (c c' : CharacteristicEntry) : Prop :=
  ∃ t, c.type.Respelled t ∧ c' = { c with type := t }

def ServiceEntry.Respelled (s s' : ServiceEntry) : Prop :=
  ∃ t cs, s.type.Respelled t ∧
    List.Forall₂ CharacteristicEntry.Respelled s.characteristics cs ∧
    s' = { s with type := t, characteristics := cs }

def AccessoryEntry.Respelled (a a' : AccessoryEntry) : Prop :=
  ∃ services, List.Forall₂ ServiceEntry.Respelled a.services services ∧
    a' = { a with services := services }

theorem CharacteristicEntry.Respelled.characteristic_eq {c c' : CharacteristicEntry}
    (h : c.Respelled c') :
    c'.characteristic T TypeCode.read = c.characteristic T TypeCode.read := by
  obtain ⟨t, htype, rfl⟩ := h
  rw [characteristic, characteristic, htype.read_eq]

theorem ServiceEntry.Respelled.service_eq {s s' : ServiceEntry} (h : s.Respelled s') :
    s'.service T TypeCode.read = s.service T TypeCode.read := by
  obtain ⟨t, cs, htype, hchars, rfl⟩ := h
  have hmap : cs.map (CharacteristicEntry.characteristic T TypeCode.read) =
      s.characteristics.map (CharacteristicEntry.characteristic T TypeCode.read) :=
    map_eq_of_forall₂ hchars fun _ _ hc => hc.characteristic_eq
  rw [service, service, htype.read_eq, hmap]

theorem AccessoryEntry.Respelled.accessory_eq {a a' : AccessoryEntry} (h : a.Respelled a') :
    a'.accessory T TypeCode.read = a.accessory T TypeCode.read := by
  obtain ⟨services, hservices, rfl⟩ := h
  have hmap : services.map (ServiceEntry.service T TypeCode.read) =
      a.services.map (ServiceEntry.service T TypeCode.read) :=
    map_eq_of_forall₂ hservices fun _ _ hs => hs.service_eq
  rw [accessory, accessory, hmap]

end
end

variable {σ χ : Type} (T : TypeTables σ χ)

/-- An encoded tree is decoded to that tree unless a type in it is written out with nothing
above a number; and wherever a type is one that HAP defines, either form of it may be used. -/
theorem decodeDatabase_encodeDatabase (tree : List AccessoryEntry)
    (htypes : ∀ a ∈ tree, ∀ t ∈ a.types, ¬ t.Headless) :
    decodeDatabase T (encodeDatabase tree) =
        .ok (tree.map (AccessoryEntry.accessory T TypeCode.uuid)) ∧
      ∀ tree', List.Forall₂ AccessoryEntry.Respelled tree tree' →
        decodeDatabase T (encodeDatabase tree') = decodeDatabase T (encodeDatabase tree) := by
  refine ⟨?_, fun tree' hrespelled => ?_⟩
  · rw [decodeDatabase_bytes]
    congr 1
    apply List.map_congr_left
    intro a ha
    apply accessory_congr
    intro t ht
    exact TypeCode.read_eq_uuid (htypes a ha t ht)
  · have hmap : tree'.map (AccessoryEntry.accessory T TypeCode.read) =
        tree.map (AccessoryEntry.accessory T TypeCode.read) :=
      map_eq_of_forall₂ hrespelled fun _ _ ha => ha.accessory_eq
    rw [decodeDatabase_bytes, decodeDatabase_bytes, hmap]

def vendorType : TypeCode :=
  .full ⟨[0xE8, 0x63, 0xF1, 0x0A, 0x07, 0x9E, 0x48, 0xFF, 0x8F, 0x27, 0x9C, 0x26, 0x05, 0xA2, 0x9F,
    0x52], rfl⟩

def vendorCharacteristic (iid : UInt16) : CharacteristicEntry :=
  ⟨vendorType, iid, 0x0093, some (0x19 :: List.replicate 254 0)⟩

def vendorTree (type : TypeCode) : List AccessoryEntry :=
  [⟨1, [⟨type, 1, [vendorCharacteristic 2, vendorCharacteristic 3], none, some []⟩]⟩, ⟨2, []⟩]

def shortType : TypeCode := .short 0x3E 1 (by decide)

theorem decodeDatabase_encodeDatabase_vendor :
    decodeDatabase (TypeTables.mk id id) (encodeDatabase (vendorTree shortType)) =
        .ok ((vendorTree shortType).map
          (AccessoryEntry.accessory (TypeTables.mk id id) TypeCode.uuid)) ∧
      decodeDatabase (TypeTables.mk id id) (encodeDatabase
          (vendorTree (.full (TypeCode.hapBase 0x3E)))) =
        decodeDatabase (TypeTables.mk id id) (encodeDatabase (vendorTree shortType)) := by
  have hshort : ¬ shortType.Headless := id
  have hvendor : ¬ vendorType.Headless := by
    unfold vendorType TypeCode.Headless
    decide
  have htypes : ∀ a ∈ vendorTree shortType, ∀ t ∈ a.types, ¬ t.Headless := by
    intro a ha t ht
    have hmem : t ∈ [shortType, vendorType, vendorType] := List.mem_flatMap.mpr ⟨a, ha, ht⟩
    simp only [List.mem_cons, List.not_mem_nil, or_false, or_self] at hmem
    rcases hmem with rfl | rfl
    · exact hshort
    · exact hvendor
  obtain ⟨hdecode, hrespell⟩ :=
    decodeDatabase_encodeDatabase (TypeTables.mk id id) (vendorTree shortType) htypes
  have htype : shortType.Respelled (.full (TypeCode.hapBase 0x3E)) := Or.inr ⟨0x3E, rfl, rfl⟩
  have hsame : ∀ iid, (vendorCharacteristic iid).Respelled (vendorCharacteristic iid) :=
    fun iid => ⟨vendorType, Or.inl rfl, rfl⟩
  refine ⟨hdecode, hrespell _ (.cons ⟨_, .cons ⟨_, _, htype, ?_, rfl⟩ .nil, rfl⟩ ?_)⟩
  · exact .cons (hsame 2) (.cons (hsame 3) .nil)
  · exact .cons ⟨[], .nil, rfl⟩ .nil

/-- A UUID that ends in a number with zeros in front is taken for the type of that number. -/
theorem headless_type_shortened :
    decodeDatabase (TypeTables.mk id id) (encodeDatabase
        [⟨1, [⟨.full ⟨List.replicate 15 0 ++ [0x22], rfl⟩, 1, [], none, none⟩]⟩]) =
      .ok [⟨1, [⟨1, ⟨"00000022-0000-1000-8000-0026bb765291"⟩, []⟩]⟩] ∧
    (TypeCode.full ⟨List.replicate 15 0 ++ [0x22], rfl⟩).uuid =
      ⟨"00000000-0000-0000-0000-000000000022"⟩ := by
  refine ⟨?_, by decide +kernel⟩
  have hread : (TypeCode.full ⟨List.replicate 15 0 ++ [0x22], rfl⟩).read =
      ⟨"00000022-0000-1000-8000-0026bb765291"⟩ := by decide +kernel
  rw [decodeDatabase_bytes, ← hread]
  rfl

end HapRust.Thread
