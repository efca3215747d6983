import HapRust.Lib.Separated
import HapRust.Pairing.Records
import HapRust.Tlv8.RoundTrip

/-! The accessory's answer to a request for its pairings. The answer is a state and, for each
pairing, an identifier, a key and permissions; separators divide the pairings from each other.
The parser keeps one of each and gives a pairing at a separator and at the end, so that it
relies on the separators and not on the order of the items. -/

namespace HapRust.Pairing
open Lib Tlv8 Crypto

structure PairingInfo where
  id : String
  ltpk : Arr 32
  admin : Bool
  deriving DecidableEq

namespace ListReply

def permissions : UInt8 := 0x0b
def stateM2 : UInt8 := 0x02
def permAdmin : UInt8 := 0x01
def permUser : UInt8 := 0x00

structure Reading where
  out : List PairingInfo
  id : Option String
  ltpk : Option (Arr 32)
  admin : Option Bool

def flushPairing (s : Reading) : Except PairingError Reading :=
  match s.id, s.ltpk, s.admin with
  | some id, some ltpk, some admin => .ok ⟨s.out ++ [⟨id, ltpk, admin⟩], none, none, none⟩
  | none, none, none => .ok ⟨s.out, none, none, none⟩
  | _, _, _ => .error (.malformed "incomplete pairing entry")

def identifierOf (value : Bytes) : Except PairingError String :=
  okOr (fromUtf8 value) (.malformed "pairing identifier is not utf-8")

def publicKeyOf (value : Bytes) : Except PairingError (Arr 32) :=
  okOr (tryIntoArr 32 value) (.malformed "pairing public key is not 32 bytes")

def isAdmin (value : Bytes) : Bool := value.head?.getD 0 &&& permAdmin != 0

def readItem (s : Reading) (item : Item) : Except PairingError Reading :=
  if item.1 = separator then flushPairing s
  else if item.1 = TlvType.identifier then do
    let id ← identifierOf item.2
    .ok { s with id := some id }
  else if item.1 = TlvType.publicKey then do
    let key ← publicKeyOf item.2
    .ok { s with ltpk := some key }
  else if item.1 = permissions then .ok { s with admin := some (isAdmin item.2) }
  else .ok s

def readEntries (items : List Item) : Except PairingError (List PairingInfo) := do
  let s ← items.foldlM readItem ⟨[], none, none, none⟩
  let s ← flushPairing s
  .ok s.out

end ListReply

open ListReply in
def parseListReply (body : Bytes) : Except PairingError (List PairingInfo) := do
  let items ← mapErr .tlv8 (Tlv8Reader.parse body)
  match items.find? (fun i => i.1 = TlvType.error) with
  | some (_, err) =>
    let code ← okOr err.head? (.malformed "empty error tlv")
    .error (.accessory code)
  | none =>
    ensure ((items.find? fun i => i.1 = TlvType.state).bind (·.2.head?) = some stateM2)
      (.malformed "expected pairings reply state M2")
    readEntries items

namespace ListReply

/-! ## Replies as accessories build them -/

def groupItems (p : PairingInfo) : List Item :=
  [(TlvType.identifier, asBytes p.id), (TlvType.publicKey, p.ltpk.val),
    (permissions, [if p.admin then permAdmin else permUser])]

def replyItems (groups : List (List Item)) : List Item :=
  (TlvType.state, [stateM2]) :: List.intercalate [(separator, [])] groups

def reply (pairings : List PairingInfo) : Bytes := writeTlv (replyItems (pairings.map groupItems))

theorem isAdmin_permissions (admin : Bool) :
    isAdmin [if admin then permAdmin else permUser] = admin := by
  cases admin <;> decide

theorem foldlM_groupItems (s : Reading) (p : PairingInfo) : (groupItems p).foldlM readItem s =
    .ok ⟨s.out, some p.id, some p.ltpk, some p.admin⟩ := by
  have hid : readItem s (TlvType.identifier, asBytes p.id) = .ok { s with id := some p.id } := by
    change (identifierOf (asBytes p.id) >>= fun id => .ok { s with id := some id }) = _
    rw [identifierOf, fromUtf8_asBytes, okOr_some, ok_bind]
  have hkey : ∀ s : Reading, readItem s (TlvType.publicKey, p.ltpk.val) =
      .ok { s with ltpk := some p.ltpk } := by
    intro s
    change (publicKeyOf p.ltpk.val >>= fun key => .ok { s with ltpk := some key }) = _
    rw [publicKeyOf, tryIntoArr_val, okOr_some, ok_bind]
  have hperm : ∀ s : Reading, readItem s (permissions, [if p.admin then permAdmin else permUser]) =
      .ok { s with admin := some p.admin } := by
    intro s
    change Except.ok { s with admin := some (isAdmin _) } = _
    rw [isAdmin_permissions]
  rw [groupItems, List.foldlM_cons, hid, ok_bind, List.foldlM_cons, hkey, ok_bind,
    List.foldlM_cons, hperm]
  rfl

theorem readEntries_state (items : List Item) :
    readEntries ((TlvType.state, [stateM2]) :: items) = readEntries items := by
  rw [readEntries, List.foldlM_cons]
  rfl

theorem readEntries_intercalate (pairings out : List PairingInfo) :
    ((List.intercalate [(separator, [])] (pairings.map groupItems)).foldlM readItem
        ⟨out, none, none, none⟩ >>= fun s => flushPairing s >>= fun s => .ok s.out) =
      .ok (out ++ pairings) := by
  induction pairings generalizing out with
  | nil =>
    rw [List.append_nil]
    rfl
  | cons p pairings ih =>
    cases pairings with
    | nil =>
      rw [List.map_singleton, List.intercalate_singleton, foldlM_groupItems]
      rfl
    | cons q rest =>
      have hnext := ih (out ++ [p])
      rw [List.append_assoc] at hnext
      rw [List.map_cons, List.map_cons, List.intercalate_cons_cons, List.append_assoc,
        List.foldlM_append, foldlM_groupItems, ok_bind, List.singleton_append, List.foldlM_cons]
      exact hnext

theorem parseListReply_replyItems {groups : List (List Item)}
    (h : ∀ g ∈ groups, ∀ i ∈ g, i.1 ≠ separator ∧ i.1 ≠ TlvType.error) :
    parseListReply (writeTlv (replyItems groups)) =
      readEntries (List.intercalate [(separator, [])] groups) := by
  have hitems : ∀ i ∈ replyItems groups, (i.1 = separator → i.2 = []) ∧ i.1 ≠ TlvType.error := by
    intro i hi
    rcases List.mem_cons.mp hi with rfl | hi
    · exact ⟨fun hsep => absurd hsep (by decide), by decide⟩
    · rcases mem_intercalate hi with hsep | ⟨g, hg, hi⟩
      · rw [List.mem_singleton.mp hsep]
        exact ⟨fun _ => rfl, by decide⟩
      · exact ⟨fun hsep => absurd hsep (h g hg i hi).1, (h g hg i hi).2⟩
  have herror : (replyItems groups).find? (fun i => i.1 = TlvType.error) = none := by
    rw [List.find?_eq_none]
    intro i hi
    simpa using (hitems i hi).2
  rw [parseListReply, Tlv8Reader.parse_writeTlv fun i hi => (hitems i hi).1, mapErr_ok, ok_bind, herror]
  exact readEntries_state _

theorem types_groupItems (p : PairingInfo) :
    ∀ i ∈ groupItems p, i.1 ≠ separator ∧ i.1 ≠ TlvType.error := by
  have htypes : ([TlvType.identifier, TlvType.publicKey, permissions].all fun ty =>
      decide (ty ≠ separator ∧ ty ≠ TlvType.error)) = true := by decide
  intro i hi
  have hmem : i.1 ∈ (groupItems p).map (·.1) := List.mem_map_of_mem hi
  exact of_decide_eq_true (List.all_eq_true.mp htypes i.1 hmem)

theorem parseListReply_reply (pairings : List PairingInfo) :
    parseListReply (reply pairings) = .ok pairings := by
  have htypes : ∀ g ∈ pairings.map groupItems, ∀ i ∈ g, i.1 ≠ separator ∧ i.1 ≠ TlvType.error :=
    List.forall_mem_map.mpr fun p _ => types_groupItems p
  rw [reply, parseListReply_replyItems htypes]
  exact readEntries_intercalate pairings []

theorem parseListReply_overfilled (p q : PairingInfo) :
    parseListReply (writeTlv (replyItems [groupItems p ++ groupItems q])) = .ok [q] := by
  have htypes : ∀ g ∈ [groupItems p ++ groupItems q], ∀ i ∈ g,
      i.1 ≠ separator ∧ i.1 ≠ TlvType.error := by
    rw [List.forall_mem_singleton, List.forall_mem_append]
    exact ⟨types_groupItems p, types_groupItems q⟩
  rw [parseListReply_replyItems htypes, List.intercalate_singleton, readEntries, List.foldlM_append,
    foldlM_groupItems, ok_bind, foldlM_groupItems]
  rfl

/-! ## Where the entries come from -/

inductive Field where
  | id
  | ltpk
  | admin
  deriving DecidableEq

def Field.ty : Field → UInt8
  | .id => TlvType.identifier
  | .ltpk => TlvType.publicKey
  | .admin => permissions

structure Taken where
  entry : PairingInfo
  place : Field → Nat

structure Sources where
  id : Option (String × Nat)
  ltpk : Option (Arr 32 × Nat)
  admin : Option (Bool × Nat)

namespace Sources

def place (s : Sources) : Field → Option Nat
  | .id => s.id.map (·.2)
  | .ltpk => s.ltpk.map (·.2)
  | .admin => s.admin.map (·.2)

def gather (s : Sources) (i : Item × Nat) : Except PairingError Sources :=
  if i.1.1 = TlvType.identifier then do
    let id ← identifierOf i.1.2
    .ok { s with id := some (id, i.2) }
  else if i.1.1 = TlvType.publicKey then do
    let key ← publicKeyOf i.1.2
    .ok { s with ltpk := some (key, i.2) }
  else if i.1.1 = permissions then .ok { s with admin := some (isAdmin i.1.2, i.2) }
  else .ok s

def flush (s : Sources) : Except PairingError (List Taken) :=
  match s.id, s.ltpk, s.admin with
  | some (id, n), some (ltpk, m), some (admin, k) =>
    .ok [⟨⟨id, ltpk, admin⟩, fun | .id => n | .ltpk => m | .admin => k⟩]
  | none, none, none => .ok []
  | _, _, _ => .error (.malformed "incomplete pairing entry")

def start : Sources := ⟨none, none, none⟩

end Sources

def isSeparator (i : Item × Nat) : Bool := i.1.1 == separator

def taken (items : List Item) : Except PairingError (List Taken) :=
  Gather.run isSeparator Sources.gather Sources.flush Sources.start items.zipIdx

def erase (acc : List Taken × Sources) : Reading where
  out := acc.1.map Taken.entry
  id := acc.2.id.map (·.1)
  ltpk := acc.2.ltpk.map (·.1)
  admin := acc.2.admin.map (·.1)

theorem flushPairing_erase (acc : List Taken × Sources) : flushPairing (erase acc) =
    acc.2.flush.map fun ts => erase (acc.1 ++ ts, Sources.start) := by
  obtain ⟨out, _ | ⟨id, n⟩, _ | ⟨ltpk, m⟩, _ | ⟨admin, k⟩⟩ := acc <;>
    simp [flushPairing, erase, Sources.flush, Sources.start, Except.map]

theorem readItem_erase (acc : List Taken × Sources) (i : Item × Nat) : readItem (erase acc) i.1 =
    (Gather.step isSeparator Sources.gather Sources.flush Sources.start acc i).map erase := by
  obtain ⟨⟨ty, value⟩, n⟩ := i
  rw [readItem, Gather.step, isSeparator]
  by_cases hsep : ty = separator
  · rw [if_pos hsep, if_pos (beq_iff_eq.mpr hsep), flushPairing_erase]
    cases acc.2.flush <;> rfl
  · rw [if_neg hsep, if_neg (mt beq_iff_eq.mp hsep), Sources.gather]
    dsimp only
    split_ifs
    · cases identifierOf value <;> rfl
    · cases publicKeyOf value <;> rfl
    · rfl
    · rfl

theorem readEntries_eq (items : List Item) :
    readEntries items = (taken items).map (List.map Taken.entry) := by
  have hloop := foldlM_simulates readItem_erase items.zipIdx ([], Sources.start)
  rw [List.zipIdx_map_fst] at hloop
  have hstart : erase ([], Sources.start) = ⟨[], none, none, none⟩ := rfl
  rw [hstart] at hloop
  rw [readEntries, hloop, taken, Gather.run]
  cases items.zipIdx.foldlM (Gather.step isSeparator Sources.gather Sources.flush Sources.start)
      ([], Sources.start) with
  | error e => rfl
  | ok acc =>
    change (flushPairing (erase acc) >>= fun s => .ok s.out) = _
    rw [flushPairing_erase, ok_bind, Gather.finish]
    cases acc.2.flush <;> rfl

/-- The values of an entry are those of the items at its places. -/
def Taken.Reads (items : List Item) (t : Taken) : Prop :=
  items[t.place .id]? = some (TlvType.identifier, asBytes t.entry.id) ∧
    items[t.place .ltpk]? = some (TlvType.publicKey, t.entry.ltpk.val) ∧
      ∃ value, items[t.place .admin]? = some (permissions, value) ∧ t.entry.admin = isAdmin value

structure Sources.Backed (l : List (Item × Nat)) (s : Sources) : Prop where
  id : ∀ id n, s.id = some (id, n) → ((TlvType.identifier, asBytes id), n) ∈ l
  ltpk : ∀ key n, s.ltpk = some (key, n) → ((TlvType.publicKey, key.val), n) ∈ l
  admin : ∀ b n, s.admin = some (b, n) →
    ∃ value, ((permissions, value), n) ∈ l ∧ b = isAdmin value

def places (f : Field) (l : List (Item × Nat)) : List Nat :=
  (l.filter fun i => i.1.1 == f.ty).map (·.2)

theorem places_cons (f : Field) (i : Item × Nat) (l : List (Item × Nat)) :
    places f (i :: l) = if i.1.1 = f.ty then i.2 :: places f l else places f l := by
  rw [places, List.filter_cons]
  by_cases h : i.1.1 = f.ty
  · rw [if_pos h, if_pos (beq_iff_eq.mpr h)]
    rfl
  · rw [if_neg h, if_neg (mt beq_iff_eq.mp h)]
    rfl

section
variable {l g : List (Item × Nat)} {s s' : Sources} {i : Item × Nat} {ts : List Taken}

theorem Sources.Backed.gather (hs : s.Backed l) (hi : i ∈ l) (h : s.gather i = .ok s') :
    s'.Backed l := by
  obtain ⟨⟨ty, value⟩, n⟩ := i
  unfold Sources.gather at h
  dsimp only at h
  split_ifs at h with hid hkey hperm
  · obtain ⟨id, hvalue, hs'⟩ := bind_eq_ok.mp h
    obtain rfl := Except.ok.inj hs'
    refine ⟨fun id' n' heq => ?_, hs.ltpk, hs.admin⟩
    cases heq
    rw [identifierOf, okOr_eq_ok, fromUtf8_eq_some] at hvalue
    rwa [← hvalue, ← hid]
  · obtain ⟨key, hvalue, hs'⟩ := bind_eq_ok.mp h
    obtain rfl := Except.ok.inj hs'
    refine ⟨hs.id, fun key' n' heq => ?_, hs.admin⟩
    cases heq
    rw [publicKeyOf, okOr_eq_ok, tryIntoArr_eq_some] at hvalue
    rwa [← hvalue, ← hkey]
  · obtain rfl := Except.ok.inj h
    refine ⟨hs.id, hs.ltpk, fun b n' heq => ?_⟩
    cases heq
    exact ⟨value, hperm ▸ hi, rfl⟩
  · obtain rfl := Except.ok.inj h
    exact hs

theorem Sources.Backed.foldlM (hs : s.Backed l) (hg : ∀ i ∈ g, i ∈ l)
    (h : g.foldlM Sources.gather s = .ok s') : s'.Backed l := by
  induction g generalizing s with
  | nil =>
    obtain rfl := Except.ok.inj h
    exact hs
  | cons i g ih =>
    rw [List.foldlM_cons] at h
    obtain ⟨t, ht, hrest⟩ := bind_eq_ok.mp h
    exact ih (hs.gather (hg i List.mem_cons_self) ht)
      (fun j hj => hg j (List.mem_cons_of_mem _ hj)) hrest

theorem place_gather (h : s.gather i = .ok s') (f : Field) :
    s'.place f = if i.1.1 = f.ty then some i.2 else s.place f := by
  unfold Sources.gather at h
  split_ifs at h with hid hkey hperm
  · obtain ⟨id, -, hs'⟩ := bind_eq_ok.mp h
    obtain rfl := Except.ok.inj hs'
    rw [hid]
    cases f <;> rfl
  · obtain ⟨key, -, hs'⟩ := bind_eq_ok.mp h
    obtain rfl := Except.ok.inj hs'
    rw [hkey]
    cases f <;> rfl
  · obtain rfl := Except.ok.inj h
    rw [hperm]
    cases f <;> rfl
  · obtain rfl := Except.ok.inj h
    cases f
    · exact (if_neg hid).symm
    · exact (if_neg hkey).symm
    · exact (if_neg hperm).symm

theorem place_foldlM (h : g.foldlM Sources.gather s = .ok s') (f : Field) :
    s'.place f = (places f g).getLast?.or (s.place f) := by
  induction g generalizing s with
  | nil =>
    obtain rfl := Except.ok.inj h
    rfl
  | cons i g ih =>
    rw [List.foldlM_cons] at h
    obtain ⟨t, ht, hrest⟩ := bind_eq_ok.mp h
    rw [ih hrest, place_gather ht f, places_cons]
    by_cases hi : i.1.1 = f.ty
    · rw [if_pos hi, if_pos hi, List.getLast?_cons]
      cases (places f g).getLast? <;> rfl
    · rw [if_neg hi, if_neg hi]

theorem flush_cases (h : s.flush = .ok ts) :
    (ts = [] ∧ ∀ f, s.place f = none) ∨ ∃ t, ts = [t] ∧ ∀ f, s.place f = some (t.place f) := by
  obtain ⟨_ | ⟨id, n⟩, _ | ⟨ltpk, m⟩, _ | ⟨admin, k⟩⟩ := s
  case none.none.none => exact .inl ⟨(Except.ok.inj h).symm, fun f => by cases f <;> rfl⟩
  case some.some.some => exact .inr ⟨_, (Except.ok.inj h).symm, fun f => by cases f <;> rfl⟩
  all_goals cases h

theorem group_cases (h : Gather.group Sources.gather Sources.flush Sources.start g = .ok ts) :
    (ts = [] ∧ ∀ f, places f g = []) ∨
      ∃ t, ts = [t] ∧ ∀ f, (places f g).getLast? = some (t.place f) := by
  obtain ⟨s, hs, hflush⟩ := bind_eq_ok.mp h
  have hplace : ∀ f, s.place f = (places f g).getLast? := by
    intro f
    rw [place_foldlM hs f]
    cases (places f g).getLast? <;> cases f <;> rfl
  simpa only [hplace, List.getLast?_eq_none_iff] using flush_cases hflush

theorem group_reads {items : List Item} (hg : ∀ i ∈ g, i ∈ items.zipIdx)
    (h : Gather.group Sources.gather Sources.flush Sources.start g = .ok ts) :
    ∀ t ∈ ts, t.Reads items := by
  obtain ⟨s, hs, hflush⟩ := bind_eq_ok.mp h
  have hstart : Sources.start.Backed items.zipIdx := by
    constructor <;> intro _ _ heq <;> cases heq
  obtain ⟨hid, hltpk, hadmin⟩ := hstart.foldlM hg hs
  intro t ht
  obtain ⟨_ | ⟨id, n⟩, _ | ⟨ltpk, m⟩, _ | ⟨admin, k⟩⟩ := s
  case none.none.none =>
    rw [← Except.ok.inj hflush] at ht
    cases ht
  case some.some.some =>
    obtain ⟨value, hvalue, heq⟩ := hadmin admin k rfl
    rw [← Except.ok.inj hflush, List.mem_singleton] at ht
    subst ht
    exact ⟨List.mem_zipIdx_iff_getElem?.mp (hid id n rfl),
      List.mem_zipIdx_iff_getElem?.mp (hltpk ltpk m rfl),
      value, List.mem_zipIdx_iff_getElem?.mp hvalue, heq⟩
  all_goals cases hflush

end

/-! ## What the separators are needed for -/

def afterIdentifier (group : List Item) : List Item :=
  (group.dropWhile fun i => i.1 ≠ TlvType.identifier).tail

def Ordered (group : List Item) : Prop :=
  (∃ i ∈ group, i.1 = TlvType.identifier) →
    (∀ i ∈ afterIdentifier group, i.1 ≠ TlvType.identifier) ∧
      ∀ f ∈ [Field.ltpk, Field.admin], ∃ i ∈ afterIdentifier group, i.1 = f.ty

def InOrder (items : List Item) : Prop :=
  ∀ group ∈ items.splitOnP fun i => i.1 == separator, Ordered group

/-- Every identifier has its entry, and the entry's key and permissions stand between this
identifier and the next. -/
def Listed (items : List Item) (ts : List Taken) : Prop :=
  ts.map (·.place .id) = places .id items.zipIdx ∧
    ∀ t ∈ ts, ∀ f ∈ [Field.ltpk, Field.admin], t.place .id < t.place f ∧
      ∀ next ∈ places .id items.zipIdx, t.place .id < next → t.place f < next

section
variable {l l' g : List (Item × Nat)} {f : Field} {n : Nat} {i : Item × Nat}

theorem mem_places : n ∈ places f l ↔ ∃ i ∈ l, i.1.1 = f.ty ∧ i.2 = n := by
  simp only [places, List.mem_map, List.mem_filter, beq_iff_eq, and_assoc]

theorem places_append : places f (l ++ l') = places f l ++ places f l' := by
  rw [places, List.filter_append, List.map_append]
  rfl

theorem places_eq_nil : places f l = [] ↔ ∀ i ∈ l, i.1.1 ≠ f.ty := by
  rw [List.eq_nil_iff_forall_not_mem]
  constructor
  · intro h i hi hty
    exact h i.2 (mem_places.mpr ⟨i, hi, hty, rfl⟩)
  · intro h n hn
    obtain ⟨i, hi, hty, -⟩ := mem_places.mp hn
    exact h i hi hty

theorem places_flatten (gs : List (List (Item × Nat))) :
    places f gs.flatten = gs.flatMap (places f) := by
  induction gs with
  | nil => rfl
  | cons g gs ih => rw [List.flatten_cons, places_append, ih, List.flatMap_cons]

theorem places_split : (l.splitOnP isSeparator).flatMap (places f) = places f l := by
  rw [← places_flatten, flatten_splitOnP, places, places, List.filter_filter]
  congr 2
  funext i
  cases hty : i.1.1 == f.ty with
  | false => rfl
  | true =>
    have hne : isSeparator i = false := by
      rw [isSeparator, beq_iff_eq.mp hty]
      cases f <;> rfl
    rw [hne]
    rfl

theorem afterIdentifier_append {before after : List Item} {x : Item}
    (hbefore : ∀ i ∈ before, i.1 ≠ TlvType.identifier) (hx : x.1 = TlvType.identifier) :
    afterIdentifier (before ++ x :: after) = after := by
  rw [afterIdentifier, List.dropWhile_append_of_pos (by simpa using hbefore),
    List.dropWhile_cons_of_neg (by simpa using hx)]
  rfl

theorem exists_cut (h : places .id g ≠ []) : ∃ before x after, g = before ++ x :: after ∧
    x.1.1 = TlvType.identifier ∧ ∀ i ∈ before, i.1.1 ≠ TlvType.identifier := by
  obtain ⟨n, hn⟩ := List.exists_mem_of_ne_nil _ h
  obtain ⟨i, hi, hty, -⟩ := mem_places.mp hn
  have hfound : (g.find? fun i => i.1.1 == TlvType.identifier).isSome = true :=
    List.find?_isSome.mpr ⟨i, hi, beq_iff_eq.mpr hty⟩
  obtain ⟨x, hx⟩ := Option.isSome_iff_exists.mp hfound
  obtain ⟨hid, before, after, hg, hbefore⟩ := List.find?_eq_some_iff_append.mp hx
  exact ⟨before, x, after, hg, beq_iff_eq.mp hid, fun i hi => by simpa using hbefore i hi⟩

section
variable {before after : List (Item × Nat)} {x : Item × Nat}
  (hx : x.1.1 = TlvType.identifier) (hbefore : ∀ i ∈ before, i.1.1 ≠ TlvType.identifier)

include hx hbefore

theorem places_id_cut : places .id (before ++ x :: after) = x.2 :: places .id after := by
  have hnone : places .id before = [] := places_eq_nil.mpr hbefore
  rw [places_append, hnone, places_cons]
  exact if_pos hx

theorem ordered_cut : Ordered ((before ++ x :: after).map (·.1)) ↔
    places .id after = [] ∧ ∀ f ∈ [Field.ltpk, Field.admin], places f after ≠ [] := by
  have hafter : afterIdentifier ((before ++ x :: after).map (·.1)) = after.map (·.1) := by
    rw [List.map_append, List.map_cons]
    exact afterIdentifier_append (List.forall_mem_map.mpr hbefore) hx
  have hid : ∃ i ∈ (before ++ x :: after).map (·.1), i.1 = TlvType.identifier :=
    ⟨x.1, List.mem_map_of_mem (List.mem_append_right _ List.mem_cons_self), hx⟩
  rw [Ordered, hafter, forall_prop_of_true hid, places_eq_nil, List.forall_mem_map]
  refine and_congr_right fun _ => forall₂_congr fun f _ => ?_
  rw [Ne, places_eq_nil]
  simp

end

theorem place_cut {before after : List (Item × Nat)} {x : Item × Nat}
    (hg : (before ++ x :: after).Pairwise fun i j => i.2 < j.2) (hx : x.1.1 ≠ f.ty)
    (hlast : (places f (before ++ x :: after)).getLast? = some n) :
    x.2 < n ↔ places f after ≠ [] := by
  rw [places_append, places_cons, if_neg hx] at hlast
  obtain ⟨-, hrest, hlt⟩ := List.pairwise_append.mp hg
  obtain ⟨hafter, -⟩ := List.pairwise_cons.mp hrest
  constructor
  · intro hn hnil
    rw [hnil, List.append_nil] at hlast
    obtain ⟨i, hi, -, rfl⟩ := mem_places.mp (List.mem_of_getLast? hlast)
    exact absurd hn (Nat.not_lt.mpr (hlt i hi x List.mem_cons_self).le)
  · intro hne
    rw [List.getLast?_append_of_ne_nil _ hne] at hlast
    obtain ⟨i, hi, -, rfl⟩ := mem_places.mp (List.mem_of_getLast? hlast)
    exact hafter i hi

theorem ordered_iff {t : Taken} (hg : g.Pairwise fun i j => i.2 < j.2)
    (ht : ∀ f, (places f g).getLast? = some (t.place f)) :
    Ordered (g.map (·.1)) ↔ places .id g = [t.place .id] ∧
      ∀ f ∈ [Field.ltpk, Field.admin], t.place .id < t.place f := by
  have hne : places .id g ≠ [] := by
    intro hnil
    have hlast := ht .id
    rw [hnil] at hlast
    cases hlast
  obtain ⟨before, x, after, rfl, hx, hbefore⟩ := exists_cut hne
  have hids : places .id (before ++ x :: after) = x.2 :: places .id after := places_id_cut hx hbefore
  have hother : ∀ f ∈ [Field.ltpk, Field.admin], (x.2 < t.place f ↔ places f after ≠ []) := by
    intro f hf
    refine place_cut hg ?_ (ht f)
    rw [hx]
    rcases List.mem_pair.mp hf with rfl | rfl <;> decide
  have hlast := ht .id
  rw [ordered_cut hx hbefore, hids]
  rw [hids] at hlast
  constructor
  · rintro ⟨hnil, hall⟩
    rw [hnil] at hlast
    have hplace : x.2 = t.place .id := Option.some.inj hlast
    refine ⟨by rw [hnil, hplace], fun f hf => ?_⟩
    rw [← hplace]
    exact (hother f hf).mpr (hall f hf)
  · rintro ⟨hone, hall⟩
    obtain ⟨hplace, hnil⟩ := List.cons_eq_cons.mp hone
    refine ⟨hnil, fun f hf => (hother f hf).mp ?_⟩
    rw [hplace]
    exact hall f hf

end

def groupsOf (items : List Item) : List (List (Item × Nat)) := items.zipIdx.splitOnP isSeparator

section
variable {items : List Item} {ts : List Taken}

theorem inOrder_iff : InOrder items ↔ ∀ g ∈ groupsOf items, Ordered (g.map (·.1)) := by
  have hsplit : items.splitOnP (fun i => i.1 == separator) =
      (groupsOf items).map (List.map (·.1)) := by
    have hmap := splitOnP_map (p := fun i : Item => i.1 == separator) (q := isSeparator)
      (f := Prod.fst) (fun _ => rfl) items.zipIdx
    rwa [List.zipIdx_map_fst] at hmap
  rw [InOrder, hsplit, List.forall_mem_map]

theorem pairwise_groupsOf (items : List Item) :
    (groupsOf items).flatten.Pairwise fun i j => i.2 < j.2 := by
  have hall : items.zipIdx.Pairwise fun i j => i.2 < j.2 := by
    rw [← List.pairwise_map, List.zipIdx_map_snd]
    exact List.pairwise_lt_range'
  rw [groupsOf, flatten_splitOnP]
  exact hall.filter _

def Apart (g g' : List (Item × Nat)) : Prop :=
  (∀ i ∈ g, ∀ j ∈ g', i.2 < j.2) ∨ ∀ j ∈ g', ∀ i ∈ g, j.2 < i.2

instance : Std.Symm Apart := ⟨fun _ _ h => h.symm⟩

theorem groupsOf_apart {g g' : List (Item × Nat)} (hg : g ∈ groupsOf items)
    (hg' : g' ∈ groupsOf items) (hne : g ≠ g') : Apart g g' := by
  have hpairwise := (List.pairwise_flatten.mp (pairwise_groupsOf items)).2
  have hapart : (groupsOf items).Pairwise Apart := hpairwise.imp fun h => .inl h
  exact hapart.forall hg hg' hne

abbrev givenBy : List (Item × Nat) → List Taken :=
  Gather.given Sources.gather Sources.flush Sources.start

theorem taken_groups (h : taken items = .ok ts) :
    ts = (groupsOf items).flatMap givenBy ∧ (∀ t ∈ ts, t.Reads items) ∧
      ∀ g ∈ groupsOf items, (givenBy g = [] ∧ ∀ f, places f g = []) ∨
        ∃ t, givenBy g = [t] ∧ ∀ f, (places f g).getLast? = some (t.place f) := by
  obtain ⟨hgroup, hts⟩ := Gather.groups_of_run h
  refine ⟨hts, fun t ht => ?_, fun g hg => group_cases (hgroup g hg)⟩
  rw [hts] at ht
  obtain ⟨g, hg, ht⟩ := List.mem_flatMap.mp ht
  refine group_reads (fun i hi => ?_) (hgroup g hg) t ht
  have hmem : i ∈ (groupsOf items).flatten := List.mem_flatten.mpr ⟨g, hg, hi⟩
  rw [groupsOf, flatten_splitOnP] at hmem
  exact List.mem_of_mem_filter hmem

theorem sublist_givenBy (h : taken items = .ok ts) :
    ∀ g ∈ groupsOf items, ((givenBy g).map (·.place .id)).Sublist (places .id g) := by
  intro g hg
  rcases (taken_groups h).2.2 g hg with ⟨hnil, -⟩ | ⟨t, ht, hlast⟩
  · rw [hnil]
    exact List.nil_sublist _
  · rw [ht]
    exact List.singleton_sublist.mpr (List.mem_of_getLast? (hlast .id))

theorem ids_taken (h : taken items = .ok ts) : ts.map (·.place .id) =
    (groupsOf items).flatMap fun g => (givenBy g).map (·.place .id) := by
  rw [(taken_groups h).1, List.map_flatMap]

theorem ids_items (items : List Item) :
    places .id items.zipIdx = (groupsOf items).flatMap (places .id) := places_split.symm

theorem pairwise_group {g : List (Item × Nat)} (hg : g ∈ groupsOf items) :
    g.Pairwise fun i j => i.2 < j.2 :=
  (List.pairwise_flatten.mp (pairwise_groupsOf items)).1 g hg

theorem inOrder_of_listed (h : taken items = .ok ts) (hlisted : Listed items ts) :
    InOrder items := by
  obtain ⟨heq, hbetween⟩ := hlisted
  rw [ids_taken h, ids_items] at heq
  rw [inOrder_iff]
  intro g hg
  have hone := eq_of_flatMap_eq (sublist_givenBy h) heq g hg
  obtain ⟨hts, -, hcases⟩ := taken_groups h
  rcases hcases g hg with ⟨-, hnil⟩ | ⟨t, ht, hlast⟩
  · rintro ⟨i, hi, hty⟩
    obtain ⟨j, hj, rfl⟩ := List.mem_map.mp hi
    exact absurd hty (places_eq_nil.mp (hnil .id) j hj)
  · rw [ht] at hone
    have hmem : t ∈ ts := by
      rw [hts]
      exact List.mem_flatMap.mpr ⟨g, hg, by rw [ht]; exact List.mem_cons_self⟩
    exact (ordered_iff (pairwise_group hg) hlast).mpr
      ⟨hone.symm, fun f hf => (hbetween t hmem f hf).1⟩

theorem lt_next {g : List (Item × Nat)} {t : Taken} {next : Nat} (hg : g ∈ groupsOf items)
    (hlast : ∀ f, (places f g).getLast? = some (t.place f)) (hone : places .id g = [t.place .id])
    (hnext : next ∈ places .id items.zipIdx) (hafter : t.place .id < next) (f : Field) :
    t.place f < next := by
  rw [ids_items] at hnext
  obtain ⟨g', hg', hnext⟩ := List.mem_flatMap.mp hnext
  by_cases hsame : g = g'
  · rw [← hsame, hone, List.mem_singleton] at hnext
    rw [hnext] at hafter
    exact absurd hafter (lt_irrefl _)
  · obtain ⟨j, hj, -, rfl⟩ := mem_places.mp hnext
    obtain ⟨i, hi, -, hplace⟩ := mem_places.mp (List.mem_of_getLast? (hlast f))
    obtain ⟨x, hx, -, hid⟩ := mem_places.mp (List.mem_of_getLast? (hlast .id))
    rw [← hid] at hafter
    rw [← hplace]
    rcases groupsOf_apart hg hg' hsame with hbefore | hbehind
    · exact hbefore i hi j hj
    · exact absurd hafter (Nat.not_lt.mpr (hbehind j hj x hx).le)

theorem listed_of_inOrder (h : taken items = .ok ts) (horder : InOrder items) :
    Listed items ts := by
  rw [inOrder_iff] at horder
  obtain ⟨hts, -, hcases⟩ := taken_groups h
  have hone : ∀ g ∈ groupsOf items, (givenBy g).map (·.place .id) = places .id g := by
    intro g hg
    rcases hcases g hg with ⟨hnil, hnone⟩ | ⟨t, ht, hlast⟩
    · rw [hnil, hnone .id]
      rfl
    · rw [ht, ((ordered_iff (pairwise_group hg) hlast).mp (horder g hg)).1]
      rfl
  refine ⟨?_, fun t ht f hf => ?_⟩
  · rw [ids_taken h, ids_items]
    exact List.flatMap_congr hone
  · rw [hts] at ht
    obtain ⟨g, hg, ht⟩ := List.mem_flatMap.mp ht
    rcases hcases g hg with ⟨hnil, -⟩ | ⟨t', ht', hlast⟩
    · rw [hnil] at ht
      cases ht
    · rw [ht', List.mem_singleton] at ht
      subst ht
      obtain ⟨hsingle, hlt⟩ := (ordered_iff (pairwise_group hg) hlast).mp (horder g hg)
      exact ⟨hlt f hf, fun next hnext hafter => lt_next hg hlast hsingle hnext hafter f⟩

end

theorem readEntries_of_parseListReply {body : Bytes} {items : List Item} {out : List PairingInfo}
    (hitems : Tlv8Reader.parse body = .ok items) (h : parseListReply body = .ok out) :
    readEntries items = .ok out := by
  rw [parseListReply, hitems, mapErr_ok, ok_bind] at h
  cases herror : items.find? fun i => i.1 = TlvType.error with
  | some err =>
    rw [herror] at h
    obtain ⟨code, -, hcode⟩ := bind_eq_ok.mp h
    cases hcode
  | none =>
    rw [herror] at h
    obtain ⟨-, -, hread⟩ := bind_eq_ok.mp h
    exact hread

/-- What an accessory builds is read back. Of any reply that is accepted, the entries are those
of its identifiers, each with a key and permissions that stand between it and the next, exactly
when no group has two identifiers or one without a key and permissions behind it. -/
theorem parseListReply_listed_iff (pairings : List PairingInfo) (body : Bytes) :
    parseListReply (reply pairings) = .ok pairings ∧
      ∀ items out, Tlv8Reader.parse body = .ok items → parseListReply body = .ok out →
        ∃ ts, taken items = .ok ts ∧ ts.map Taken.entry = out ∧ (∀ t ∈ ts, t.Reads items) ∧
          (Listed items ts ↔ InOrder items) := by
  refine ⟨parseListReply_reply pairings, fun items out hitems hout => ?_⟩
  have hread := readEntries_of_parseListReply hitems hout
  rw [readEntries_eq] at hread
  cases htaken : taken items with
  | error e =>
    rw [htaken] at hread
    cases hread
  | ok ts =>
    rw [htaken] at hread
    obtain ⟨-, hreads, -⟩ := taken_groups htaken
    exact ⟨ts, rfl, Except.ok.inj hread, hreads, inOrder_of_listed htaken, listed_of_inOrder htaken⟩

/-- Two pairings without a separator: two identifiers, and one entry. -/
theorem parseListReply_drops :
    parseListReply (writeTlv (replyItems
        [groupItems ⟨"A", constArr 32 0x11, true⟩ ++ groupItems ⟨"B", constArr 32 0x22, false⟩])) =
      .ok [⟨"B", constArr 32 0x22, false⟩] ∧
    places .id (replyItems
        [groupItems ⟨"A", constArr 32 0x11, true⟩ ++ groupItems ⟨"B", constArr 32 0x22, false⟩]).zipIdx =
      [1, 4] :=
  ⟨parseListReply_overfilled _ _, rfl⟩

end ListReply
end HapRust.Pairing
