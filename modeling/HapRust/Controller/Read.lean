import HapRust.Controller.EventPump
import HapRust.Model.Characteristics

/-! Reading characteristics over IP. Responses carry no formats: a value is
inferred from its JSON and then coerced to the format that the accessory database
declares. The entries of a response are taken as they come. -/

namespace HapRust.Controller
open Lib Transport Model
open Ble (CharFormat CharValue)

def coerceToFormat : CharValue → CharFormat → CharValue
  | .uint n, .bool => .bool (n != 0)
  | .int n, .bool => .bool (n != 0)
  | .uint n, .int => ((i64TryFrom n).map CharValue.int).getD (.uint n)
  | .uint n, .float => .float n.toFloat
  | .int n, .float => .float n.toFloat
  | other, _ => other

section
variable (J : JsonCodec)

def inferTyped (v : Json) (f : CharFormat) : Except ModelError CharValue := do
  let value ← inferValue J v
  return coerceToFormat value f

variable {J}

theorem inferTyped_of {v : Json} {f : CharFormat} {x : CharValue} (h : inferValue J v = .ok x) :
    inferTyped J v f = .ok (coerceToFormat x f) := by
  rw [inferTyped, h, ok_bind, pure_eq_ok]

theorem asNumber_bind_eq_some {α : Type} {v : Json} {g : JsonNumber → Option α} {a : α}
    (h : v.asNumber.bind g = some a) : ∃ n, v = .number n ∧ g n = some a := by
  cases v with
  | number n => exact ⟨n, rfl, h⟩
  | null | bool | string | array | object => cases h

theorem inferValue_of_asU64 {n : JsonNumber} {u : UInt64} (h : n.asU64 = some u) :
    inferValue J (.number n) = .ok (.uint u) := by
  rw [inferValue, h]

theorem inferTyped_bool {v : Json} {x : CharValue} (h : valueFromJson J .bool v = .ok x) :
    inferTyped J v .bool = .ok x := by
  cases v with
  | bool b =>
    obtain rfl := Except.ok.inj h
    rfl
  | number n =>
    simp only [valueFromJson] at h
    split_ifs at h with hzero hone
    · obtain rfl := Except.ok.inj h
      exact inferTyped_of (inferValue_of_asU64 hzero)
    · obtain rfl := Except.ok.inj h
      exact inferTyped_of (inferValue_of_asU64 hone)
  | null | string | array | object => cases h

theorem inferTyped_uint {v : Json} {f : CharFormat} {x : CharValue}
    (hf : ∀ n, coerceToFormat (.uint n) f = .uint n) (h : uintFromJson J f v = .ok x) :
    inferTyped J v f = .ok x := by
  obtain ⟨u, hu, h⟩ := bind_eq_ok.mp h
  obtain ⟨-, -, h⟩ := bind_eq_ok.mp h
  obtain rfl := Except.ok.inj h
  obtain ⟨n, rfl, hn⟩ := asNumber_bind_eq_some (okOr_eq_ok.mp hu)
  rw [inferTyped_of (inferValue_of_asU64 hn), hf]

theorem inferTyped_int {v : Json} {x : CharValue} (h : valueFromJson J .int v = .ok x) :
    inferTyped J v .int = .ok x := by
  obtain ⟨i, hi, h⟩ := bind_eq_ok.mp h
  obtain rfl := Except.ok.inj h
  obtain ⟨n, rfl, hn⟩ := asNumber_bind_eq_some (okOr_eq_ok.mp hi)
  cases n with
  | posInt u =>
    have hcoerce : coerceToFormat (.uint u) .int = .int i := by
      change ((i64TryFrom u).map CharValue.int).getD (.uint u) = .int i
      rw [show i64TryFrom u = some i from hn, Option.map_some, Option.getD_some]
    rw [inferTyped_of (inferValue_of_asU64 rfl), hcoerce]
  | negInt m neg =>
    obtain rfl := Option.some.inj hn
    rfl
  | float f => cases hn

theorem inferTyped_float {v : Json} {x : CharValue} (h : valueFromJson J .float v = .ok x) :
    inferTyped J v .float = .ok x := by
  obtain ⟨f, hf, h⟩ := bind_eq_ok.mp h
  obtain rfl := Except.ok.inj h
  obtain ⟨n, rfl, hn⟩ := asNumber_bind_eq_some (okOr_eq_ok.mp hf)
  cases n <;>
    · obtain rfl := Option.some.inj hn
      rfl

theorem inferTyped_string {v : Json} {x : CharValue} (h : valueFromJson J .string v = .ok x) :
    inferTyped J v .string = .ok x := by
  cases v with
  | string s =>
    obtain rfl := Except.ok.inj h
    rfl
  | null | bool | number | array | object => cases h

theorem inferTyped_ne_bytes {v : Json} {f : CharFormat} {x : CharValue}
    (hf : ∀ s, coerceToFormat (.str s) f = .str s) (h : bytesFromJson J f v = .ok x) :
    inferTyped J v f ≠ .ok x := by
  cases v with
  | string s =>
    obtain ⟨b, -, h⟩ := bind_eq_ok.mp h
    obtain rfl := Except.ok.inj h
    have htyped : inferTyped J (.string s) f = .ok (.str s) := by
      change Except.ok (coerceToFormat (.str s) f) = _
      rw [hf]
    rw [htyped]
    intro heq
    cases heq
  | null | bool | number | array | object => cases h

/-- A value that can be read under a format is inferred and coerced to the same value, unless
the format is one of those that are base64 on the wire. -/
theorem inferTyped_eq_iff {f : CharFormat} {v : Json} {x : CharValue}
    (h : valueFromJson J f v = .ok x) :
    inferTyped J v f = .ok x ↔ f ≠ .tlv8 ∧ f ≠ .data := by
  cases f with
  | bool => exact iff_of_true (inferTyped_bool h) ⟨by decide, by decide⟩
  | uint8 | uint16 | uint32 | uint64 =>
    exact iff_of_true (inferTyped_uint (fun _ => rfl) h) ⟨by decide, by decide⟩
  | int => exact iff_of_true (inferTyped_int h) ⟨by decide, by decide⟩
  | float => exact iff_of_true (inferTyped_float h) ⟨by decide, by decide⟩
  | string => exact iff_of_true (inferTyped_string h) ⟨by decide, by decide⟩
  | tlv8 => exact iff_of_false (inferTyped_ne_bytes (fun _ => rfl) h) fun hne => hne.1 rfl
  | data => exact iff_of_false (inferTyped_ne_bytes (fun _ => rfl) h) fun hne => hne.2 rfl

end

def strayEntry : WireReadEntry := ⟨1, 10, some (.bool true), none, none⟩

def strayBody : Bytes :=
  asBytes "\x7b\"characteristics\":[\x7b\"aid\":1,\"iid\":10,\"value\":true\x7d]\x7d"

def sampleCodec : JsonCodec where
  fromSlice b :=
    if b = strayBody then .ok [strayEntry] else .error "expected value at line 1 column 1"
  toVec _ := asBytes
    "\x7b\"characteristics\":[\x7b\"aid\":1,\"iid\":9,\"r\":true,\"value\":true\x7d]\x7d"
  display _ := "true"
  fromF64 f := some (.float f)
  decodeBase64 b :=
    if b = asBytes "AQID" then .ok [1, 2, 3] else .error "Invalid symbol 33, offset 0."
  encodeBase64 _ := "AQID"

theorem inferTyped_eq_iff_one :
    valueFromJson sampleCodec .bool (.number (.posInt 1)) = .ok (.bool true) ∧
      (inferTyped sampleCodec (.number (.posInt 1)) .bool = .ok (.bool true) ↔
        CharFormat.bool ≠ .tlv8 ∧ CharFormat.bool ≠ .data) :=
  ⟨rfl, inferTyped_eq_iff rfl⟩

/-- A `tlv8` value is read as its bytes under its format, and as its base64 text otherwise. -/
theorem base64_stays_text :
    valueFromJson sampleCodec .tlv8 (.string "AQID") = .ok (.bytes [1, 2, 3]) ∧
      inferTyped sampleCodec (.string "AQID") .tlv8 = .ok (.str "AQID") ∧
      inferTyped sampleCodec (.string "AQID") .tlv8 ≠ .ok (.bytes [1, 2, 3]) := by
  refine ⟨?_, rfl, ?_⟩
  · change (mapErr ModelError.base64 (if asBytes "AQID" = asBytes "AQID" then .ok [1, 2, 3]
      else .error "Invalid symbol 33, offset 0.") >>= fun b => pure (CharValue.bytes b)) = _
    rw [if_pos rfl, mapErr_ok, ok_bind, pure_eq_ok]
  · intro heq
    cases heq

/-! ## Operations of a handle -/

structure SessionRequest where
  method : String
  path : String
  contentType : String
  body : Bytes

structure SessionResponse where
  status : UInt16
  body : Bytes

inductive IpError where
  | transport (e : TransportError)
  | connectionLost
  | http (status : UInt16)
  | model (e : ModelError)
  | characteristicNotFound (aid iid : UInt64)

abbrev IpM (α : Type) : Type := Asking SessionRequest (Except IpError SessionResponse) IpError α

namespace IpHandle

def isSuccess (status : UInt16) : Bool := 200 ≤ status && status < 300

section
variable (J : JsonCodec) (formats : CharId → Option CharFormat)

def request (q : SessionRequest) : IpM SessionResponse := do
  let answer ← Asking.ask q
  Asking.lift answer

def characteristics (q : SessionRequest) : IpM (List (CharId × CharValue)) := do
  let resp ← request q
  Asking.lift do
    ensure (isSuccess resp.status) (.http resp.status)
    mapErr .model (parseReadResponse J resp.body)

def retype (id : CharId) (value : CharValue) : CharValue :=
  match formats id with
  | some f => coerceToFormat value f
  | none => value

def readMany (ids : List CharId) : IpM (List (CharId × CharValue)) := do
  let parsed ← characteristics J ⟨"GET", buildReadRequest ids, "application/hap+json", []⟩
  return parsed.map fun r => (r.1, retype formats r.1 r.2)

def first (id : CharId) (values : List (CharId × CharValue)) : Except IpError CharValue := do
  let r ← okOr values.head? (.characteristicNotFound id.1 id.2)
  return r.2

def read (id : CharId) : IpM CharValue := do
  let values ← readMany J formats [id]
  Asking.lift (first id values)

def writeWithResponse (id : CharId) (value : CharValue) : IpM CharValue := do
  let v ← characteristics J ⟨"PUT", "/characteristics", "application/hap+json",
    buildWriteRequestWithResponse J [(id, value)]⟩
  Asking.lift do
    let value ← first id v
    return retype formats id value

end

section
variable {J : JsonCodec} {formats : CharId → Option CharFormat} {resp : SessionResponse}
  {entries : List WireReadEntry}

theorem characteristics_ok {q : SessionRequest} {rs : List (CharId × CharValue)} :
    (characteristics J q).outcome [.ok resp] = some (.ok rs) ↔
      isSuccess resp.status ∧ parseReadResponse J resp.body = .ok rs := by
  have hrequest : (request q).outcome [.ok resp] = some (.ok resp) := rfl
  refine Asking.outcome_bind_lift.trans ?_
  simp only [hrequest, Option.some.injEq, Except.ok.injEq, exists_eq_left', bind_eq_ok,
    ensure_eq_ok, mapErr_eq_ok, exists_const]

theorem read_eq_ok {e : WireReadEntry} {r : Option (CharId × CharValue)}
    (h : e.read J = .ok r) :
    (e.value.isSome = false ∧ r = none) ∨
      ∃ x, e.value.isSome = true ∧ e.decode J = some (.ok x) ∧ r = some (e.id, x) := by
  obtain ⟨-, -, h⟩ := bind_eq_ok.mp h
  cases hvalue : e.value with
  | none =>
    have hdecode : e.decode J = none := by rw [WireReadEntry.decode, hvalue, Option.map_none]
    rw [hdecode] at h
    exact .inl ⟨rfl, (Except.ok.inj h).symm⟩
  | some raw =>
    obtain ⟨decoded, hdecode⟩ : ∃ decoded, e.decode J = some decoded :=
      ⟨_, by rw [WireReadEntry.decode, hvalue, Option.map_some]⟩
    rw [hdecode] at h
    obtain ⟨x, hx, h⟩ := bind_eq_ok.mp h
    exact .inr ⟨x, rfl, hdecode.trans (congrArg some hx), (Except.ok.inj h).symm⟩

def ReadAs (J : JsonCodec) (e : WireReadEntry) (r : CharId × CharValue) : Prop :=
  r.1 = e.id ∧ e.decode J = some (.ok r.2)

theorem readAs_of_read {out : List (Option (CharId × CharValue))}
    (h : List.Forall₂ (fun (e : WireReadEntry) r => e.read J = .ok r) entries out) :
    List.Forall₂ (ReadAs J) (entries.filter (·.value.isSome)) out.reduceOption := by
  induction h with
  | nil => exact .nil
  | cons hread _ ih =>
    rcases read_eq_ok hread with ⟨hnone, rfl⟩ | ⟨x, hsome, hdecode, rfl⟩
    · rw [List.filter_cons_of_neg (by simp [hnone]), List.reduceOption_cons_of_none]
      exact ih
    · rw [List.filter_cons_of_pos (by simpa using hsome), List.reduceOption_cons_of_some]
      exact .cons ⟨rfl, hdecode⟩ ih

theorem ids_of_readAs {rs : List (CharId × CharValue)} (h : List.Forall₂ (ReadAs J) entries rs) :
    rs.map Prod.fst = entries.map WireReadEntry.id := by
  induction h with
  | nil => rfl
  | cons hread _ ih => rw [List.map_cons, List.map_cons, hread.1, ih]

theorem parseReadResponse_ok {body : Bytes} {rs : List (CharId × CharValue)}
    (hbody : J.fromSlice body = .ok entries) (h : parseReadResponse J body = .ok rs) :
    List.Forall₂ (ReadAs J) (entries.filter (·.value.isSome)) rs := by
  rw [parseReadResponse, hbody, mapErr_ok, ok_bind] at h
  obtain ⟨out, hout, h⟩ := bind_eq_ok.mp h
  obtain rfl := Except.ok.inj h
  exact readAs_of_read (mapM_eq_ok.mp hout)

def firstValue (entries : List WireReadEntry) : Option WireReadEntry :=
  entries.find? (·.value.isSome)

theorem first_ok {id : CharId} {body : Bytes} {rs : List (CharId × CharValue)} {x : CharValue}
    (hbody : J.fromSlice body = .ok entries) (h : parseReadResponse J body = .ok rs)
    (hfirst : first id rs = .ok x) :
    ∃ e, firstValue entries = some e ∧ e.decode J = some (.ok x) ∧ rs.head? = some (e.id, x) := by
  obtain ⟨r, hr, hx⟩ := bind_eq_ok.mp hfirst
  obtain rfl := Except.ok.inj hx
  obtain ⟨rest, rfl⟩ := List.head?_eq_some_iff.mp (okOr_eq_ok.mp hr)
  obtain ⟨e, entries', ⟨hid, hdecode⟩, -, hfilter⟩ :=
    List.forall₂_cons_right_iff.mp (parseReadResponse_ok hbody h)
  refine ⟨e, ?_, hdecode, ?_⟩
  · rw [firstValue, ← List.head?_filter, hfilter, List.head?_cons]
  · rw [List.head?_cons, ← hid]

variable (J formats entries)

/-- An entry for the characteristic carries the value, as it is under the declared format. -/
def Carries (id : CharId) (v : CharValue) : Prop :=
  ∃ e ∈ entries, e.id = id ∧ ∃ x, e.decode J = some (.ok x) ∧ retype formats id x = v

/-- The first value is for the characteristic. -/
def FirstFor (id : CharId) : Prop := ∃ e, firstValue entries = some e ∧ e.id = id

/-- The first value is for another characteristic, and by coincidence an entry for this one is
decoded to the same. The first value is given the format of `typedAs`. -/
def Coincides (typedAs : CharId → CharId) (id : CharId) : Prop :=
  ∃ e, firstValue entries = some e ∧ e.id ≠ id ∧ ∃ e' ∈ entries, e'.id = id ∧
    ∃ x x', e.decode J = some (.ok x) ∧ e'.decode J = some (.ok x') ∧
      retype formats id x' = retype formats (typedAs e.id) x

/-- One of each of the ids, and no other. -/
def OneEach (ids found : List CharId) : Prop :=
  ∀ id, found.count id = if id ∈ ids then 1 else 0

variable {J formats entries}

theorem carries_iff (typedAs : CharId → CharId) {id : CharId} {e : WireReadEntry}
    {x : CharValue} (hself : typedAs id = id) (hfirst : firstValue entries = some e)
    (hdecode : e.decode J = some (.ok x)) :
    Carries J formats entries id (retype formats (typedAs e.id) x) ↔
      FirstFor entries id ∨ Coincides J formats entries typedAs id := by
  constructor
  · rintro ⟨e', he', hid', x', hdecode', hsame⟩
    by_cases hid : e.id = id
    · exact .inl ⟨e, hfirst, hid⟩
    · exact .inr ⟨e, hfirst, hid, e', he', hid', x, x', hdecode, hdecode', hsame⟩
  · rintro (⟨e', hfirst', rfl⟩ | ⟨e', hfirst', -, e'', he'', hid'', x', x'', hdecode', hdecode'', hsame⟩)
    · obtain rfl := Option.some.inj (hfirst.symm.trans hfirst')
      exact ⟨e, List.mem_of_find?_eq_some hfirst, rfl, x, hdecode, by rw [hself]⟩
    · obtain rfl := Option.some.inj (hfirst.symm.trans hfirst')
      obtain rfl := Except.ok.inj (Option.some.inj (hdecode.symm.trans hdecode'))
      exact ⟨e'', he'', hid'', x'', hdecode'', hsame⟩

theorem readMany_ok {ids : List CharId} {rs : List (CharId × CharValue)} :
    (readMany J formats ids).outcome [.ok resp] = some (.ok rs) ↔
      ∃ parsed, isSuccess resp.status ∧ parseReadResponse J resp.body = .ok parsed ∧
        parsed.map (fun r => (r.1, retype formats r.1 r.2)) = rs := by
  rw [readMany, bind_pure_comp]
  refine Asking.outcome_map_ok.trans (exists_congr fun parsed => ?_)
  rw [characteristics_ok, and_assoc]

theorem read_carries_iff {id : CharId} {v : CharValue} (hbody : J.fromSlice resp.body = .ok entries)
    (h : (read J formats id).outcome [.ok resp] = some (.ok v)) :
    Carries J formats entries id v ↔
      FirstFor entries id ∨ Coincides J formats entries (fun k => k) id := by
  obtain ⟨values, hvalues, hfirst⟩ := Asking.outcome_bind_lift.mp h
  obtain ⟨parsed, -, hparsed, rfl⟩ := readMany_ok.mp hvalues
  obtain ⟨r, hr, hv⟩ := bind_eq_ok.mp hfirst
  obtain rfl := Except.ok.inj hv
  rw [okOr_eq_ok, List.head?_map] at hr
  obtain ⟨⟨k, x⟩, hhead, rfl⟩ := Option.map_eq_some_iff.mp hr
  have hfirst₀ : first id parsed = .ok x := by
    rw [first, hhead, okOr_some, ok_bind, pure_eq_ok]
  obtain ⟨e, he, hdecode, hhead'⟩ := first_ok hbody hparsed hfirst₀
  obtain ⟨rfl, -⟩ := Prod.mk.inj (Option.some.inj (hhead.symm.trans hhead'))
  exact carries_iff (fun k => k) rfl he hdecode

theorem writeWithResponse_carries_iff {id : CharId} {value v : CharValue}
    (hbody : J.fromSlice resp.body = .ok entries)
    (h : (writeWithResponse J formats id value).outcome [.ok resp] = some (.ok v)) :
    Carries J formats entries id v ↔
      FirstFor entries id ∨ Coincides J formats entries (fun _ => id) id := by
  obtain ⟨parsed, hparsed, hresult⟩ := Asking.outcome_bind_lift.mp h
  obtain ⟨-, hparsed⟩ := characteristics_ok.mp hparsed
  obtain ⟨x, hfirst, hv⟩ := bind_eq_ok.mp hresult
  obtain rfl := Except.ok.inj hv
  obtain ⟨e, he, hdecode, -⟩ := first_ok hbody hparsed hfirst
  exact carries_iff (fun _ => id) rfl he hdecode

theorem readMany_ids {ids : List CharId} {rs : List (CharId × CharValue)}
    (hbody : J.fromSlice resp.body = .ok entries)
    (h : (readMany J formats ids).outcome [.ok resp] = some (.ok rs)) :
    rs.map Prod.fst = (entries.filter (·.value.isSome)).map WireReadEntry.id := by
  obtain ⟨parsed, -, hparsed, rfl⟩ := readMany_ok.mp h
  rw [List.map_map]
  exact ids_of_readAs (parseReadResponse_ok hbody hparsed)

/-- Whatever a response lists: a value is attributed to the characteristic that was asked for
exactly if the first value is for it, apart from the coincidence that one for it is the same; and
a read of several has one value for each of them and for no other exactly if the response has. -/
theorem attributed_iff (formats : CharId → Option CharFormat) (resp : SessionResponse)
    (hbody : J.fromSlice resp.body = .ok entries) :
    (∀ id v, (read J formats id).outcome [.ok resp] = some (.ok v) →
      (Carries J formats entries id v ↔
        FirstFor entries id ∨ Coincides J formats entries (fun k => k) id)) ∧
    (∀ id value v, (writeWithResponse J formats id value).outcome [.ok resp] = some (.ok v) →
      (Carries J formats entries id v ↔
        FirstFor entries id ∨ Coincides J formats entries (fun _ => id) id)) ∧
    ∀ ids rs, (readMany J formats ids).outcome [.ok resp] = some (.ok rs) →
      (OneEach ids (rs.map Prod.fst) ↔
        OneEach ids ((entries.filter (·.value.isSome)).map WireReadEntry.id)) := by
  refine ⟨fun id v h => read_carries_iff hbody h,
    fun id value v h => writeWithResponse_carries_iff hbody h, ?_⟩
  intro ids rs h
  rw [readMany_ids hbody h]

end

theorem sampleCodec_stray : sampleCodec.fromSlice strayBody = .ok [strayEntry] := by
  change (if strayBody = strayBody then Except.ok [strayEntry]
    else Except.error "expected value at line 1 column 1") = _
  rw [if_pos rfl]

theorem parse_stray : parseReadResponse sampleCodec strayBody = .ok [((1, 10), .bool true)] := by
  rw [parseReadResponse, sampleCodec_stray]
  rfl

theorem readMany_stray (ids : List CharId) :
    (readMany sampleCodec (fun _ => none) ids).outcome [.ok ⟨200, strayBody⟩] =
      some (.ok [((1, 10), .bool true)]) :=
  readMany_ok.mpr ⟨_, rfl, parse_stray, rfl⟩

theorem read_stray (id : CharId) :
    (read sampleCodec (fun _ => none) id).outcome [.ok ⟨200, strayBody⟩] =
      some (.ok (.bool true)) :=
  Asking.outcome_bind_lift.mpr ⟨_, readMany_stray [id], rfl⟩

theorem writeWithResponse_stray (id : CharId) :
    (writeWithResponse sampleCodec (fun _ => none) id (.bool true)).outcome
      [.ok ⟨200, strayBody⟩] = some (.ok (.bool true)) :=
  Asking.outcome_bind_lift.mpr ⟨_, characteristics_ok.mpr ⟨rfl, parse_stray⟩, rfl⟩

theorem attributed_iff_own :
    (read sampleCodec (fun _ => none) (1, 10)).outcome [.ok ⟨200, strayBody⟩] =
        some (.ok (.bool true)) ∧
      Carries sampleCodec (fun _ => none) [strayEntry] (1, 10) (.bool true) := by
  obtain ⟨hread, -, -⟩ := attributed_iff (fun _ => none) ⟨200, strayBody⟩ sampleCodec_stray
  exact ⟨read_stray (1, 10), (hread _ _ (read_stray (1, 10))).mpr (.inl ⟨strayEntry, rfl, rfl⟩)⟩

/-- The accessory answers with the value of 1.10 where 1.9 was asked for. -/
theorem reads_other_characteristic :
    (read sampleCodec (fun _ => none) (1, 9)).outcome [.ok ⟨200, strayBody⟩] =
        some (.ok (.bool true)) ∧
      (writeWithResponse sampleCodec (fun _ => none) (1, 9) (.bool true)).outcome
        [.ok ⟨200, strayBody⟩] = some (.ok (.bool true)) ∧
      (readMany sampleCodec (fun _ => none) [(1, 9)]).outcome [.ok ⟨200, strayBody⟩] =
        some (.ok [((1, 10), .bool true)]) ∧
      sampleCodec.fromSlice strayBody = .ok [strayEntry] ∧
      ¬ Carries sampleCodec (fun _ => none) [strayEntry] (1, 9) (.bool true) ∧
      ¬ OneEach [(1, 9)] [(1, 10)] := by
  refine ⟨read_stray _, writeWithResponse_stray _, readMany_stray _, sampleCodec_stray, ?_, ?_⟩
  · rintro ⟨e, he, hid, -⟩
    obtain rfl := List.mem_singleton.mp he
    revert hid
    decide
  · intro h
    have hcount := h (1, 9)
    revert hcount
    decide

end IpHandle
end HapRust.Controller
