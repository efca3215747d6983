import HapRust.Tlv8.RoundTrip

/-! Which byte strings the reader accepts, and what it keeps of them. The loop of the
source walks the input by position; here it is also written with its positions, where an
index out of range or an addition past `usize` would show. -/

namespace HapRust.Tlv8
open Lib Tlv8Writer

structure Triple where
  ty : UInt8
  value : Bytes
  fits : value.length ≤ 255

def Triple.bytes (t : Triple) : Bytes := fragment t.ty t.value

namespace Tlv8Reader

def absorbTriple (s : State) (t : Triple) : State := absorb s t.ty t.value

theorem parseFrom_cons (ty : UInt8) (tail : Bytes) (s : State) :
    parseFrom (ty :: tail) s =
      (takeValue tail).bind fun p => parseFrom p.2 (absorb s ty p.1) := by
  unfold parseFrom
  rw [List.length_cons, parseLoop]
  cases ht : takeValue tail with
  | error e => rfl
  | ok p => exact parseLoop_fuel _ _ _ _ (takeValue_length ht).le le_rfl

theorem parseFrom_triples (ts : List Triple) (s : State) :
    parseFrom (ts.flatMap Triple.bytes) s = .ok (ts.foldl absorbTriple s).items := by
  induction ts generalizing s with
  | nil => rfl
  | cons t ts ih =>
    rw [List.flatMap_cons, Triple.bytes, parseFrom_fragment _ _ _ t.fits, ih]
    rfl

theorem takeValue_eq_ok {tail value rest : Bytes} (h : takeValue tail = .ok (value, rest))
    (ty : UInt8) :
    ∃ t : Triple, t.ty = ty ∧ t.value = value ∧ ty :: tail = t.bytes ++ rest := by
  cases tail with
  | nil => cases h
  | cons len tail =>
    simp only [takeValue] at h
    split_ifs at h with hshort
    obtain ⟨rfl, rfl⟩ := Prod.mk.inj (Except.ok.inj h)
    have hlen : (tail.take len.toNat).length = len.toNat := by
      rw [List.length_take]
      omega
    have hle : (tail.take len.toNat).length ≤ 255 := by
      rw [hlen]
      exact Nat.le_of_lt_succ len.toNat_lt
    refine ⟨⟨ty, tail.take len.toNat, hle⟩, rfl, rfl, ?_⟩
    rw [Triple.bytes, fragment, hlen, UInt8.ofNat_toNat, List.cons_append, List.cons_append,
      List.take_append_drop]

theorem takeValue_eq_error {tail : Bytes} {e : Tlv8Error} (h : takeValue tail = .error e) :
    e = .unexpectedEof := by
  cases tail with
  | nil => exact (Except.error.inj h).symm
  | cons len tail =>
    simp only [takeValue] at h
    split_ifs at h
    exact (Except.error.inj h).symm

theorem triples_or_unexpectedEof (bytes : Bytes) (s : State) :
    (∃ ts : List Triple, bytes = ts.flatMap Triple.bytes) ∨
      parseFrom bytes s = .error .unexpectedEof := by
  induction hn : bytes.length using Nat.strong_induction_on generalizing bytes s with
  | _ n ih =>
    subst hn
    cases bytes with
    | nil => exact .inl ⟨[], rfl⟩
    | cons ty tail =>
      rw [parseFrom_cons]
      cases ht : takeValue tail with
      | error e =>
        rw [takeValue_eq_error ht]
        exact .inr rfl
      | ok p =>
        obtain ⟨value, rest⟩ := p
        obtain ⟨t, -, -, hbytes⟩ := takeValue_eq_ok ht ty
        have hlt : rest.length < (ty :: tail).length := Nat.lt_succ_of_lt (takeValue_length ht)
        rcases ih rest.length hlt rest (absorb s ty value) rfl with ⟨ts, rfl⟩ | herr
        · exact .inl ⟨t :: ts, by rw [List.flatMap_cons, hbytes]⟩
        · exact .inr herr

/-! ## The bytes of the values

An open run has an item to go on with: without it a continuation would be lost. -/

def State.Backed (s : State) : Prop :=
  ∀ ty, s.openRun = some (ty, true) → ∃ items v, s.items = items ++ [(ty, v)]

theorem backed_absorb (s : State) (ty : UInt8) (value : Bytes) (hs : s.Backed) :
    (absorb s ty value).Backed := by
  intro ty' hopen
  unfold absorb at hopen ⊢
  by_cases hsep : ty = separator
  · rw [if_pos hsep] at hopen
    cases hopen
  · rw [if_neg hsep] at hopen ⊢
    obtain ⟨rfl, -⟩ := Prod.mk.inj (Option.some.inj hopen)
    dsimp only
    split_ifs with hcont
    · obtain ⟨items, v, hitems⟩ := hs ty hcont
      exact ⟨items, v ++ value, by rw [hitems, extendLast_concat]⟩
    · exact ⟨s.items, value, rfl⟩

theorem values_absorb (s : State) (ty : UInt8) (value : Bytes) (hs : s.Backed) :
    (absorb s ty value).items.flatMap Prod.snd = s.items.flatMap Prod.snd ++ value := by
  unfold absorb
  split_ifs with hsep
  · simp only [List.flatMap_append, List.flatMap_cons, List.flatMap_nil, List.append_nil]
  · dsimp only
    split_ifs with hcont
    · obtain ⟨items, v, hitems⟩ := hs ty hcont
      rw [hitems, extendLast_concat]
      simp only [List.flatMap_append, List.flatMap_cons, List.flatMap_nil, List.append_nil,
        List.append_assoc]
    · simp only [List.flatMap_append, List.flatMap_cons, List.flatMap_nil, List.append_nil]

theorem values_foldl (ts : List Triple) (s : State) (hs : s.Backed) :
    (ts.foldl absorbTriple s).items.flatMap Prod.snd =
      s.items.flatMap Prod.snd ++ ts.flatMap Triple.value := by
  induction ts generalizing s with
  | nil => rw [List.foldl_nil, List.flatMap_nil, List.append_nil]
  | cons t ts ih =>
    have hnext : (absorbTriple s t).Backed := backed_absorb s t.ty t.value hs
    rw [List.foldl_cons, ih _ hnext, absorbTriple, values_absorb s _ _ hs, List.flatMap_cons,
      List.append_assoc]

end Tlv8Reader

/-! ## The loop by position -/

namespace Indexed
open Tlv8Reader

inductive Fault where
  | tlv (e : Tlv8Error)
  | outOfRange
  | overflow
  deriving DecidableEq

def index (bytes : Bytes) (pos : Nat) : Except Fault UInt8 := okOr bytes[pos]? .outOfRange

def usizeAdd (a b : Nat) : Except Fault Nat := if a + b < 2 ^ 64 then .ok (a + b) else .error .overflow

def checkedAdd (a b : Nat) : Option Nat := if a + b < 2 ^ 64 then some (a + b) else none

def getRange (bytes : Bytes) (start stop : Nat) : Option Bytes :=
  if start ≤ stop ∧ stop ≤ bytes.length then some ((bytes.take stop).drop start) else none

def turn (bytes : Bytes) (pos : Nat) (s : State) : Except Fault (Nat × State) := do
  let ty ← index bytes pos
  let lenAt ← usizeAdd pos 1
  let len ← okOr bytes[lenAt]? (.tlv .unexpectedEof)
  let start ← usizeAdd pos 2
  let stop ← okOr (checkedAdd start len.toNat) (.tlv .unexpectedEof)
  let value ← okOr (getRange bytes start stop) (.tlv .unexpectedEof)
  return (stop, absorb s ty value)

theorem usizeAdd_eq_ok {a b c : Nat} (h : usizeAdd a b = .ok c) : c = a + b := by
  unfold usizeAdd at h
  split_ifs at h
  exact (Except.ok.inj h).symm

theorem lt_of_turn {bytes : Bytes} {pos pos' : Nat} {s s' : State}
    (h : turn bytes pos s = .ok (pos', s')) : pos < pos' := by
  unfold turn at h
  obtain ⟨ty, -, h⟩ := bind_eq_ok.mp h
  obtain ⟨lenAt, -, h⟩ := bind_eq_ok.mp h
  obtain ⟨len, -, h⟩ := bind_eq_ok.mp h
  obtain ⟨start, hstart, h⟩ := bind_eq_ok.mp h
  obtain ⟨stop, hstop, h⟩ := bind_eq_ok.mp h
  obtain ⟨value, -, h⟩ := bind_eq_ok.mp h
  obtain ⟨rfl, -⟩ := Prod.mk.inj (Except.ok.inj h)
  have hadd := okOr_eq_ok.mp hstop
  unfold checkedAdd at hadd
  split_ifs at hadd
  rw [← Option.some.inj hadd, usizeAdd_eq_ok hstart]
  omega

def parseLoop (bytes : Bytes) (pos : Nat) (s : State) : Except Fault (List Item) :=
  if pos < bytes.length then
    match _h : turn bytes pos s with
    | .error f => .error f
    | .ok (pos', s') => parseLoop bytes pos' s'
  else .ok s.items
termination_by bytes.length - pos
decreasing_by
  have := lt_of_turn _h
  omega

def parse (bytes : Bytes) : Except Fault (List Item) := parseLoop bytes 0 ⟨[], none⟩

section
variable {pre rest tail : Bytes} {s : State}

theorem index_append (ty : UInt8) : index (pre ++ ty :: tail) pre.length = .ok ty := by
  rw [index, List.getElem?_append_right le_rfl, Nat.sub_self, List.getElem?_cons_zero, okOr_some]

theorem usizeAdd_of_lt {a b : Nat} (h : a + b < 2 ^ 64) : usizeAdd a b = .ok (a + b) := if_pos h

theorem getElem?_append_succ (ty : UInt8) :
    (pre ++ ty :: tail)[pre.length + 1]? = tail[0]? := by
  rw [List.getElem?_append_right (Nat.le_add_right _ 1), Nat.add_sub_cancel_left,
    List.getElem?_cons_succ]

theorem getRange_append (value : Bytes) :
    getRange (pre ++ (value ++ rest)) pre.length (pre.length + value.length) = some value := by
  have hin : pre.length + value.length ≤ (pre ++ (value ++ rest)).length := by
    simp only [List.length_append]
    omega
  rw [getRange, if_pos ⟨Nat.le_add_right _ _, hin⟩, ← List.append_assoc,
    List.take_left' List.length_append, List.drop_left]

theorem turn_triple (t : Triple) (hlen : (pre ++ (t.bytes ++ rest)).length < 2 ^ 63) :
    turn (pre ++ (t.bytes ++ rest)) pre.length s =
      .ok ((pre ++ t.bytes).length, absorbTriple s t) := by
  have hn : (UInt8.ofNat t.value.length).toNat = t.value.length := by
    rw [UInt8.toNat_ofNat']
    exact Nat.mod_eq_of_lt (Nat.lt_succ_of_le t.fits)
  have hsplit : pre ++ (t.bytes ++ rest) =
      (pre ++ [t.ty, UInt8.ofNat t.value.length]) ++ (t.value ++ rest) := by
    simp only [Triple.bytes, fragment, List.append_assoc, List.cons_append, List.nil_append]
  have hstart : (pre ++ [t.ty, UInt8.ofNat t.value.length]).length = pre.length + 2 := by
    rw [List.length_append]
    rfl
  have hrange : getRange (pre ++ (t.bytes ++ rest)) (pre.length + 2)
      (pre.length + 2 + t.value.length) = some t.value := by
    rw [hsplit, ← hstart]
    exact getRange_append t.value
  have hlong : pre.length + 2 + t.value.length < 2 ^ 64 := by
    simp only [List.length_append, Triple.bytes, length_fragment] at hlen
    omega
  have hty : index (pre ++ (t.bytes ++ rest)) pre.length = .ok t.ty := index_append t.ty
  have hlenByte : (pre ++ (t.bytes ++ rest))[pre.length + 1]? =
      some (UInt8.ofNat t.value.length) := getElem?_append_succ t.ty
  have hstop : pre.length + 2 + t.value.length = (pre ++ t.bytes).length := by
    rw [List.length_append, Triple.bytes, length_fragment]
    omega
  unfold turn
  rw [hty, ok_bind, usizeAdd_of_lt (by omega), ok_bind, hlenByte, okOr_some, ok_bind,
    usizeAdd_of_lt (by omega), ok_bind, hn, checkedAdd, if_pos hlong, okOr_some, ok_bind, hrange,
    okOr_some, ok_bind, hstop]
  rfl

theorem turn_error {ty : UInt8} {e : Tlv8Error} (ht : takeValue tail = .error e)
    (hlen : (pre ++ ty :: tail).length < 2 ^ 63) :
    turn (pre ++ ty :: tail) pre.length s = .error (.tlv .unexpectedEof) := by
  simp only [List.length_append, List.length_cons] at hlen
  unfold turn
  rw [index_append, ok_bind, usizeAdd_of_lt (by omega), ok_bind, getElem?_append_succ]
  cases tail with
  | nil => rfl
  | cons len tail =>
    simp only [takeValue] at ht
    split_ifs at ht with hshort
    have hfar : ¬ pre.length + 2 + len.toNat ≤ (pre ++ ty :: len :: tail).length := by
      simp only [List.length_append, List.length_cons]
      omega
    have hlong : pre.length + 2 + len.toNat < 2 ^ 64 := by
      have := len.toNat_lt
      omega
    rw [List.getElem?_cons_zero, okOr_some, ok_bind, usizeAdd_of_lt (by omega), ok_bind, checkedAdd,
      if_pos hlong, okOr_some, ok_bind, getRange, if_neg (fun h => hfar h.2)]
    rfl

theorem parseLoop_eq (hlen : (pre ++ rest).length < 2 ^ 63) :
    parseLoop (pre ++ rest) pre.length s = mapErr .tlv (parseFrom rest s) := by
  induction hn : rest.length using Nat.strong_induction_on generalizing pre rest s with
  | _ n ih =>
    subst hn
    rw [parseLoop.eq_def]
    cases rest with
    | nil =>
      rw [List.append_nil, if_neg (Nat.lt_irrefl _)]
      rfl
    | cons ty tail =>
      have hpos : pre.length < (pre ++ ty :: tail).length := by
        simp only [List.length_append, List.length_cons]
        omega
      rw [if_pos hpos, parseFrom_cons]
      cases ht : takeValue tail with
      | error e =>
        rw [turn_error ht hlen, takeValue_eq_error ht]
        rfl
      | ok p =>
        obtain ⟨value, rest⟩ := p
        obtain ⟨t, rfl, rfl, hbytes⟩ := takeValue_eq_ok ht ty
        have hlt : rest.length < (t.ty :: tail).length := Nat.lt_succ_of_lt (takeValue_length ht)
        rw [hbytes] at hlen ⊢
        rw [turn_triple t hlen, ← List.append_assoc]
        exact ih rest.length hlt (by rwa [List.append_assoc]) rfl

end

theorem parse_eq {bytes : Bytes} (hlen : bytes.length < 2 ^ 63) :
    parse bytes = mapErr .tlv (Tlv8Reader.parse bytes) := by
  have hloop := @parseLoop_eq [] bytes ⟨[], none⟩ hlen
  exact hloop

end Indexed

/-- The reader accepts what is made of triples and nothing else; it never reaches out of
its input, which as a slice has fewer than `2 ^ 63` bytes. What it accepts it keeps to the
last value byte, and writing the items again gives an input with the same items. -/
theorem parse_iff_triples (bytes : Bytes) :
    ((∃ items, Tlv8Reader.parse bytes = .ok items) ↔
      ∃ ts : List Triple, bytes = ts.flatMap Triple.bytes) ∧
    ((¬ ∃ ts : List Triple, bytes = ts.flatMap Triple.bytes) →
      Tlv8Reader.parse bytes = .error .unexpectedEof) ∧
    (bytes.length < 2 ^ 63 →
      Indexed.parse bytes = mapErr Indexed.Fault.tlv (Tlv8Reader.parse bytes)) ∧
    (∀ items, Tlv8Reader.parse bytes = .ok items →
      (∀ ts : List Triple, bytes = ts.flatMap Triple.bytes →
        items.flatMap Prod.snd = ts.flatMap Triple.value) ∧
      ((∀ i ∈ items, i.1 = separator → i.2 = []) →
        Tlv8Reader.parse (writeTlv items) = .ok items)) := by
  have hdecides := Tlv8Reader.triples_or_unexpectedEof bytes ⟨[], none⟩
  refine ⟨⟨?_, ?_⟩, ?_, Indexed.parse_eq, ?_⟩
  · rintro ⟨items, hok⟩
    rcases hdecides with hts | herr
    · exact hts
    · cases hok.symm.trans herr
  · rintro ⟨ts, rfl⟩
    exact ⟨_, Tlv8Reader.parseFrom_triples ts _⟩
  · intro hnone
    exact hdecides.resolve_left hnone
  · intro items hok
    refine ⟨?_, Tlv8Reader.parse_writeTlv⟩
    rintro ts rfl
    have hitems := Except.ok.inj (hok.symm.trans (Tlv8Reader.parseFrom_triples ts _))
    rw [hitems, Tlv8Reader.values_foldl ts _ (by intro ty h; cases h)]
    rfl

theorem parse_iff_triples_separated :
    Tlv8Reader.parse [1, 1, 7, 0xFF, 0, 1, 0] = .ok [(1, [7]), (0xFF, []), (1, [])] ∧
      Indexed.parse [1, 1, 7, 0xFF, 0, 1, 0] =
        mapErr .tlv (Tlv8Reader.parse [1, 1, 7, 0xFF, 0, 1, 0]) ∧
      Tlv8Reader.parse (writeTlv [(1, [7]), (0xFF, []), (1, [])]) =
        .ok [(1, [7]), (0xFF, []), (1, [])] :=
  ⟨by decide, (parse_iff_triples _).2.2.1 (by decide),
    ((parse_iff_triples [1, 1, 7, 0xFF, 0, 1, 0]).2.2.2 _ (by decide)).2 (by decide)⟩

end HapRust.Tlv8
