import Mathlib.Data.Nat.Digits.Lemmas

/-! Byte strings: cutting into chunks, fixed-width little-endian integers, and
big-endian numerals with left padding. -/

namespace HapRust.Lib

abbrev Bytes := List UInt8

abbrev Arr (n : Nat) := { b : Bytes // b.length = n }

def constArr (n : Nat) (b : UInt8) : Arr n := ⟨List.replicate n b, List.length_replicate⟩

def tryIntoArr (n : Nat) (b : Bytes) : Option (Arr n) :=
  if h : b.length = n then some ⟨b, h⟩ else none

theorem tryIntoArr_eq_some {n : Nat} {b : Bytes} {a : Arr n} :
    tryIntoArr n b = some a ↔ b = a.val := by
  unfold tryIntoArr
  split_ifs with h
  · simp only [Option.some.injEq]
    exact ⟨fun e => e ▸ rfl, fun e => Subtype.ext e⟩
  · simp only [false_iff]
    rintro rfl
    exact h a.property

@[simp] theorem tryIntoArr_val {n : Nat} (a : Arr n) : tryIntoArr n a.val = some a :=
  tryIntoArr_eq_some.mpr rfl

theorem bind_tryIntoArr_eq_some {n : Nat} {o : Option Bytes} {a : Arr n} :
    o.bind (tryIntoArr n) = some a ↔ o = some a.val := by
  cases o with
  | none => simp only [Option.bind_none, reduceCtorEq]
  | some b => rw [Option.bind_some, tryIntoArr_eq_some, Option.some.injEq]

theorem take_append_slice_append_drop {α : Type} (l : List α) {i j : Nat} (h : i ≤ j) :
    l.take i ++ (l.take j).drop i ++ l.drop j = l := by
  have htake : l.take i = (l.take j).take i := by rw [List.take_take, Nat.min_eq_left h]
  rw [htake, List.take_append_drop, List.take_append_drop]

section Chunks
variable {α : Type}

def chunksFuel (n : Nat) : Nat → List α → List (List α)
  | 0, _ => []
  | _ + 1, [] => []
  | fuel + 1, a :: l => (a :: l).take n :: chunksFuel n fuel ((a :: l).drop n)

def chunks (n : Nat) (l : List α) : List (List α) := chunksFuel n l.length l

theorem chunksFuel_fuel (n : Nat) (hn : 0 < n) :
    ∀ (f g : Nat) (l : List α), l.length ≤ f → l.length ≤ g →
      chunksFuel n f l = chunksFuel n g l := by
  intro f
  induction f with
  | zero =>
    intro g l hf _
    obtain rfl : l = [] := List.eq_nil_of_length_eq_zero (by omega)
    cases g <;> rfl
  | succ f ih =>
    intro g l hf hg
    cases l with
    | nil => cases g <;> rfl
    | cons a l =>
      cases g with
      | zero => simp at hg
      | succ g =>
        simp only [chunksFuel, List.length_cons] at *
        congr 1
        apply ih <;> simp only [List.length_drop, List.length_cons] <;> omega

@[simp] theorem chunks_nil (n : Nat) : chunks n ([] : List α) = [] := rfl

theorem chunks_of_ne_nil {n : Nat} (hn : 0 < n) {l : List α} (hl : l ≠ []) :
    chunks n l = l.take n :: chunks n (l.drop n) := by
  cases l with
  | nil => exact absurd rfl hl
  | cons a l =>
    unfold chunks
    simp only [List.length_cons, chunksFuel, List.cons.injEq, true_and]
    apply chunksFuel_fuel n hn <;> simp only [List.length_drop, List.length_cons] <;> omega

theorem chunks_induction {n : Nat} (hn : 0 < n) {P : List α → Prop} (nil : P [])
    (step : ∀ l, l ≠ [] → P (l.drop n) → P l) (l : List α) : P l := by
  induction hk : l.length using Nat.strong_induction_on generalizing l with
  | _ k ih =>
    by_cases hl : l = []
    · exact hl ▸ nil
    · have hpos : 0 < l.length := List.length_pos_iff.mpr hl
      exact step l hl (ih _ (by simp only [List.length_drop]; omega) _ rfl)

theorem chunks_flatten {n : Nat} (hn : 0 < n) (l : List α) : (chunks n l).flatten = l := by
  induction l using chunks_induction hn with
  | nil => rfl
  | step l hl ih => rw [chunks_of_ne_nil hn hl, List.flatten_cons, ih, List.take_append_drop]

theorem length_le_of_mem_chunks {n : Nat} (hn : 0 < n) {l c : List α} (h : c ∈ chunks n l) :
    c.length ≤ n := by
  induction l using chunks_induction hn with
  | nil => simp at h
  | step l hl ih =>
    rw [chunks_of_ne_nil hn hl, List.mem_cons] at h
    rcases h with rfl | h
    · exact List.length_take_le n l
    · exact ih h

end Chunks

/-! ## Little-endian integers -/

def leBytes : Nat → Nat → Bytes
  | 0, _ => []
  | w + 1, v => UInt8.ofNat v :: leBytes w (v / 256)

def leNat : Bytes → Nat
  | [] => 0
  | b :: bs => b.toNat + 256 * leNat bs

@[simp] theorem leBytes_length (w v : Nat) : (leBytes w v).length = w := by
  induction w generalizing v with
  | zero => rfl
  | succ w ih => simp only [leBytes, List.length_cons, ih]

theorem leNat_leBytes (w v : Nat) : leNat (leBytes w v) = v % 256 ^ w := by
  induction w generalizing v with
  | zero => simp only [leBytes, leNat, pow_zero, Nat.mod_one]
  | succ w ih =>
    have hb : (UInt8.ofNat v).toNat = v % 256 := UInt8.toNat_ofNat'
    rw [leBytes, leNat, ih, hb, pow_succ', Nat.mod_mul]

theorem leBytes_add (a b v : Nat) : leBytes (a + b) v = leBytes a v ++ leBytes b (v / 256 ^ a) := by
  induction a generalizing v with
  | zero => rw [Nat.zero_add, Nat.pow_zero, Nat.div_one]; rfl
  | succ a ih =>
    rw [Nat.add_right_comm, leBytes, ih, leBytes, List.cons_append, Nat.div_div_eq_div_mul,
      Nat.pow_succ']

theorem leBytes_zero (w : Nat) : leBytes w 0 = List.replicate w 0 := by
  induction w with
  | zero => rfl
  | succ w ih =>
    rw [leBytes, Nat.zero_div, ih]
    rfl

theorem leBytes_leNat (b : Bytes) : leBytes b.length (leNat b) = b := by
  induction b with
  | nil => rfl
  | cons d b ih =>
    have hd := d.toNat_lt
    have hlow : UInt8.ofNat (d.toNat + 256 * leNat b) = d := by
      apply UInt8.toNat_inj.mp
      rw [UInt8.toNat_ofNat']
      omega
    have hhigh : (d.toNat + 256 * leNat b) / 256 = leNat b := by omega
    rw [List.length_cons, leNat, leBytes, hlow, hhigh, ih]

theorem leNat_lt (b : Bytes) : leNat b < 256 ^ b.length := by
  have hpos : 0 < 256 ^ b.length := Nat.pow_pos (by decide)
  have hmod := leNat_leBytes b.length (leNat b)
  rw [leBytes_leNat] at hmod
  rw [hmod]
  exact Nat.mod_lt _ hpos

theorem leBytes_injective {w v v' : Nat} (hv : v < 256 ^ w) (hv' : v' < 256 ^ w)
    (h : leBytes w v = leBytes w v') : v = v' := by
  have hn := congrArg leNat h
  rwa [leNat_leBytes, leNat_leBytes, Nat.mod_eq_of_lt hv, Nat.mod_eq_of_lt hv'] at hn

/-! ## Big-endian numerals -/

def beNat (b : Bytes) : Nat := b.foldl (fun n d => n * 256 + d.toNat) 0

def beBytes (v : Nat) : Bytes :=
  if v = 0 then [0] else (Nat.digits 256 v).reverse.map UInt8.ofNat

def padLeft (w : Nat) (b : Bytes) : Bytes :=
  if w ≤ b.length then b else List.replicate (w - b.length) 0 ++ b

theorem beNat_eq_ofDigits (b : Bytes) :
    beNat b = Nat.ofDigits 256 (b.reverse.map UInt8.toNat) := by
  rw [Nat.ofDigits_eq_foldr, List.foldr_map, List.foldr_reverse]
  unfold beNat
  congr 1
  funext n d
  simp only [Nat.cast_id]
  omega

theorem beNat_beBytes (v : Nat) : beNat (beBytes v) = v := by
  unfold beBytes
  split_ifs with h
  · subst h
    rfl
  · rw [beNat_eq_ofDigits, ← List.map_reverse, List.reverse_reverse, List.map_map]
    have hd : (Nat.digits 256 v).map (UInt8.toNat ∘ UInt8.ofNat) = Nat.digits 256 v := by
      refine (List.map_congr_left fun d hd => ?_).trans (List.map_id _)
      have hlt : d < 256 := Nat.digits_lt_base (by decide) hd
      simp only [Function.comp_apply, UInt8.toNat_ofNat', id_eq]
      exact Nat.mod_eq_of_lt hlt
    rw [hd, Nat.ofDigits_digits]

theorem beNat_replicate_append (k : Nat) (b : Bytes) :
    beNat (List.replicate k 0 ++ b) = beNat b := by
  induction k with
  | zero => rfl
  | succ k ih =>
    rw [List.replicate_succ, List.cons_append]
    exact ih

@[simp] theorem beNat_padLeft (w : Nat) (b : Bytes) : beNat (padLeft w b) = beNat b := by
  unfold padLeft
  split_ifs
  · rfl
  · exact beNat_replicate_append _ b

end HapRust.Lib
