import HapRust.Lib.Bytes

/-! The TLV8 encoder. A writer is the byte string it has appended to so far;
values longer than 255 bytes become runs of items of one type, and a run whose
last fragment is full is closed by an empty item. -/

namespace HapRust.Tlv8
open Lib

def separator : UInt8 := 0xFF

namespace Tlv8Writer

def fragment (ty : UInt8) (chunk : Bytes) : Bytes := ty :: UInt8.ofNat chunk.length :: chunk

def push (out : Bytes) (ty : UInt8) (value : Bytes) : Bytes :=
  if value = [] then out ++ [ty, 0]
  else
    let written := (chunks 255 value).foldl
      (fun (st : Bytes × Nat) chunk => (st.1 ++ fragment ty chunk, chunk.length)) (out, 0)
    -- a full last fragment would leave the run open
    if written.2 = 255 then written.1 ++ [ty, 0] else written.1

def pushU8 (out : Bytes) (ty v : UInt8) : Bytes := push out ty (leBytes 1 v.toNat)

def pushSeparator (out : Bytes) : Bytes := out ++ [separator, 0]

def run (ty : UInt8) (value : Bytes) : Bytes :=
  if value.length < 255 then fragment ty value
  else fragment ty (value.take 255) ++ run ty (value.drop 255)
termination_by value.length
decreasing_by simp only [List.length_drop]; omega

theorem run_short {ty : UInt8} {value : Bytes} (h : value.length < 255) :
    run ty value = fragment ty value := by rw [run, if_pos h]

theorem run_long {ty : UInt8} {value : Bytes} (h : 255 ≤ value.length) :
    run ty value = fragment ty (value.take 255) ++ run ty (value.drop 255) := by
  rw [run, if_neg (by omega)]

theorem fold_run (ty : UInt8) (value out : Bytes) (last : Nat) (hne : value ≠ []) :
    let written := (chunks 255 value).foldl
      (fun (st : Bytes × Nat) chunk => (st.1 ++ fragment ty chunk, chunk.length)) (out, last)
    (if written.2 = 255 then written.1 ++ [ty, 0] else written.1) = out ++ run ty value := by
  induction value using chunks_induction (n := 255) (by decide) generalizing out last with
  | nil => exact absurd rfl hne
  | step value hl ih =>
    rw [chunks_of_ne_nil (by decide) hl, List.foldl_cons]
    by_cases hd : value.drop 255 = []
    · have hle : value.length ≤ 255 := List.drop_eq_nil_iff.mp hd
      rw [hd, chunks_nil, List.foldl_nil, List.take_of_length_le hle]
      by_cases h255 : value.length = 255
      · rw [run_long (by omega), hd, List.take_of_length_le hle, run_short (by decide)]
        simp only [h255, if_true, List.append_assoc]
        rfl
      · rw [run_short (by omega)]
        simp only [h255, if_false]
    · have hlt : ¬ value.length ≤ 255 := fun h => hd (List.drop_eq_nil_iff.mpr h)
      rw [run_long (by omega), ← List.append_assoc]
      exact ih _ _ hd

theorem push_eq (out : Bytes) (ty : UInt8) (value : Bytes) :
    push out ty value = out ++ run ty value := by
  unfold push
  split_ifs with h
  · subst h
    rw [run_short (by decide)]
    rfl
  · exact fold_run ty value out 0 h

@[simp] theorem length_fragment (ty : UInt8) (chunk : Bytes) :
    (fragment ty chunk).length = chunk.length + 2 := by
  simp only [fragment, List.length_cons]

theorem length_run (ty : UInt8) (value : Bytes) :
    (run ty value).length = value.length + 2 * (value.length / 255 + 1) := by
  induction value using chunks_induction (n := 255) (by decide) with
  | nil => rw [run_short (by decide)]; rfl
  | step value _ ih =>
    by_cases hlt : value.length < 255
    · rw [run_short hlt, length_fragment, Nat.div_eq_of_lt hlt]
    · have hlen : (value.drop 255).length = value.length - 255 := List.length_drop
      rw [run_long (by omega), List.length_append, length_fragment, ih, hlen, List.length_take]
      omega

theorem pushU8_eq_push (out : Bytes) (ty v : UInt8) : pushU8 out ty v = push out ty [v] := by
  simp only [pushU8, leBytes, UInt8.ofNat_toNat]

end Tlv8Writer
end HapRust.Tlv8
