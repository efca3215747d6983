import Mathlib.Data.List.Forall2
import Mathlib.Data.List.Nodup

/-! Maps that keep the order of insertion. The values carry their keys; no two
values of a map have the same key. Two lists that correspond value by value still
do after the same operation on both. -/

namespace HapRust.Lib
variable {κ ν : Type} [DecidableEq κ]

section Lists
variable (key : ν → κ)

def putBy (v : ν) : List ν → List ν
  | [] => [v]
  | w :: l => if key w = key v then v :: l else w :: putBy v l

def updateBy (k : κ) (f : ν → ν) : List ν → List ν
  | [] => []
  | w :: l => if key w = k then f w :: l else w :: updateBy k f l

variable {key}

theorem map_putBy (v : ν) (l : List ν) :
    (putBy key v l).map key = if key v ∈ l.map key then l.map key else l.map key ++ [key v] := by
  induction l with
  | nil => rfl
  | cons w l ih =>
    by_cases h : key w = key v
    · rw [putBy, if_pos h, List.map_cons, List.map_cons, h, if_pos (List.mem_cons_self ..)]
    · have hmem : key v ∈ key w :: l.map key ↔ key v ∈ l.map key :=
        ⟨fun hv => (List.mem_cons.mp hv).resolve_left (Ne.symm h), List.mem_cons_of_mem _⟩
      rw [putBy, if_neg h, List.map_cons, List.map_cons, ih]
      by_cases hv : key v ∈ l.map key
      · rw [if_pos hv, if_pos (hmem.mpr hv)]
      · rw [if_neg hv, if_neg (mt hmem.mp hv), List.cons_append]

theorem nodup_putBy (v : ν) {l : List ν} (h : (l.map key).Nodup) :
    ((putBy key v l).map key).Nodup := by
  rw [map_putBy]
  split_ifs with hv
  · exact h
  · refine List.nodup_append.mpr ⟨h, List.nodup_singleton _, ?_⟩
    intro k hk k' hk' heq
    rw [List.mem_singleton.mp hk'] at heq
    exact hv (heq ▸ hk)

theorem map_updateBy (k : κ) {f : ν → ν} (hf : ∀ v, key (f v) = key v) (l : List ν) :
    (updateBy key k f l).map key = l.map key := by
  induction l with
  | nil => rfl
  | cons w l ih =>
    by_cases h : key w = k
    · rw [updateBy, if_pos h, List.map_cons, List.map_cons, hf]
    · rw [updateBy, if_neg h, List.map_cons, List.map_cons, ih]

theorem updateBy_eq_self {k : κ} {f : ν → ν} {l : List ν}
    (h : ∀ v, l.find? (key · = k) = some v → f v = v) : updateBy key k f l = l := by
  induction l with
  | nil => rfl
  | cons w l ih =>
    by_cases hw : key w = k
    · rw [updateBy, if_pos hw, h w (List.find?_cons_of_pos (decide_eq_true hw))]
    · rw [updateBy, if_neg hw, ih]
      intro v hv
      exact h v (by rw [List.find?_cons_of_neg (by simpa using hw)]; exact hv)

theorem find?_putBy (v : ν) (k : κ) (l : List ν) :
    (putBy key v l).find? (key · = k) = if key v = k then some v else l.find? (key · = k) := by
  induction l with
  | nil => by_cases h : key v = k <;> simp [putBy, h]
  | cons w l ih =>
    by_cases hw : key w = key v
    · rw [putBy, if_pos hw]
      by_cases h : key v = k <;> simp [h, hw]
    · rw [putBy, if_neg hw]
      by_cases h : key v = k
      · have hk : ¬ key w = k := fun hk => hw (hk.trans h.symm)
        simp [hk, ih, h]
      · by_cases hk : key w = k <;> simp [hk, ih, h]

theorem find?_removeBy {k k' : κ} (h : k ≠ k') (l : List ν) :
    (l.filter (key · ≠ k)).find? (key · = k') = l.find? (key · = k') := by
  rw [List.find?_filter]
  congr 1
  funext v
  by_cases hv : key v = k' <;> simp [hv, h.symm]

theorem find?_updateBy (k k' : κ) {f : ν → ν} (hf : ∀ v, key (f v) = key v) (l : List ν) :
    (updateBy key k f l).find? (key · = k') =
      if k = k' then (l.find? (key · = k')).map f else l.find? (key · = k') := by
  induction l with
  | nil => simp [updateBy]
  | cons w l ih =>
    by_cases hw : key w = k
    · rw [updateBy, if_pos hw]
      by_cases h : k = k' <;> simp [h, hf, hw]
    · rw [updateBy, if_neg hw]
      by_cases h : k = k'
      · subst h
        simp [hw, ih]
      · by_cases hk : key w = k' <;> simp [hk, ih, h]

end Lists

/-! ## Lists that correspond -/

section Corresponding
variable {μ : Type} {key : ν → κ} {key' : μ → κ} {R : ν → μ → Prop}
  (hkey : ∀ v w, R v w → key v = key' w)
include hkey

theorem forall₂_putBy {v : ν} {w : μ} (hvw : R v w) {l : List ν} {l' : List μ}
    (h : List.Forall₂ R l l') : List.Forall₂ R (putBy key v l) (putBy key' w l') := by
  induction h with
  | nil => exact .cons hvw .nil
  | @cons a b l l' hab hl ih =>
    rw [putBy, putBy, hkey a b hab, hkey v w hvw]
    split_ifs
    · exact .cons hvw hl
    · exact .cons hab ih

theorem forall₂_removeBy (k : κ) {l : List ν} {l' : List μ} (h : List.Forall₂ R l l') :
    List.Forall₂ R (l.filter (key · ≠ k)) (l'.filter (key' · ≠ k)) := by
  induction h with
  | nil => exact .nil
  | @cons a b l l' hab hl ih =>
    rw [List.filter_cons, List.filter_cons, hkey a b hab]
    split_ifs
    · exact .cons hab ih
    · exact ih

theorem forall₂_updateBy (k : κ) {f : ν → ν} {g : μ → μ} {l : List ν} {l' : List μ}
    (hfg : ∀ v, l.find? (key · = k) = some v → ∀ w, R v w → R (f v) (g w))
    (h : List.Forall₂ R l l') :
    List.Forall₂ R (updateBy key k f l) (updateBy key' k g l') := by
  induction h with
  | nil => exact .nil
  | @cons a b l l' hab hl ih =>
    rw [updateBy, updateBy, hkey a b hab]
    by_cases hk : key' b = k
    · rw [if_pos hk, if_pos hk]
      exact .cons (hfg a (by simp [hkey a b hab, hk]) b hab) hl
    · rw [if_neg hk, if_neg hk]
      refine .cons hab (ih fun v hv w hvw => hfg v ?_ w hvw)
      simpa [hkey a b hab, hk] using hv

theorem forall₂_find? (k : κ) {l : List ν} {l' : List μ} (h : List.Forall₂ R l l') :
    Option.Rel R (l.find? (key · = k)) (l'.find? (key' · = k)) := by
  induction h with
  | nil => exact .none
  | @cons a b l l' hab hl ih =>
    rw [List.find?_cons, List.find?_cons, hkey a b hab]
    by_cases hk : key' b = k
    · rw [decide_eq_true hk]
      exact .some hab
    · rw [decide_eq_false hk]
      exact ih

end Corresponding

/-! ## Maps -/

structure OrderedMap (key : ν → κ) where
  values : List ν
  nodup : (values.map key).Nodup

namespace OrderedMap
variable {key : ν → κ}

def empty : OrderedMap key := ⟨[], List.nodup_nil⟩

def get? (m : OrderedMap key) (k : κ) : Option ν := m.values.find? (key · = k)

def put (m : OrderedMap key) (v : ν) : OrderedMap key :=
  ⟨putBy key v m.values, nodup_putBy v m.nodup⟩

def remove (m : OrderedMap key) (k : κ) : OrderedMap key :=
  ⟨m.values.filter (key · ≠ k), m.nodup.sublist (List.filter_sublist.map key)⟩

def update (m : OrderedMap key) (k : κ) (f : ν → ν) (hf : ∀ v, key (f v) = key v) :
    OrderedMap key :=
  ⟨updateBy key k f m.values, by rw [map_updateBy k hf]; exact m.nodup⟩

variable {m : OrderedMap key}

theorem key_of_get? {k : κ} {v : ν} (h : m.get? k = some v) : key v = k :=
  of_decide_eq_true (List.find?_some (p := (key · = k)) h)

theorem get?_put (v : ν) (k : κ) : (m.put v).get? k = if key v = k then some v else m.get? k :=
  find?_putBy v k m.values

theorem get?_remove {k k' : κ} (h : k ≠ k') : (m.remove k).get? k' = m.get? k' :=
  find?_removeBy h m.values

theorem get?_update (k k' : κ) {f : ν → ν} (hf : ∀ v, key (f v) = key v) :
    (m.update k f hf).get? k' = if k = k' then (m.get? k').map f else m.get? k' :=
  find?_updateBy k k' hf m.values

end OrderedMap
end HapRust.Lib
