import Mathlib.Data.List.Basic

/-! Messages in flight on a network that may reorder them, of which at most one is
looked at when it arrives. -/

namespace HapRust.Lib
variable {α : Type} {stale : α → Prop} {flight : List α} {x : Option α} {y : α} {i : Nat}

def Carries (stale : α → Prop) (flight : List α) (x : Option α) : Prop :=
  ∃ before after, flight = before ++ (x.toList ++ after) ∧ (∀ p ∈ before, stale p) ∧
    ∀ p ∈ after, stale p

theorem Carries.nil : Carries stale [] none := ⟨[], [], rfl, nofun, nofun⟩

theorem Carries.append_stale (h : Carries stale flight x) {late : List α}
    (hlate : ∀ p ∈ late, stale p) : Carries stale (flight ++ late) x := by
  obtain ⟨before, after, rfl, hbefore, hafter⟩ := h
  refine ⟨before, after ++ late, by simp only [List.append_assoc], hbefore, ?_⟩
  intro p hp
  rcases List.mem_append.mp hp with hp | hp
  · exact hafter p hp
  · exact hlate p hp

theorem Carries.append (h : Carries stale flight none) : Carries stale (flight ++ [y]) (some y) := by
  obtain ⟨before, after, rfl, hbefore, hafter⟩ := h
  refine ⟨before ++ after, [], ?_, ?_, nofun⟩
  · simp only [Option.toList_none, Option.toList_some, List.nil_append, List.append_nil]
  · intro p hp
    rcases List.mem_append.mp hp with hp | hp
    · exact hbefore p hp
    · exact hafter p hp

theorem Carries.mem (h : Carries stale flight (some y)) : y ∈ flight := by
  obtain ⟨before, after, rfl, -⟩ := h
  simp

theorem Carries.arrive (h : Carries stale flight x) (hi : flight[i]? = some y) :
    (x = some y ∧ Carries stale (flight.eraseIdx i) none) ∨
      (stale y ∧ Carries stale (flight.eraseIdx i) x) := by
  obtain ⟨before, after, rfl, hbefore, hafter⟩ := h
  by_cases hlt : i < before.length
  · right
    rw [List.getElem?_append_left hlt] at hi
    refine ⟨hbefore y (List.mem_of_getElem? hi), before.eraseIdx i, after, ?_, ?_, hafter⟩
    · rw [List.eraseIdx_append_of_lt_length hlt]
    · intro p hp
      exact hbefore p (List.mem_of_mem_eraseIdx hp)
  · rw [Nat.not_lt] at hlt
    rw [List.getElem?_append_right hlt] at hi
    rw [List.eraseIdx_append_of_length_le hlt]
    generalize i - before.length = j at hi
    cases x with
    | none =>
      right
      refine ⟨hafter y (List.mem_of_getElem? hi), before, after.eraseIdx j, rfl, hbefore, ?_⟩
      intro p hp
      exact hafter p (List.mem_of_mem_eraseIdx hp)
    | some z =>
      cases j with
      | zero =>
        obtain rfl := Option.some.inj hi
        exact .inl ⟨rfl, before, after, rfl, hbefore, hafter⟩
      | succ j =>
        right
        change after[j]? = some y at hi
        refine ⟨hafter y (List.mem_of_getElem? hi), before, after.eraseIdx j, rfl, hbefore, ?_⟩
        intro p hp
        exact hafter p (List.mem_of_mem_eraseIdx hp)

theorem length_eraseIdx_lt (hi : flight[i]? = some y) : (flight.eraseIdx i).length < flight.length := by
  obtain ⟨hlt, -⟩ := List.getElem?_eq_some_iff.mp hi
  rw [List.length_eraseIdx_of_lt hlt]
  omega

end HapRust.Lib
