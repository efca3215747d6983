import HapRust.Lib.Result

/-! Lists that separators divide into groups. A loop that gathers the items of a group and
gives what it has gathered at each separator and at the end treats every group by itself. -/

namespace HapRust.Lib

section
variable {α β : Type} {p : α → Bool}

theorem flatten_splitOnP (l : List α) : (l.splitOnP p).flatten = l.filter fun a => !p a := by
  induction l with
  | nil => rfl
  | cons a l ih =>
    obtain ⟨g, gs, hsplit⟩ := List.exists_cons_of_ne_nil (List.splitOnP_ne_nil p l)
    rw [List.splitOnP_cons_eq_if_modifyHead]
    by_cases ha : p a = true
    · rw [if_pos ha, List.flatten_cons, ih, List.filter_cons_of_neg (by simpa using ha)]
      rfl
    · rw [if_neg ha, List.filter_cons_of_pos (by simpa using ha), ← ih, hsplit]
      rfl

theorem splitOnP_map {q : β → Bool} {f : β → α} (h : ∀ b, p (f b) = q b) (l : List β) :
    (l.map f).splitOnP p = (l.splitOnP q).map (List.map f) := by
  induction l with
  | nil => rfl
  | cons b l ih =>
    rw [List.map_cons, List.splitOnP_cons_eq_if_modifyHead, List.splitOnP_cons_eq_if_modifyHead, ih, h]
    by_cases hb : q b = true
    · rw [if_pos hb, if_pos hb]
      rfl
    · rw [if_neg hb, if_neg hb]
      cases List.splitOnP q l <;> rfl

theorem mem_intercalate {a : α} {sep : List α} {groups : List (List α)}
    (h : a ∈ sep.intercalate groups) : a ∈ sep ∨ ∃ g ∈ groups, a ∈ g := by
  induction groups with
  | nil => cases h
  | cons g groups ih =>
    cases groups with
    | nil =>
      rw [List.intercalate_singleton] at h
      exact .inr ⟨g, List.mem_cons_self, h⟩
    | cons g' rest =>
      rw [List.intercalate_cons_cons, List.mem_append, List.mem_append] at h
      rcases h with (h | h) | h
      · exact .inr ⟨g, List.mem_cons_self, h⟩
      · exact .inl h
      · rcases ih h with hsep | ⟨g₁, hg₁, ha⟩
        · exact .inl hsep
        · exact .inr ⟨g₁, List.mem_cons_of_mem _ hg₁, ha⟩

theorem length_flatMap_le {f h : α → List β} {l : List α} (hsub : ∀ a ∈ l, (f a).Sublist (h a)) :
    (l.flatMap f).length ≤ (l.flatMap h).length := by
  induction l with
  | nil => exact Nat.le_refl _
  | cons a l ih =>
    rw [List.flatMap_cons, List.flatMap_cons, List.length_append, List.length_append]
    exact Nat.add_le_add (hsub a List.mem_cons_self).length_le
      (ih fun b hb => hsub b (List.mem_cons_of_mem _ hb))

theorem eq_of_flatMap_eq {f h : α → List β} {l : List α} (hsub : ∀ a ∈ l, (f a).Sublist (h a))
    (heq : l.flatMap f = l.flatMap h) : ∀ a ∈ l, f a = h a := by
  induction l with
  | nil => simp
  | cons a l ih =>
    have hrest : ∀ b ∈ l, (f b).Sublist (h b) := fun b hb => hsub b (List.mem_cons_of_mem _ hb)
    rw [List.flatMap_cons, List.flatMap_cons] at heq
    have htotal := congrArg List.length heq
    rw [List.length_append, List.length_append] at htotal
    have hhead := (hsub a List.mem_cons_self).length_le
    have htail := length_flatMap_le hrest
    have ha : f a = h a := (hsub a List.mem_cons_self).eq_of_length (by omega)
    rw [ha] at heq
    exact List.forall_mem_cons.mpr ⟨ha, ih hrest (List.append_cancel_left heq)⟩

theorem foldlM_simulates {σ τ ε : Type} {stepσ : σ → α → Except ε σ} {stepτ : τ → β → Except ε τ}
    {f : σ → τ} {g : α → β} (h : ∀ s a, stepτ (f s) (g a) = (stepσ s a).map f) (l : List α) (s : σ) :
    (l.map g).foldlM stepτ (f s) = (l.foldlM stepσ s).map f := by
  induction l generalizing s with
  | nil => rfl
  | cons a l ih =>
    rw [List.map_cons, List.foldlM_cons, List.foldlM_cons, h]
    cases stepσ s a with
    | error e => rfl
    | ok s' => exact ih s'

end

namespace Gather

section
variable {α β σ ε : Type} (sep : α → Bool) (gather : σ → α → Except ε σ)
  (flush : σ → Except ε (List β)) (start : σ)

def step (acc : List β × σ) (a : α) : Except ε (List β × σ) :=
  if sep a then do
    let bs ← flush acc.2
    .ok (acc.1 ++ bs, start)
  else do
    let s ← gather acc.2 a
    .ok (acc.1, s)

def finish (acc : List β × σ) : Except ε (List β) := do
  let bs ← flush acc.2
  .ok (acc.1 ++ bs)

def run (l : List α) : Except ε (List β) := do
  let acc ← l.foldlM (step sep gather flush start) ([], start)
  finish flush acc

def group (s : σ) (g : List α) : Except ε (List β) := do
  let s' ← g.foldlM gather s
  flush s'

def given (g : List α) : List β := (group gather flush start g).toOption.getD []

end

section
variable {α β σ ε : Type} {sep : α → Bool} {gather : σ → α → Except ε σ}
  {flush : σ → Except ε (List β)} {start : σ}

theorem given_eq {g : List α} {bs : List β} (h : group gather flush start g = .ok bs) :
    given gather flush start g = bs := by
  rw [given, h]
  rfl

theorem groups_of_foldlM {l : List α} {out r : List β} {s : σ}
    (h : (l.foldlM (step sep gather flush start) (out, s) >>= finish flush) = .ok r) :
    ∃ g gs bs, l.splitOnP sep = g :: gs ∧ group gather flush s g = .ok bs ∧
      (∀ g' ∈ gs, group gather flush start g' = .ok (given gather flush start g')) ∧
        r = out ++ (bs ++ gs.flatMap (given gather flush start)) := by
  induction l generalizing out s with
  | nil =>
    rw [List.foldlM_nil, pure_eq_ok, ok_bind, finish, bind_eq_ok] at h
    obtain ⟨bs, hbs, hr⟩ := h
    refine ⟨[], [], bs, rfl, hbs, by simp, ?_⟩
    rw [← Except.ok.inj hr, List.flatMap_nil, List.append_nil]
  | cons a l ih =>
    rw [List.foldlM_cons, step] at h
    rw [List.splitOnP_cons_eq_if_modifyHead]
    by_cases ha : sep a = true
    · rw [if_pos ha, bind_assoc, bind_assoc, bind_eq_ok] at h
      obtain ⟨bs, hbs, hrest⟩ := h
      obtain ⟨g, gs, bs', hsplit, hg, hgs, hr⟩ := ih hrest
      rw [if_pos ha, hsplit]
      refine ⟨[], g :: gs, bs, rfl, hbs, List.forall_mem_cons.mpr ⟨?_, hgs⟩, ?_⟩
      · rw [given_eq hg, hg]
      · rw [hr, List.flatMap_cons, given_eq hg, List.append_assoc]
    · rw [if_neg ha, bind_assoc, bind_assoc, bind_eq_ok] at h
      obtain ⟨s', hs', hrest⟩ := h
      obtain ⟨g, gs, bs, hsplit, hg, hgs, hr⟩ := ih hrest
      rw [if_neg ha, hsplit]
      refine ⟨a :: g, gs, bs, rfl, ?_, hgs, hr⟩
      rw [group, List.foldlM_cons, hs', ok_bind]
      exact hg

theorem groups_of_run {l : List α} {r : List β} (h : run sep gather flush start l = .ok r) :
    (∀ g ∈ l.splitOnP sep, group gather flush start g = .ok (given gather flush start g)) ∧
      r = (l.splitOnP sep).flatMap (given gather flush start) := by
  obtain ⟨g, gs, bs, hsplit, hg, hgs, hr⟩ := groups_of_foldlM h
  rw [hsplit]
  refine ⟨List.forall_mem_cons.mpr ⟨?_, hgs⟩, ?_⟩
  · rw [given_eq hg, hg]
  · rw [hr, List.flatMap_cons, given_eq hg]
    rfl

end
end Gather
end HapRust.Lib
