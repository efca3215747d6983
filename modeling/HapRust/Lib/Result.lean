import Mathlib.Data.List.Forall2

/-! Fallible computations. A source function that returns a result with an
error type is an `Except`; these are the inversion rules by which proofs take
a successful chain of binds apart without unfolding it. -/

namespace HapRust.Lib
variable {ε δ α β : Type}

def okOr (o : Option α) (e : ε) : Except ε α :=
  match o with
  | some a => .ok a
  | none => .error e

def mapErr (f : ε → δ) : Except ε α → Except δ α
  | .ok a => .ok a
  | .error e => .error (f e)

def ensure (p : Prop) [Decidable p] (e : ε) : Except ε Unit := if p then .ok () else .error e

/-- The call has returned an error. -/
def Fails (x : Except ε α) : Prop := ∃ e, x = .error e

instance (x : Except ε α) : Decidable (Fails x) :=
  match x with
  | .ok _ => .isFalse fun ⟨_, h⟩ => Except.noConfusion rfl rfl (heq_of_eq h)
  | .error e => .isTrue ⟨e, rfl⟩

def commit {σ : Type} (s : σ) : Except ε (α × σ) → Except ε α × σ
  | .ok (a, s') => (.ok a, s')
  | .error e => (.error e, s)

@[simp] theorem ok_bind (a : α) (f : α → Except ε β) : (Except.ok a >>= f) = f a := rfl

@[simp] theorem pure_eq_ok (a : α) : (pure a : Except ε α) = .ok a := rfl

@[simp] theorem error_bind (e : ε) (f : α → Except ε β) :
    ((Except.error e : Except ε α) >>= f) = .error e := rfl

theorem bind_eq_ok {x : Except ε α} {f : α → Except ε β} {b : β} :
    x >>= f = .ok b ↔ ∃ a, x = .ok a ∧ f a = .ok b := by
  rcases x with e | a
  · simp only [error_bind, reduceCtorEq, false_and, exists_false]
  · simp only [ok_bind, Except.ok.injEq, exists_eq_left']

theorem bind_eq_error {x : Except ε α} {f : α → Except ε β} {e : ε} :
    x >>= f = .error e ↔ x = .error e ∨ ∃ a, x = .ok a ∧ f a = .error e := by
  rcases x with e' | a
  · simp only [error_bind, Except.error.injEq, reduceCtorEq, false_and, exists_false, or_false]
  · simp only [ok_bind, reduceCtorEq, Except.ok.injEq, exists_eq_left', false_or]

theorem mapM_eq_ok {f : α → Except ε β} {l : List α} {l' : List β} :
    l.mapM f = .ok l' ↔ List.Forall₂ (fun a b => f a = .ok b) l l' := by
  induction l generalizing l' with
  | nil =>
    rw [List.mapM_nil, pure_eq_ok, Except.ok.injEq, List.forall₂_nil_left_iff]
    exact eq_comm
  | cons a l ih =>
    rw [List.mapM_cons, bind_eq_ok, List.forall₂_cons_left_iff]
    refine exists_congr fun b => ?_
    rw [bind_eq_ok]
    constructor
    · rintro ⟨ha, l₁, hl, h⟩
      exact ⟨l₁, ha, ih.mp hl, (Except.ok.inj h).symm⟩
    · rintro ⟨l₁, ha, hl, rfl⟩
      exact ⟨ha, l₁, ih.mpr hl, rfl⟩

theorem mapM_eq_some {f : α → Option β} {l : List α} {l' : List β} :
    l.mapM f = some l' ↔ List.Forall₂ (fun a b => f a = some b) l l' := by
  induction l generalizing l' with
  | nil =>
    rw [List.mapM_nil, Option.pure_def, Option.some.injEq, List.forall₂_nil_left_iff]
    exact eq_comm
  | cons a l ih =>
    rw [List.mapM_cons, Option.bind_eq_bind, Option.bind_eq_some_iff, List.forall₂_cons_left_iff]
    refine exists_congr fun b => ?_
    rw [Option.bind_eq_bind, Option.bind_eq_some_iff]
    constructor
    · rintro ⟨ha, l₁, hl, h⟩
      exact ⟨l₁, ha, ih.mp hl, (Option.some.inj h).symm⟩
    · rintro ⟨l₁, ha, hl, rfl⟩
      exact ⟨ha, l₁, ih.mpr hl, rfl⟩

theorem mapM_map_eq_ok {γ : Type} {f : β → Except ε γ} {g : α → β} {h : α → γ} {l : List α}
    (hf : ∀ a ∈ l, f (g a) = .ok (h a)) : (l.map g).mapM f = .ok (l.map h) := by
  rw [mapM_eq_ok, List.forall₂_map_left_iff, List.forall₂_map_right_iff, List.forall₂_same]
  exact hf

theorem map_eq_of_forall₂ {R : α → α → Prop} {f : α → β} {l l' : List α}
    (h : List.Forall₂ R l l') (hf : ∀ a a', R a a' → f a' = f a) : l'.map f = l.map f := by
  induction h with
  | nil => rfl
  | cons ha _ ih => rw [List.map_cons, List.map_cons, hf _ _ ha, ih]

@[simp] theorem okOr_some (a : α) (e : ε) : okOr (some a) e = .ok a := rfl

theorem okOr_eq_ok {o : Option α} {e : ε} {a : α} : okOr o e = .ok a ↔ o = some a := by
  cases o <;> simp [okOr]

theorem okOr_eq_error {o : Option α} {e e' : ε} :
    okOr o e = .error e' ↔ o = none ∧ e = e' := by
  cases o <;> simp [okOr]

@[simp] theorem mapErr_ok (f : ε → δ) (a : α) : mapErr f (.ok a) = .ok a := rfl

theorem mapErr_eq_ok {f : ε → δ} {x : Except ε α} {a : α} : mapErr f x = .ok a ↔ x = .ok a := by
  cases x <;> simp [mapErr]

theorem ensure_eq_ok {p : Prop} [Decidable p] {e : ε} {u : Unit} : ensure p e = .ok u ↔ p := by
  unfold ensure
  split_ifs with h <;> simp [h]

theorem ensure_of {p : Prop} [Decidable p] {e : ε} (h : p) : ensure p e = .ok () :=
  ensure_eq_ok.mpr h

theorem commit_cases {σ : Type} (s : σ) (x : Except ε (α × σ)) :
    (∃ e, commit s x = (.error e, s)) ∨ ∃ a s', x = .ok (a, s') ∧ commit s x = (.ok a, s') := by
  rcases x with e | ⟨a, s'⟩
  · exact .inl ⟨e, rfl⟩
  · exact .inr ⟨a, s', rfl, rfl⟩

end HapRust.Lib
