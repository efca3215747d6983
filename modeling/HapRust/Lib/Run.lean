import Mathlib.Data.List.Induction

/-! Runs of a machine over a list of inputs: the most recent input of a run at
which a given thing happened, what every step keeps, and what runs of two machines
show alike. -/

namespace HapRust.Lib
variable {σ ι : Type}

section Total
variable (step : σ → ι → σ)

def runs (s : σ) (inputs : List ι) : σ := inputs.foldl step s

@[simp] theorem runs_nil (s : σ) : runs step s [] = s := rfl

@[simp] theorem runs_snoc (s : σ) (inputs : List ι) (i : ι) :
    runs step s (inputs ++ [i]) = step (runs step s inputs) i := by
  simp only [runs, List.foldl_append, List.foldl_cons, List.foldl_nil]

theorem runs_unchanged {β : Type} {f : σ → β} {fires : σ → ι → Prop}
    (keep : ∀ s i, ¬ fires s i → f (step s i) = f s) (s : σ) (inputs : List ι)
    (none : ∀ p i q, inputs = p ++ i :: q → ¬ fires (runs step s p) i) :
    f (runs step s inputs) = f s := by
  induction inputs using List.reverseRecOn with
  | nil => rfl
  | append_singleton inputs i ih =>
    rw [runs_snoc, keep _ i (none inputs i [] rfl)]
    exact ih fun p j q hp => none p j (q ++ [i]) (by rw [hp, List.append_assoc, List.cons_append])

theorem runs_simulate {τ : Type} {step' : τ → ι → τ} {f : σ → τ} {I : σ → Prop}
    (keep : ∀ {s}, I s → ∀ i, I (step s i))
    (simulate : ∀ {s}, I s → ∀ i, f (step s i) = step' (f s) i) {s : σ} (init : I s)
    (inputs : List ι) :
    f (runs step s inputs) = runs step' (f s) inputs ∧ I (runs step s inputs) := by
  induction inputs using List.reverseRecOn with
  | nil => exact ⟨rfl, init⟩
  | append_singleton inputs i ih =>
    rw [runs_snoc, runs_snoc, simulate ih.2, ih.1]
    exact ⟨rfl, keep ih.2 i⟩

/-- The run over `inputs` is cut at the last input `i` that fired. -/
structure MostRecent (fires : σ → ι → Prop) (s : σ) (inputs pre : List ι) (i : ι)
    (post : List ι) : Prop where
  split : inputs = pre ++ i :: post
  fired : fires (runs step s pre) i
  later : ∀ p j q, post = p ++ j :: q → ¬ fires (runs step s (pre ++ i :: p)) j

variable {step} {fires : σ → ι → Prop} {s : σ} {inputs pre post : List ι} {i j : ι}

theorem MostRecent.now (h : fires (runs step s inputs) j) :
    MostRecent step fires s (inputs ++ [j]) inputs j [] where
  split := rfl
  fired := h
  later p j q hp := by simp at hp

theorem MostRecent.snoc (hm : MostRecent step fires s inputs pre i post)
    (h : ¬ fires (runs step s inputs) j) :
    MostRecent step fires s (inputs ++ [j]) pre i (post ++ [j]) where
  split := by rw [hm.split, List.append_assoc, List.cons_append]
  fired := hm.fired
  later p k q hp := by
    rcases List.eq_nil_or_concat q with rfl | ⟨q, k', rfl⟩
    · obtain ⟨rfl, rfl⟩ := List.append_singleton_inj.mp hp
      rwa [← hm.split]
    · rw [List.concat_eq_append, ← List.cons_append, ← List.append_assoc] at hp
      exact hm.later p k q (List.append_singleton_inj.mp hp).1

end Total

/-! ## Machines that answer -/

section Answering
variable {ρ : Type} (step : σ → ι → ρ × σ)

def outputs : σ → List ι → List ρ
  | _, [] => []
  | s, i :: inputs => (step s i).1 :: outputs (step s i).2 inputs

theorem outputs_of_stuck {Q : ρ → Prop} {s : σ} (stay : ∀ i, Q (step s i).1 ∧ (step s i).2 = s)
    (inputs : List ι) : ∀ r ∈ outputs step s inputs, Q r := by
  induction inputs with
  | nil =>
    intro r hr
    cases hr
  | cons i inputs ih =>
    intro r hr
    rw [outputs, (stay i).2] at hr
    rcases List.mem_cons.mp hr with rfl | hr
    · exact (stay i).1
    · exact ih r hr

end Answering

/-! ## Machines in which not every action is enabled -/

section Enabled
variable (step : σ → ι → Option σ)

/-- The state after a sequence of actions, if each was enabled when taken. -/
def steps (s : σ) (actions : List ι) : Option σ := actions.foldlM step s

def restrict (cond : σ → ι → Prop) [∀ s i, Decidable (cond s i)] (s : σ) (i : ι) : Option σ :=
  if cond s i then step s i else none

variable {step}

theorem guarded_eq_some {p : Prop} [Decidable p] {s t : σ} :
    (if p then some s else none) = some t ↔ p ∧ s = t := by
  rw [Option.ite_none_right_eq_some, Option.some.injEq]

theorem exists_of_view {β : Type} {run : Option σ} {p : σ → Prop} (view : σ → β) (b : β)
    (h : run.map view = some b) (hp : ∀ s, run = some s → view s = b → p s) :
    ∃ s, run = some s ∧ p s := by
  obtain ⟨s, hs, hview⟩ := Option.map_eq_some_iff.mp h
  exact ⟨s, hs, hp s hs hview⟩

theorem restrict_eq_some {cond : σ → ι → Prop} [∀ s i, Decidable (cond s i)] {s s' : σ} {i : ι} :
    restrict step cond s i = some s' ↔ cond s i ∧ step s i = some s' :=
  Option.ite_none_right_eq_some

theorem steps_invariant_of {I : σ → Prop} {p : ι → Prop}
    (keep : ∀ {s i s'}, I s → p i → step s i = some s' → I s') {actions : List ι}
    (hp : ∀ i ∈ actions, p i) {s s' : σ} (init : I s) (h : steps step s actions = some s') : I s' := by
  induction actions generalizing s with
  | nil =>
    obtain rfl := Option.some.inj h
    exact init
  | cons i actions ih =>
    obtain ⟨t, ht, hrest⟩ := Option.bind_eq_some_iff.mp h
    exact ih (fun j hj => hp j (List.mem_cons_of_mem _ hj))
      (keep init (hp i (List.mem_cons_self ..)) ht) hrest

theorem steps_invariant {I : σ → Prop} (keep : ∀ {s i s'}, I s → step s i = some s' → I s')
    (actions : List ι) {s s' : σ} (init : I s) (h : steps step s actions = some s') : I s' :=
  steps_invariant_of (fun hs _ => keep hs) (fun _ _ => trivial) init h

theorem steps_cons {s t : σ} {i : ι} (h : step s i = some t) (actions : List ι) :
    steps step s (i :: actions) = steps step t actions := by
  rw [steps, List.foldlM_cons, h]
  rfl

theorem steps_total {I : σ → Prop} (keep : ∀ {s}, I s → ∀ i, ∃ s', step s i = some s' ∧ I s')
    (actions : List ι) {s : σ} (init : I s) : ∃ s', steps step s actions = some s' ∧ I s' := by
  induction actions generalizing s with
  | nil => exact ⟨s, rfl, init⟩
  | cons i actions ih =>
    obtain ⟨t, ht, hinv⟩ := keep init i
    obtain ⟨s', hrest, hinv'⟩ := ih hinv
    refine ⟨s', ?_, hinv'⟩
    rw [steps_cons ht]
    exact hrest

theorem steps_append (s : σ) (before after : List ι) :
    steps step s (before ++ after) = (steps step s before).bind (steps step · after) :=
  List.foldlM_append

theorem steps_isPrefix {β : Type} {f : σ → List β} (grow : ∀ {s i s'}, step s i = some s' → f s <+: f s')
    {before actions : List ι} (h : before <+: actions) {s t u : σ}
    (ht : steps step s before = some t) (hu : steps step s actions = some u) : f t <+: f u := by
  obtain ⟨after, rfl⟩ := h
  rw [steps_append, ht, Option.bind_some] at hu
  refine steps_invariant (I := fun v => f t <+: f v) ?_ after (List.prefix_refl _) hu
  intro v i v' hv hstep
  exact hv.trans (grow hstep)

theorem steps_of_restrict {cond : σ → ι → Prop} [∀ s i, Decidable (cond s i)] {s t : σ}
    {actions : List ι} (h : steps (restrict step cond) s actions = some t) :
    steps step s actions = some t := by
  induction actions generalizing s with
  | nil => exact h
  | cons i actions ih =>
    obtain ⟨u, hu, hrest⟩ := Option.bind_eq_some_iff.mp h
    rw [steps_cons (restrict_eq_some.mp hu).2]
    exact ih hrest

theorem steps_restrict {cond : σ → ι → Prop} [∀ s i, Decidable (cond s i)] {I : σ → Prop}
    {p : ι → Prop} (keep : ∀ {s i s'}, I s → p i → step s i = some s' → I s')
    (meet : ∀ {s i}, I s → p i → cond s i) {actions : List ι} (hp : ∀ i ∈ actions, p i) {s t : σ}
    (init : I s) (h : steps step s actions = some t) :
    steps (restrict step cond) s actions = some t := by
  induction actions generalizing s with
  | nil => exact h
  | cons i actions ih =>
    obtain ⟨u, hu, hrest⟩ := Option.bind_eq_some_iff.mp h
    have hi : p i := hp i (List.mem_cons_self ..)
    rw [steps_cons (restrict_eq_some.mpr ⟨meet init hi, hu⟩)]
    exact ih (fun j hj => hp j (List.mem_cons_of_mem _ hj)) (keep init hi hu) hrest

inductive Ends (step : σ → ι → Option σ) (stop : σ → Prop) : σ → Prop
  | stop {s : σ} (h : stop s) : Ends step stop s
  | step {s : σ} (enabled : ∃ i s', step s i = some s')
      (next : ∀ {i s'}, step s i = some s' → Ends step stop s') : Ends step stop s

theorem Ends.of_measure {stop A : σ → Prop} (μ : σ → Nat)
    (enabled : ∀ {s}, A s → ∃ i s', step s i = some s')
    (next : ∀ {s i s'}, A s → step s i = some s' → A s' ∧ μ s' < μ s ∨ Ends step stop s') {s : σ}
    (h : A s) : Ends step stop s := by
  induction hn : μ s using Nat.strongRecOn generalizing s with
  | _ n ih =>
    subst hn
    refine .step (enabled h) ?_
    intro i s' hstep
    rcases next h hstep with ⟨hA, hlt⟩ | hends
    · exact ih _ hlt hA rfl
    · exact hends

theorem Ends.mono {stop stop' : σ → Prop} (himp : ∀ {s}, stop s → stop' s) {s : σ}
    (h : Ends step stop s) : Ends step stop' s := by
  induction h with
  | stop h => exact .stop (himp h)
  | step enabled _ ih => exact .step enabled ih

end Enabled

/-! ## Machines that remember -/

section Watched
variable {step : σ → ι → Option σ} {mark : σ → ι → Bool}

def watched (step : σ → ι → Option σ) (mark : σ → ι → Bool) (s : σ × Bool) (i : ι) :
    Option (σ × Bool) :=
  (step s.1 i).map fun s' => (s', s.2 || mark s.1 i)

theorem watched_eq_some {s s' : σ × Bool} {i : ι} :
    watched step mark s i = some s' ↔ step s.1 i = some s'.1 ∧ s'.2 = (s.2 || mark s.1 i) := by
  unfold watched
  rw [Option.map_eq_some_iff]
  constructor
  · rintro ⟨t, ht, rfl⟩
    exact ⟨ht, rfl⟩
  · rintro ⟨ht, hm⟩
    exact ⟨s'.1, ht, Prod.ext rfl hm.symm⟩

theorem steps_of_watched {s t : σ × Bool} {actions : List ι}
    (h : steps (watched step mark) s actions = some t) : steps step s.1 actions = some t.1 := by
  induction actions generalizing s with
  | nil => exact congrArg (Option.map Prod.fst) h
  | cons i actions ih =>
    obtain ⟨u, hu, hrest⟩ := Option.bind_eq_some_iff.mp h
    rw [steps_cons (watched_eq_some.mp hu).1]
    exact ih hrest

end Watched

/-! ## Machines that show the same -/

section Refinement
variable {τ κ ε : Type}

/-- What a run shows of its actions. -/
def trace (view : ι → Option ε) (actions : List ι) : List ε := actions.filterMap view

theorem steps_trace {step : σ → ι → Option σ} {view : ι → Option ε} {f : σ → List ε}
    (extend : ∀ {s i s'}, step s i = some s' → f s' = f s ++ (view i).toList) (actions : List ι)
    {s s' : σ} (h : steps step s actions = some s') : f s' = f s ++ trace view actions := by
  induction actions generalizing s with
  | nil =>
    obtain rfl := Option.some.inj h
    exact (List.append_nil _).symm
  | cons i actions ih =>
    obtain ⟨u, hu, hrest⟩ := Option.bind_eq_some_iff.mp h
    rw [ih hrest, extend hu, List.append_assoc, trace, trace, List.filterMap_cons]
    cases view i <;> rfl

theorem steps_refine {step : σ → ι → Option σ} {step' : τ → κ → Option τ} {view : ι → Option ε}
    {view' : κ → Option ε} {R : σ → τ → Prop}
    (simulate : ∀ {s t i s'}, R s t → step s i = some s' →
      ∃ actions' t', steps step' t actions' = some t' ∧ trace view' actions' = (view i).toList ∧
        R s' t')
    (actions : List ι) {s s' : σ} {t : τ} (related : R s t) (h : steps step s actions = some s') :
    ∃ actions' t', steps step' t actions' = some t' ∧
      trace view' actions' = trace view actions ∧ R s' t' := by
  induction actions generalizing s t with
  | nil =>
    obtain rfl := Option.some.inj h
    exact ⟨[], t, rfl, rfl, related⟩
  | cons i actions ih =>
    obtain ⟨u, hu, hrest⟩ := Option.bind_eq_some_iff.mp h
    obtain ⟨first, t₁, hfirst, hshown, hrelated⟩ := simulate related hu
    obtain ⟨later, t₂, hlater, hshown', hrelated'⟩ := ih hrelated hrest
    refine ⟨first ++ later, t₂, ?_, ?_, hrelated'⟩
    · rw [steps_append, hfirst, Option.bind_some, hlater]
    · rw [trace, List.filterMap_append, ← trace, ← trace, hshown, hshown', trace, trace]
      cases hview : view i with
      | none => rw [List.filterMap_cons_none hview, Option.toList_none, List.nil_append]
      | some e =>
        rw [List.filterMap_cons_some hview, Option.toList_some, List.singleton_append]

end Refinement
end HapRust.Lib
