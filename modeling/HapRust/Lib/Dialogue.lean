import HapRust.Lib.Result

/-! Programs that ask their environment. A dialogue returns, or asks a question
and goes on with the answer. A behaviour of the environment is the list of the
answers it gives; what holds of every result under every behaviour is proved
along the program. -/

namespace HapRust.Lib

inductive Dialogue (ω ρ α : Type) where
  | ret (a : α)
  | ask (question : ω) (next : ρ → Dialogue ω ρ α)

namespace Dialogue
variable {ω ρ α β : Type}

def bind : Dialogue ω ρ α → (α → Dialogue ω ρ β) → Dialogue ω ρ β
  | ret a, f => f a
  | ask q next, f => ask q fun x => (next x).bind f

def after : Dialogue ω ρ α → List ρ → Option (Dialogue ω ρ α)
  | d, [] => some d
  | ret _, _ :: _ => none
  | ask _ next, x :: answers => (next x).after answers

/-- The result, if the answers are all the dialogue asks for. -/
def outcome (d : Dialogue ω ρ α) (answers : List ρ) : Option α :=
  match d.after answers with
  | some (ret a) => some a
  | _ => none

/-- The questions asked along these answers, each with its answer. -/
def transcript : Dialogue ω ρ α → List ρ → List (ω × ρ)
  | ask q next, x :: answers => (q, x) :: (next x).transcript answers
  | _, _ => []

def Always (Q : α → Prop) : Dialogue ω ρ α → Prop
  | ret a => Q a
  | ask _ next => ∀ x, (next x).Always Q

@[simp] theorem after_nil (d : Dialogue ω ρ α) : d.after [] = some d := by
  cases d <;> rfl

@[simp] theorem ret_bind (a : α) (f : α → Dialogue ω ρ β) : (ret a).bind f = f a := rfl

theorem ask_congr {q : ω} {f g : ρ → Dialogue ω ρ α} (h : ∀ x, f x = g x) : ask q f = ask q g :=
  congrArg (ask q) (funext h)

theorem bind_ret (d : Dialogue ω ρ α) : d.bind ret = d := by
  induction d with
  | ret a => rfl
  | ask q next ih => exact ask_congr ih

theorem bind_assoc {γ : Type} (d : Dialogue ω ρ α) (f : α → Dialogue ω ρ β)
    (g : β → Dialogue ω ρ γ) : (d.bind f).bind g = d.bind fun a => (f a).bind g := by
  induction d with
  | ret a => rfl
  | ask q next ih => exact ask_congr ih

theorem after_append (d : Dialogue ω ρ α) (xs ys : List ρ) :
    d.after (xs ++ ys) = (d.after xs).bind (·.after ys) := by
  induction xs generalizing d with
  | nil => rw [List.nil_append, after_nil, Option.bind_some]
  | cons x xs ih =>
    cases d with
    | ret a => rfl
    | ask q next => exact ih (next x)

theorem after_bind {d e : Dialogue ω ρ α} {xs : List ρ} (h : d.after xs = some e)
    (f : α → Dialogue ω ρ β) : (d.bind f).after xs = some (e.bind f) := by
  induction xs generalizing d with
  | nil =>
    rw [after_nil] at h ⊢
    rw [Option.some.inj h]
  | cons x xs ih =>
    cases d with
    | ret a => cases h
    | ask q next => exact ih h

theorem outcome_of_after {d e : Dialogue ω ρ α} {xs : List ρ} (h : d.after xs = some e)
    (ys : List ρ) : d.outcome (xs ++ ys) = e.outcome ys := by
  rw [outcome, after_append, h, Option.bind_some, outcome]

theorem after_of_outcome {d : Dialogue ω ρ α} {xs : List ρ} {a : α} (h : d.outcome xs = some a) :
    d.after xs = some (ret a) := by
  rw [Dialogue.outcome] at h
  split at h
  · next hd => rw [hd, Option.some.inj h]
  · cases h

theorem outcome_ret_nil {a b : α} {xs : List ρ}
    (h : (ret a : Dialogue ω ρ α).outcome xs = some b) : xs = [] ∧ a = b := by
  cases xs with
  | nil => exact ⟨rfl, Option.some.inj h⟩
  | cons x xs => cases h

theorem outcome_ret {a b : α} {xs : List ρ} (h : (ret a : Dialogue ω ρ α).outcome xs = some b) :
    a = b := (outcome_ret_nil h).2

theorem outcome_bind {d : Dialogue ω ρ α} {f : α → Dialogue ω ρ β} {xs : List ρ} {b : β} :
    (d.bind f).outcome xs = some b ↔
      ∃ ys zs a, xs = ys ++ zs ∧ d.outcome ys = some a ∧ (f a).outcome zs = some b := by
  constructor
  · intro h
    induction d generalizing xs with
    | ret a => exact ⟨[], xs, a, rfl, rfl, h⟩
    | ask q next ih =>
      cases xs with
      | nil => cases h
      | cons x xs =>
        obtain ⟨ys, zs, a, rfl, hys, hzs⟩ := ih x h
        exact ⟨x :: ys, zs, a, rfl, hys, hzs⟩
  · rintro ⟨ys, zs, a, rfl, hys, hzs⟩
    rw [outcome_of_after (after_bind (after_of_outcome hys) f)]
    exact hzs

theorem after_bind_cases {d : Dialogue ω ρ α} {f : α → Dialogue ω ρ β} {e : Dialogue ω ρ β}
    {xs : List ρ} (h : (d.bind f).after xs = some e) :
    (∃ q next, d.after xs = some (ask q next) ∧ e = (ask q next).bind f) ∨
      ∃ ys zs a, xs = ys ++ zs ∧ d.outcome ys = some a ∧ (f a).after zs = some e := by
  induction d generalizing xs with
  | ret a => exact .inr ⟨[], xs, a, rfl, rfl, h⟩
  | ask q next ih =>
    cases xs with
    | nil => exact .inl ⟨q, next, rfl, (Option.some.inj h).symm⟩
    | cons x xs =>
      rcases ih x h with ⟨q', next', hd, he⟩ | ⟨ys, zs, a, rfl, hys, hzs⟩
      · exact .inl ⟨q', next', hd, he⟩
      · exact .inr ⟨x :: ys, zs, a, rfl, hys, hzs⟩

theorem outcome_unique {d : Dialogue ω ρ α} {xs ys xs' ys' : List ρ} {a b : α}
    (h : xs ++ ys = xs' ++ ys') (ha : d.outcome xs = some a) (hb : d.outcome xs' = some b) :
    a = b := by
  induction d generalizing xs xs' with
  | ret c => exact (outcome_ret ha).symm.trans (outcome_ret hb)
  | ask q next ih =>
    cases xs with
    | nil => cases ha
    | cons x xs =>
      cases xs' with
      | nil => cases hb
      | cons x' xs' =>
        obtain ⟨rfl, htail⟩ := List.cons.inj h
        exact ih x htail ha hb

theorem exists_outcome (d : Dialogue ω ρ α) (stream : Nat → ρ) :
    ∃ n a, d.outcome ((List.range n).map stream) = some a := by
  induction d generalizing stream with
  | ret a => exact ⟨0, a, rfl⟩
  | ask q next ih =>
    obtain ⟨n, a, h⟩ := ih (stream 0) fun i => stream (i + 1)
    refine ⟨n + 1, a, ?_⟩
    rw [List.range_succ_eq_map, List.map_cons, List.map_map]
    exact h

theorem length_transcript {d : Dialogue ω ρ α} {xs : List ρ} {a : α}
    (h : d.outcome xs = some a) : (d.transcript xs).length = xs.length := by
  induction d generalizing xs with
  | ret b =>
    obtain ⟨rfl, -⟩ := outcome_ret_nil h
    rfl
  | ask q next ih =>
    cases xs with
    | nil => rfl
    | cons x xs => exact congrArg Nat.succ (ih x h)

theorem Always.outcome {Q : α → Prop} {d : Dialogue ω ρ α} (h : d.Always Q) {xs : List ρ} {a : α}
    (ha : d.outcome xs = some a) : Q a := by
  induction d generalizing xs with
  | ret b =>
    obtain rfl := outcome_ret ha
    exact h
  | ask q next ih =>
    cases xs with
    | nil => cases ha
    | cons x xs => exact ih x (h x) ha

theorem Always.after {Q : α → Prop} {d e : Dialogue ω ρ α} (h : d.Always Q) {xs : List ρ}
    (he : d.after xs = some e) : e.Always Q := by
  induction xs generalizing d with
  | nil =>
    rw [after_nil] at he
    rwa [← Option.some.inj he]
  | cons x xs ih =>
    cases d with
    | ret a => cases he
    | ask q next => exact ih (h x) he

theorem Always.imp {Q R : α → Prop} {d : Dialogue ω ρ α} (h : d.Always Q)
    (hQR : ∀ a, Q a → R a) : d.Always R := by
  induction d with
  | ret a => exact hQR a h
  | ask q next ih => exact fun x => ih x (h x)

theorem Always.bind {Q : α → Prop} {R : β → Prop} {d : Dialogue ω ρ α} {f : α → Dialogue ω ρ β}
    (h : d.Always Q) (hf : ∀ a, Q a → (f a).Always R) : (d.bind f).Always R := by
  induction d with
  | ret a => exact hf a h
  | ask q next ih => exact fun x => ih x (h x)

section
variable {γ : Type} (watch : γ → ω → ρ → γ)

def observed : γ → Dialogue ω ρ α → Dialogue ω ρ (α × γ)
  | g, ret a => ret (a, g)
  | g, ask q next => ask q fun x => observed (watch g q x) (next x)

theorem outcome_observed (g : γ) (d : Dialogue ω ρ α) (xs : List ρ) :
    ((d.observed watch g).outcome xs).map Prod.fst = d.outcome xs := by
  induction d generalizing g xs with
  | ret a => cases xs <;> rfl
  | ask q next ih =>
    cases xs with
    | nil => rfl
    | cons x xs => exact ih x (watch g q x) xs

end

section
variable {ω' ρ' : Type} (f : ω → ω') (g : ρ' → ρ)

def translate : Dialogue ω ρ α → Dialogue ω' ρ' α
  | ret a => ret a
  | ask q next => ask (f q) fun x => (next (g x)).translate

theorem translate_bind (d : Dialogue ω ρ α) (k : α → Dialogue ω ρ β) :
    (d.bind k).translate f g = (d.translate f g).bind fun a => (k a).translate f g := by
  induction d with
  | ret a => rfl
  | ask q next ih => exact ask_congr fun x => ih (g x)

theorem outcome_translate (d : Dialogue ω ρ α) (xs : List ρ') :
    (d.translate f g).outcome xs = d.outcome (xs.map g) := by
  induction d generalizing xs with
  | ret a => cases xs <;> rfl
  | ask q next ih =>
    cases xs with
    | nil => rfl
    | cons x xs => exact ih (g x) xs

end
/-! ## Which questions are asked, and by what they are answered -/

/-- Every question that may come up is one of these. -/
inductive Asks (p : ω → Prop) : Dialogue ω ρ α → Prop
  | ret (a : α) : Asks p (ret a)
  | ask {q : ω} {next : ρ → Dialogue ω ρ α} (hq : p q) (h : ∀ x, Asks p (next x)) :
    Asks p (ask q next)

theorem Asks.bind {p : ω → Prop} {d : Dialogue ω ρ α} {f : α → Dialogue ω ρ β} (h : d.Asks p)
    (hf : ∀ a, (f a).Asks p) : (d.bind f).Asks p := by
  induction h with
  | ret a => exact hf a
  | ask hq _ ih => exact .ask hq ih

theorem Asks.bind_always {p : ω → Prop} {Q : α → Prop} {d : Dialogue ω ρ α}
    {f : α → Dialogue ω ρ β} (h : d.Asks p) (hQ : d.Always Q) (hf : ∀ a, Q a → (f a).Asks p) :
    (d.bind f).Asks p := by
  induction h with
  | ret a => exact hf a hQ
  | ask hq _ ih => exact .ask hq fun x => ih x (hQ x)

theorem Asks.imp {p p' : ω → Prop} {d : Dialogue ω ρ α} (h : d.Asks p) (himp : ∀ q, p q → p' q) :
    d.Asks p' := by
  induction h with
  | ret a => exact .ret a
  | ask hq _ ih => exact .ask (himp _ hq) ih

theorem Asks.after {p : ω → Prop} {d e : Dialogue ω ρ α} (h : d.Asks p) {xs : List ρ}
    (he : d.after xs = some e) : e.Asks p := by
  induction xs generalizing d with
  | nil =>
    rw [after_nil] at he
    rwa [← Option.some.inj he]
  | cons x xs ih =>
    cases h with
    | ret a => cases he
    | ask _ hnext => exact ih (hnext x) he

theorem Asks.transcript {p : ω → Prop} {d : Dialogue ω ρ α} (h : d.Asks p) {xs : List ρ}
    {e : ω × ρ} (he : e ∈ d.transcript xs) : p e.1 := by
  induction h generalizing xs with
  | ret a => cases xs <;> cases he
  | ask hq _ ih =>
    cases xs with
    | nil => cases he
    | cons x xs =>
      rcases List.mem_cons.mp he with rfl | he
      · exact hq
      · exact ih x he

theorem asks_translate {ω' ρ' : Type} {f : ω → ω'} {g : ρ' → ρ} {p : ω' → Prop}
    {d : Dialogue ω ρ α} (h : d.Asks fun q => p (f q)) : (d.translate f g).Asks p := by
  induction h with
  | ret a => exact .ret a
  | ask hq _ ih => exact .ask hq fun x => ih (g x)

theorem asks_of_forall {p : ω → Prop} (h : ∀ q, p q) (d : Dialogue ω ρ α) : d.Asks p := by
  induction d with
  | ret a => exact .ret a
  | ask q next ih => exact .ask (h q) ih

section
variable {σ : Type} (serves : ω → ρ → σ → σ → Prop)

inductive Ensures (Q : α → σ → Prop) : Dialogue ω ρ α → σ → Prop
  | ret {a : α} {s : σ} (h : Q a s) : Ensures Q (ret a) s
  | ask {q : ω} {next : ρ → Dialogue ω ρ α} {s : σ}
    (h : ∀ x t, serves q x s t → Ensures Q (next x) t) : Ensures Q (ask q next) s

variable {serves}

theorem Ensures.bind {Q : α → σ → Prop} {R : β → σ → Prop} {d : Dialogue ω ρ α}
    {f : α → Dialogue ω ρ β} {s : σ} (h : d.Ensures serves Q s)
    (hf : ∀ a t, Q a t → (f a).Ensures serves R t) : (d.bind f).Ensures serves R s := by
  induction h with
  | ret h => exact hf _ _ h
  | ask _ ih => exact .ask ih

theorem ensures_of_asks {p : ω → Prop} (hquiet : ∀ {q x s t}, p q → serves q x s t → t = s)
    {d : Dialogue ω ρ α} (h : d.Asks p) (s : σ) : d.Ensures serves (fun _ t => t = s) s := by
  induction h with
  | ret a => exact .ret rfl
  | ask hq _ ih =>
    refine .ask fun x t hserve => ?_
    rw [hquiet hq hserve]
    exact ih x

end
end Dialogue

/-! ## Programs that may fail -/

def Asking (ω ρ ε α : Type) : Type := Dialogue ω ρ (Except ε α)

namespace Asking
variable {ω ρ ε α β : Type}

def andThen (f : α → Asking ω ρ ε β) : Except ε α → Asking ω ρ ε β
  | .ok a => f a
  | .error e => Dialogue.ret (.error e)

instance : Monad (Asking ω ρ ε) where
  pure a := Dialogue.ret (.ok a)
  bind m f := Dialogue.bind m (andThen f)

theorem andThen_pure (x : Except ε α) :
    andThen (pure : α → Asking ω ρ ε α) x = Dialogue.ret x := by
  cases x <;> rfl

theorem map_id (m : Asking ω ρ ε α) : id <$> m = m := by
  change Dialogue.bind m (andThen pure) = m
  rw [funext andThen_pure]
  exact Dialogue.bind_ret m

theorem assoc {γ : Type} (m : Asking ω ρ ε α) (f : α → Asking ω ρ ε β)
    (g : β → Asking ω ρ ε γ) : m >>= f >>= g = m >>= fun a => f a >>= g := by
  refine (Dialogue.bind_assoc m (andThen f) (andThen g)).trans (congrArg (Dialogue.bind m) ?_)
  funext x
  cases x <;> rfl

instance : LawfulMonad (Asking ω ρ ε) := .mk' _ map_id (fun _ _ => rfl) assoc

def lift (x : Except ε α) : Asking ω ρ ε α := Dialogue.ret x

def throw (e : ε) : Asking ω ρ ε α := lift (.error e)

def ask (question : ω) : Asking ω ρ ε ρ := Dialogue.ask question fun x => Dialogue.ret (.ok x)

def outcome (m : Asking ω ρ ε α) (answers : List ρ) : Option (Except ε α) :=
  Dialogue.outcome m answers

def endWith (m : Asking ω ρ ε α) (f : Except ε α → Dialogue ω ρ β) : Dialogue ω ρ β :=
  Dialogue.bind m f

theorem outcome_endWith {m : Asking ω ρ ε α} {f : Except ε α → Dialogue ω ρ β} {xs : List ρ}
    {b : β} : (m.endWith f).outcome xs = some b ↔
      ∃ ys zs x, xs = ys ++ zs ∧ m.outcome ys = some x ∧ (f x).outcome zs = some b :=
  Dialogue.outcome_bind

theorem outcome_bind_endWith {m : Asking ω ρ ε α} {xs : List ρ} {a : α}
    (h : m.outcome xs = some (.ok a)) (f : α → Asking ω ρ ε β) {γ : Type}
    (g : Except ε β → Dialogue ω ρ γ) (ys : List ρ) :
    ((m >>= f).endWith g).outcome (xs ++ ys) = ((f a).endWith g).outcome ys :=
  Dialogue.outcome_of_after
    (Dialogue.after_bind (Dialogue.after_bind (Dialogue.after_of_outcome h) (andThen f)) g) ys

theorem outcome_bind_cases {m : Asking ω ρ ε α} {f : α → Asking ω ρ ε β} {xs : List ρ}
    {r : Except ε β} (h : (m >>= f).outcome xs = some r) :
    (∃ e, m.outcome xs = some (.error e) ∧ r = .error e) ∨
    ∃ ys zs a, xs = ys ++ zs ∧ m.outcome ys = some (.ok a) ∧ (f a).outcome zs = some r := by
  obtain ⟨ys, zs, x, rfl, hys, hzs⟩ := (outcome_endWith (m := m) (f := andThen f)).mp h
  cases x with
  | ok a => exact .inr ⟨ys, zs, a, rfl, hys, hzs⟩
  | error e =>
    obtain ⟨rfl, rfl⟩ := Dialogue.outcome_ret_nil hzs
    exact .inl ⟨e, by rwa [List.append_nil], rfl⟩

theorem outcome_bind_ok {m : Asking ω ρ ε α} {f : α → Asking ω ρ ε β} {xs : List ρ} {b : β}
    (h : (m >>= f).outcome xs = some (.ok b)) :
    ∃ ys zs a, xs = ys ++ zs ∧ m.outcome ys = some (.ok a) ∧ (f a).outcome zs = some (.ok b) := by
  rcases outcome_bind_cases h with ⟨e, -, herr⟩ | hok
  · cases herr
  · exact hok

theorem outcome_pure {a : α} {xs : List ρ} {r : Except ε α}
    (h : (pure a : Asking ω ρ ε α).outcome xs = some r) : r = .ok a :=
  (Dialogue.outcome_ret h).symm

theorem outcome_bind_lift {m : Asking ω ρ ε α} {f : α → Except ε β} {xs : List ρ} {b : β} :
    (m >>= fun a => lift (f a)).outcome xs = some (.ok b) ↔
      ∃ a, m.outcome xs = some (.ok a) ∧ f a = .ok b := by
  constructor
  · intro h
    obtain ⟨ys, zs, a, rfl, hys, hzs⟩ := outcome_bind_ok h
    obtain ⟨rfl, heq⟩ := Dialogue.outcome_ret_nil hzs
    rw [List.append_nil]
    exact ⟨a, hys, heq⟩
  · rintro ⟨a, ha, hb⟩
    exact Dialogue.outcome_bind.mpr
      ⟨xs, [], .ok a, (List.append_nil xs).symm, ha, congrArg some hb⟩

theorem outcome_map_ok {m : Asking ω ρ ε α} {f : α → β} {xs : List ρ} {b : β} :
    (f <$> m).outcome xs = some (.ok b) ↔ ∃ a, m.outcome xs = some (.ok a) ∧ f a = b := by
  rw [map_eq_pure_bind]
  refine (outcome_bind_lift (f := fun a => .ok (f a))).trans ?_
  simp only [Except.ok.injEq]

theorem asks_bind {p : ω → Prop} {m : Asking ω ρ ε α} {f : α → Asking ω ρ ε β}
    (h : m.Asks p) (hf : ∀ a, (f a).Asks p) : (m >>= f : Asking ω ρ ε β).Asks p := by
  refine Dialogue.Asks.bind h ?_
  intro x
  cases x with
  | ok a => exact hf a
  | error e => exact .ret _

theorem asks_lift {p : ω → Prop} (x : Except ε α) : (lift x : Asking ω ρ ε α).Asks p := .ret x

theorem asks_pure {p : ω → Prop} (a : α) : (pure a : Asking ω ρ ε α).Asks p :=
  .ret (Except.ok a)

/-! ## Putting a program into a larger environment -/

section
variable {ω' ρ' ε' : Type} (f : ω → ω') (g : ρ' → ρ) (h : ε → ε')

def embed (m : Asking ω ρ ε α) : Asking ω' ρ' ε' α :=
  (Dialogue.translate f g m).bind fun x => Dialogue.ret (mapErr h x)

theorem embed_bind (m : Asking ω ρ ε α) (k : α → Asking ω ρ ε β) :
    embed f g h (m >>= k) = embed f g h m >>= fun a => embed f g h (k a) := by
  refine (congrArg (Dialogue.bind · _) (Dialogue.translate_bind f g m (andThen k))).trans ?_
  refine (Dialogue.bind_assoc _ _ _).trans ?_
  refine Eq.trans (congrArg (Dialogue.bind _) ?_) (Dialogue.bind_assoc _ _ _).symm
  funext x
  cases x <;> rfl

theorem embed_pure (a : α) : embed f g h (pure a : Asking ω ρ ε α) = pure a := rfl

theorem asks_embed {p : ω' → Prop} (hp : ∀ q, p (f q)) (m : Asking ω ρ ε α) :
    (embed f g h m).Asks p :=
  (Dialogue.asks_translate (Dialogue.asks_of_forall hp m)).bind fun _ => .ret _

theorem embed_map (m : Asking ω ρ ε α) (k : α → β) :
    embed f g h (k <$> m) = k <$> embed f g h m := by
  rw [map_eq_pure_bind, embed_bind, map_eq_pure_bind]
  rfl

variable {f g h}

theorem outcome_embed_ok {m : Asking ω ρ ε α} {xs : List ρ'} {a : α}
    (hm : (embed f g h m).outcome xs = some (.ok a)) : m.outcome (xs.map g) = some (.ok a) := by
  obtain ⟨ys, zs, x, rfl, hys, hzs⟩ := Dialogue.outcome_bind.mp hm
  obtain ⟨rfl, heq⟩ := Dialogue.outcome_ret_nil hzs
  have hm' : m.outcome (ys.map g) = some x := (Dialogue.outcome_translate f g m ys).symm.trans hys
  rw [List.append_nil]
  cases x with
  | ok b => exact hm'.trans (congrArg (fun b => some (Except.ok b)) (Except.ok.inj heq))
  | error e => cases heq

end
end Asking
end HapRust.Lib
