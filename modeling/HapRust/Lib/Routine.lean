import HapRust.Lib.Dialogue

/-! Programs with a state of their own, which stays as it is when they fail. A question carries
the state in which it is asked, so that a program which is given up there leaves that state
behind. A triple says what holds before the program, at each of its questions, and after it. -/

namespace HapRust.Lib

def Routine (σ ω ρ ε α : Type) : Type := σ → Dialogue (ω × σ) ρ (Except ε α × σ)

namespace Routine
variable {σ ω ρ ε α β : Type}

def andThen (f : α → Routine σ ω ρ ε β) :
    Except ε α × σ → Dialogue (ω × σ) ρ (Except ε β × σ)
  | (.ok a, s) => f a s
  | (.error e, s) => .ret (.error e, s)

instance : Monad (Routine σ ω ρ ε) where
  pure a s := .ret (.ok a, s)
  bind m f s := Dialogue.bind (m s) (andThen f)

def lift (x : Except ε α) : Routine σ ω ρ ε α := fun s => .ret (x, s)

def throw (e : ε) : Routine σ ω ρ ε α := lift (.error e)

def get : Routine σ ω ρ ε σ := fun s => .ret (.ok s, s)

def modify (f : σ → σ) : Routine σ ω ρ ε Unit := fun s => .ret (.ok (), f s)

def ask (question : ω) : Routine σ ω ρ ε ρ := fun s => .ask (question, s) fun x => .ret (.ok x, s)

def catching (m : Routine σ ω ρ ε α) : Routine σ ω ρ ε (Except ε α) := fun s =>
  (m s).bind fun r => .ret (.ok r.1, r.2)

theorem bind_apply (m : Routine σ ω ρ ε α) (f : α → Routine σ ω ρ ε β) (s : σ) :
    (m >>= f) s = (m s).bind (andThen f) := rfl

def leftIn : Dialogue (ω × σ) ρ (Except ε α × σ) → σ
  | .ret r => r.2
  | .ask q _ => q.2

def leaves (d : Dialogue (ω × σ) ρ (Except ε α × σ)) (answers : List ρ) : Option σ :=
  (d.after answers).map leftIn

/-! ## Triples -/

structure Triple (pre : σ → Prop) (m : Routine σ ω ρ ε α) (mid : σ → Prop)
    (post : Except ε α → σ → Prop) : Prop where
  asks : ∀ s, pre s → (m s).Asks fun q => mid q.2
  ends : ∀ s, pre s → (m s).Always fun r => post r.1 r.2

variable {pre mid : σ → Prop} {post : Except ε α → σ → Prop} {m : Routine σ ω ρ ε α}

theorem Triple.strengthen {pre' : σ → Prop} (h : Triple pre m mid post) (himp : ∀ s, pre' s → pre s) :
    Triple pre' m mid post :=
  ⟨fun s hs => h.asks s (himp s hs), fun s hs => h.ends s (himp s hs)⟩

theorem Triple.loosen {mid' : σ → Prop} (h : Triple pre m mid post) (himp : ∀ s, mid s → mid' s) :
    Triple pre m mid' post :=
  ⟨fun s hs => (h.asks s hs).imp fun q hq => himp q.2 hq, h.ends⟩

theorem Triple.of_ret (h : ∀ s, pre s → ∃ x t, m s = .ret (x, t) ∧ post x t) :
    Triple pre m mid post where
  asks s hs := by
    obtain ⟨x, t, hm, -⟩ := h s hs
    rw [hm]
    exact .ret _
  ends s hs := by
    obtain ⟨x, t, hm, ht⟩ := h s hs
    rw [hm]
    exact ht

theorem Triple.lift {x : Except ε α} (h : ∀ s, pre s → post x s) :
    Triple pre (Routine.lift x : Routine σ ω ρ ε α) mid post :=
  ⟨fun _ _ => .ret _, fun s hs => h s hs⟩

theorem Triple.pure {a : α} (h : ∀ s, pre s → post (.ok a) s) :
    Triple pre (Pure.pure a : Routine σ ω ρ ε α) mid post :=
  Triple.lift h

theorem Triple.get {post : Except ε σ → σ → Prop} (h : ∀ s, pre s → post (.ok s) s) :
    Triple pre (Routine.get : Routine σ ω ρ ε σ) mid post :=
  ⟨fun _ _ => .ret _, fun s hs => h s hs⟩

theorem Triple.modify {f : σ → σ} {post : Except ε Unit → σ → Prop}
    (h : ∀ s, pre s → post (.ok ()) (f s)) :
    Triple pre (Routine.modify f : Routine σ ω ρ ε Unit) mid post :=
  ⟨fun _ _ => .ret _, fun s hs => h s hs⟩

theorem Triple.ask {question : ω} {post : Except ε ρ → σ → Prop} (hmid : ∀ s, pre s → mid s)
    (h : ∀ x s, pre s → post (.ok x) s) :
    Triple pre (Routine.ask question : Routine σ ω ρ ε ρ) mid post :=
  ⟨fun s hs => .ask (hmid s hs) fun _ => .ret _, fun s hs x => h x s hs⟩

theorem Triple.bind {f : α → Routine σ ω ρ ε β} {post' : Except ε β → σ → Prop}
    (h : Triple pre m mid post) (hok : ∀ a, Triple (post (.ok a)) (f a) mid post')
    (herr : ∀ e s, post (.error e) s → post' (.error e) s) : Triple pre (m >>= f) mid post' where
  asks s hs := by
    refine (h.asks s hs).bind_always (h.ends s hs) ?_
    rintro ⟨x, t⟩ ht
    cases x with
    | error e => exact .ret _
    | ok a => exact (hok a).asks t ht
  ends s hs := by
    refine (h.ends s hs).bind ?_
    rintro ⟨x, t⟩ ht
    cases x with
    | error e => exact herr e t ht
    | ok a => exact (hok a).ends t ht

theorem Triple.catching {post' : Except ε (Except ε α) → σ → Prop} (h : Triple pre m mid post)
    (himp : ∀ x s, post x s → post' (.ok x) s) : Triple pre m.catching mid post' where
  asks s hs := (h.asks s hs).bind fun _ => .ret _
  ends s hs := (h.ends s hs).bind fun r hr => himp r.1 r.2 hr

theorem Triple.ite {p : Prop} [Decidable p] {n : Routine σ ω ρ ε α}
    (hpos : p → Triple pre m mid post) (hneg : ¬ p → Triple pre n mid post) :
    Triple pre (if p then m else n) mid post := by
  split_ifs with hp
  · exact hpos hp
  · exact hneg hp

def Keeps (I : σ → Prop) (m : Routine σ ω ρ ε α) : Prop := Triple I m I fun _ => I

section
variable {I : σ → Prop}

theorem Keeps.bind {f : α → Routine σ ω ρ ε β} (h : Keeps I m) (hf : ∀ a, Keeps I (f a)) :
    Keeps I (m >>= f) :=
  Triple.bind h hf fun _ _ hs => hs

theorem Keeps.lift (x : Except ε α) : Keeps I (Routine.lift x : Routine σ ω ρ ε α) :=
  Triple.lift fun _ hs => hs

theorem Keeps.pure (a : α) : Keeps I (Pure.pure a : Routine σ ω ρ ε α) := Keeps.lift (.ok a)

theorem Keeps.get : Keeps I (Routine.get : Routine σ ω ρ ε σ) := Triple.get fun _ hs => hs

theorem Keeps.modify {f : σ → σ} (h : ∀ s, I s → I (f s)) :
    Keeps I (Routine.modify f : Routine σ ω ρ ε Unit) :=
  Triple.modify h

theorem Keeps.ask (question : ω) : Keeps I (Routine.ask question : Routine σ ω ρ ε ρ) :=
  Triple.ask (fun _ hs => hs) fun _ _ hs => hs

theorem Keeps.catching (h : Keeps I m) : Keeps I m.catching := Triple.catching h fun _ _ hs => hs

theorem Keeps.ite {p : Prop} [Decidable p] {n : Routine σ ω ρ ε α} (hm : Keeps I m)
    (hn : Keeps I n) : Keeps I (if p then m else n) := by
  split_ifs
  · exact hm
  · exact hn

end

theorem Triple.leaves (h : Triple pre m mid post) (himp : ∀ x s, post x s → mid s) {s t : σ}
    (hs : pre s) {answers : List ρ} (ht : Routine.leaves (m s) answers = some t) : mid t := by
  obtain ⟨d, hd, rfl⟩ := Option.map_eq_some_iff.mp ht
  have hasks := (h.asks s hs).after hd
  have hends := (h.ends s hs).after hd
  cases d with
  | ret r => exact himp r.1 r.2 hends
  | ask q next =>
    cases hasks with
    | ask hq _ => exact hq

end Routine
end HapRust.Lib
