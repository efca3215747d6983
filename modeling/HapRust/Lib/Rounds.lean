import Mathlib.Tactic.Common

/-! A client that is handed replies until it is done. Each reply makes it send the
next message, finish or refuse; the loop around it exchanges its messages. -/

namespace HapRust.Lib

inductive Reaction (μ β : Type) where
  | send (message : μ)
  | done (result : β)
  deriving DecidableEq

section
variable {m : Type → Type} [Monad m] {σ μ ε β : Type} (stuck : m (β × σ))
  (exchange : Nat → μ → m μ) (handle : σ → μ → Except ε (Reaction μ β) × σ) (refuse : ε → m (β × σ))

def rounds : Nat → Nat → σ → μ → m (β × σ)
  | 0, _, _, _ => stuck
  | fuel + 1, i, c, out => do
    let reply ← exchange i out
    match handle c reply with
    | (.error e, _) => refuse e
    | (.ok (.send next), c) => rounds fuel (i + 1) c next
    | (.ok (.done b), c) => pure (b, c)

variable {stuck exchange handle refuse} {left : σ → Nat}

theorem rounds_eq (hleft : ∀ c reply next c', handle c reply = (.ok (.send next), c') →
    left c' < left c) (stuck' : m (β × σ)) (fuel fuel' i : Nat) (c : σ) (out : μ)
    (h : left c < fuel) (h' : left c < fuel') :
    rounds stuck exchange handle refuse fuel i c out =
      rounds stuck' exchange handle refuse fuel' i c out := by
  induction fuel generalizing fuel' i c out with
  | zero => omega
  | succ n ih =>
    obtain ⟨n', rfl⟩ : ∃ n', fuel' = n' + 1 := ⟨fuel' - 1, by omega⟩
    rw [rounds, rounds]
    congr 1
    funext reply
    rcases hh : handle c reply with ⟨e | (next | b), c'⟩
    · rfl
    · have hlt := hleft c reply next c' hh
      exact ih n' (i + 1) c' next (by omega) (by omega)
    · rfl

end
end HapRust.Lib
