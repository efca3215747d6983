import Mathlib.Tactic.Common

/-! One exchange at a time: calls are served one after the other, each by one
answer. A state is the list of the finished exchanges and at most one open
exchange, so what was received and what was answered can be read off it. -/

namespace HapRust.Lib

structure Exchange (κ ρ : Type) where
  finished : List (κ × ρ)
  /-- The call that has arrived and waits for its answer, or has it. -/
  opened : Option (κ × Option ρ)

namespace Exchange
variable {κ ρ : Type} (e : Exchange κ ρ)

def received : List κ := e.finished.map Prod.fst ++ (e.opened.map Prod.fst).toList

def answers : List ρ := e.finished.map Prod.snd ++ (e.opened.bind Prod.snd).toList

def unread : List ρ := (e.opened.bind Prod.snd).toList

variable {e}

def arrive (e : Exchange κ ρ) (c : κ) : Exchange κ ρ := { e with opened := some (c, none) }

def answer (e : Exchange κ ρ) (c : κ) (r : ρ) : Exchange κ ρ :=
  { e with opened := some (c, some r) }

def close (e : Exchange κ ρ) (c : κ) (r : ρ) : Exchange κ ρ := ⟨e.finished ++ [(c, r)], none⟩

theorem received_arrive (h : e.opened = none) (c : κ) :
    (e.arrive c).received = e.received ++ [c] := by
  simp [received, arrive, h]

theorem answers_arrive (h : e.opened = none) (c : κ) : (e.arrive c).answers = e.answers := by
  simp [answers, arrive, h]

theorem opened_of_length_lt (h : e.answers.length < e.received.length) :
    ∃ c, e.opened = some (c, none) := by
  rcases e with ⟨finished, - | ⟨c, - | r⟩⟩
  · simp [answers, received] at h
  · exact ⟨c, rfl⟩
  · simp [answers, received] at h

theorem received_answer {c : κ} (h : e.opened = some (c, none)) (r : ρ) :
    (e.answer c r).received = e.received := by
  simp [received, answer, h]

theorem answers_answer {c : κ} (h : e.opened = some (c, none)) (r : ρ) :
    (e.answer c r).answers = e.answers ++ [r] ∧ (e.answer c r).unread = e.unread ++ [r] := by
  simp [answers, unread, answer, h]

theorem opened_of_unread {r : ρ} {rs : List ρ} (h : e.unread = r :: rs) :
    rs = [] ∧ ∃ c, e.opened = some (c, some r) := by
  rcases e with ⟨finished, - | ⟨c, - | r'⟩⟩
  · simp [unread] at h
  · simp [unread] at h
  · simp only [unread, Option.bind_some, Option.toList_some, List.cons.injEq] at h
    obtain ⟨rfl, rfl⟩ := h
    exact ⟨rfl, c, rfl⟩

theorem close_of_opened {c : κ} {r : ρ} (h : e.opened = some (c, some r)) :
    (e.close c r).received = e.received ∧ (e.close c r).answers = e.answers ∧
      e.received[e.finished.length]? = some c ∧ e.answers[e.finished.length]? = some r := by
  simp [received, answers, close, h]

end Exchange
end HapRust.Lib
