import Mathlib.Logic.Function.Basic
import Mathlib.Tactic.Common

/-! Files as the calls of a process see them. A name is bound to an inode, and no two
names to the same one; whoever has opened a file goes on reading and writing its
inode, wherever the name goes. -/

namespace HapRust.Lib

structure Files (η β : Type) where
  names : η → Option Nat
  contents : Nat → List β
  next : Nat
  bound : ∀ {n i}, names n = some i → i < next
  distinct : ∀ {n m i}, names n = some i → names m = some i → n = m

namespace Files
variable {η β : Type} (fs : Files η β)

def read (n : η) : Option (List β) := (fs.names n).map fs.contents

def setContents (i : Nat) (b : List β) : Files η β :=
  { fs with contents := Function.update fs.contents i b }

def write (i : Nat) (b : List β) : Files η β :=
  fs.setContents i (b ++ (fs.contents i).drop b.length)

section
variable {fs} {i j : Nat} {b : List β}

theorem contents_setContents_of_ne (h : j ≠ i) : (fs.setContents i b).contents j = fs.contents j :=
  Function.update_of_ne h _ _

@[simp] theorem contents_setContents : (fs.setContents i b).contents i = b :=
  Function.update_self ..

theorem contents_write (h : fs.contents i = []) : (fs.write i b).contents i = b := by
  rw [write, contents_setContents, h, List.drop_nil, List.append_nil]

end

variable [DecidableEq η]

theorem update_eq_some {names : η → Option Nat} {n k : η} {o : Option Nat} {i : Nat} :
    Function.update names n o k = some i ↔ (k = n ∧ o = some i) ∨ (k ≠ n ∧ names k = some i) := by
  by_cases h : k = n
  · subst h
    simp
  · simp [h]

def bindFresh (n : η) : Files η β where
  names := Function.update fs.names n (some fs.next)
  contents := Function.update fs.contents fs.next []
  next := fs.next + 1
  bound := by
    intro m i h
    rw [update_eq_some] at h
    rcases h with ⟨-, h⟩ | ⟨-, h⟩
    · obtain rfl := Option.some.inj h
      exact Nat.lt_succ_self _
    · exact Nat.lt_succ_of_lt (fs.bound h)
  distinct := by
    intro m m' i h h'
    rw [update_eq_some] at h h'
    rcases h with ⟨rfl, h⟩ | ⟨hm, h⟩ <;> rcases h' with ⟨rfl, h'⟩ | ⟨hm', h'⟩
    · rfl
    · obtain rfl := Option.some.inj h
      exact absurd (fs.bound h') (Nat.lt_irrefl _)
    · obtain rfl := Option.some.inj h'
      exact absurd (fs.bound h) (Nat.lt_irrefl _)
    · exact fs.distinct h h'

def create (n : η) : Files η β × Nat :=
  match fs.names n with
  | some i => (fs.setContents i [], i)
  | none => (fs.bindFresh n, fs.next)

def move (n m : η) : Files η β where
  names := Function.update (Function.update fs.names n none) m (fs.names n)
  contents := fs.contents
  next := fs.next
  bound := by
    intro k i h
    rcases update_eq_some.mp h with ⟨-, h⟩ | ⟨-, h⟩
    · exact fs.bound h
    · rcases update_eq_some.mp h with ⟨-, h⟩ | ⟨-, h⟩
      · cases h
      · exact fs.bound h
  distinct := by
    have hother : ∀ {k i}, Function.update fs.names n none k = some i →
        k ≠ n ∧ fs.names k = some i := by
      intro k i h
      rcases update_eq_some.mp h with ⟨-, h⟩ | h
      · cases h
      · exact h
    intro k k' i h h'
    rw [update_eq_some] at h h'
    rcases h with ⟨rfl, h⟩ | ⟨hm, h⟩ <;> rcases h' with ⟨rfl, h'⟩ | ⟨hm', h'⟩
    · rfl
    · exact absurd (fs.distinct (hother h').2 h) (hother h').1
    · exact absurd (fs.distinct (hother h).2 h') (hother h).1
    · exact fs.distinct (hother h).2 (hother h').2

def rename (n m : η) : Option (Files η β) :=
  match fs.names n with
  | some _ => some (fs.move n m)
  | none => none

variable {fs} {n m : η} {i j : Nat}

theorem create_names_self : (fs.create n).1.names n = some (fs.create n).2 := by
  unfold create
  cases h : fs.names n with
  | some i => exact h
  | none => exact Function.update_self ..

theorem create_names_of_ne (h : m ≠ n) : (fs.create n).1.names m = fs.names m := by
  unfold create
  cases fs.names n with
  | some i => rfl
  | none => exact Function.update_of_ne h _ _

theorem create_contents_self : (fs.create n).1.contents (fs.create n).2 = [] := by
  unfold create
  cases fs.names n with
  | some i => exact contents_setContents
  | none => exact Function.update_self ..

theorem create_contents_of_ne (hj : j < fs.next) (h : fs.names n ≠ some j) :
    (fs.create n).1.contents j = fs.contents j := by
  unfold create
  cases hn : fs.names n with
  | some i =>
    refine contents_setContents_of_ne ?_
    rintro rfl
    exact h hn
  | none => exact Function.update_of_ne (Nat.ne_of_lt hj) _ _

theorem next_le_create : fs.next ≤ (fs.create n).1.next := by
  unfold create
  cases fs.names n with
  | some i => exact Nat.le_refl _
  | none => exact Nat.le_succ _

theorem create_ne (hj : j < fs.next) (h : fs.names n ≠ some j) : (fs.create n).2 ≠ j := by
  unfold create
  cases hn : fs.names n with
  | some i =>
    rintro rfl
    exact h hn
  | none => exact Nat.ne_of_gt hj

theorem rename_eq (h : fs.names n = some i) : fs.rename n m = some (fs.move n m) := by
  rw [rename, h]

theorem move_names_to : (fs.move n m).names m = fs.names n := Function.update_self ..

theorem move_names_from (h : n ≠ m) : (fs.move n m).names n = none := by
  change Function.update (Function.update fs.names n none) m (fs.names n) n = none
  rw [Function.update_of_ne h, Function.update_self]

end Files
end HapRust.Lib
