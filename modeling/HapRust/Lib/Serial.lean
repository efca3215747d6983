import Mathlib.Algebra.Group.Nat.Defs
import Mathlib.Data.Nat.Init

/-! Serial numbers of 16 bits (RFC 1982). They wrap, so that the order of two numbers is
meaningful only while they are less than half the range apart: numbers within half the range
of one origin are ordered as their distances from it. -/

namespace HapRust.Lib

def ahead (a b : UInt16) : Nat := (b - a).toNat

def Newer (new last : UInt16) : Prop := 0 < ahead last new ∧ ahead last new < 2 ^ 15

instance (new last : UInt16) : Decidable (Newer new last) :=
  inferInstanceAs (Decidable (_ ∧ _))

/-- The number has stayed, or has moved forward. -/
def Later (a b : UInt16) : Prop := b = a ∨ Newer b a

instance (a b : UInt16) : Decidable (Later a b) := inferInstanceAs (Decidable (_ ∨ _))

variable {o a b c : UInt16}

theorem ahead_eq (a b : UInt16) : ahead a b = (2 ^ 16 - a.toNat + b.toNat) % 2 ^ 16 :=
  UInt16.toNat_sub b a

theorem ahead_self (a : UInt16) : ahead a a = 0 := by
  rw [ahead, UInt16.sub_self]
  rfl

theorem ahead_add (h : ahead a b + ahead b c < 2 ^ 16) : ahead a c = ahead a b + ahead b c := by
  have ha := a.toNat_lt
  have hb := b.toNat_lt
  have hc := c.toNat_lt
  rw [ahead_eq, ahead_eq] at h ⊢
  rw [ahead_eq]
  omega

theorem ahead_of_le (h : ahead o a ≤ ahead o b) : ahead a b = ahead o b - ahead o a := by
  have ho := o.toNat_lt
  have ha := a.toNat_lt
  have hb := b.toNat_lt
  rw [ahead_eq, ahead_eq] at h ⊢
  rw [ahead_eq]
  omega

theorem eq_of_ahead_eq (h : ahead o a = ahead o b) : a = b := by
  have ho := o.toNat_lt
  have ha := a.toNat_lt
  have hb := b.toNat_lt
  rw [ahead_eq, ahead_eq] at h
  refine UInt16.toNat_inj.mp ?_
  omega

theorem ahead_swap (h : a ≠ b) : ahead a b + ahead b a = 2 ^ 16 := by
  have ha := a.toNat_lt
  have hb := b.toNat_lt
  have hne : a.toNat ≠ b.toNat := fun heq => h (UInt16.toNat_inj.mp heq)
  rw [ahead_eq, ahead_eq]
  omega

theorem newer_iff_lt (ha : ahead o a < 2 ^ 15) (hb : ahead o b < 2 ^ 15) :
    Newer b a ↔ ahead o a < ahead o b := by
  rcases Nat.le_total (ahead o a) (ahead o b) with hle | hle
  · rw [Newer, ahead_of_le hle]
    omega
  · have hback := ahead_of_le hle
    constructor
    · rintro ⟨hpos, hlt⟩
      have hne : a ≠ b := by
        rintro rfl
        rw [ahead_self] at hpos
        omega
      have hswap := ahead_swap hne
      omega
    · intro hlt
      omega

theorem later_iff_le (ha : ahead o a < 2 ^ 15) (hb : ahead o b < 2 ^ 15) :
    Later a b ↔ ahead o a ≤ ahead o b := by
  rw [Later, newer_iff_lt ha hb]
  constructor
  · rintro (rfl | hlt)
    · exact Nat.le_refl _
    · exact Nat.le_of_lt hlt
  · intro hle
    rcases Nat.eq_or_lt_of_le hle with heq | hlt
    · exact .inl (eq_of_ahead_eq heq).symm
    · exact .inr hlt

end HapRust.Lib
