import Mathlib.Data.Nat.ModEq

/-! Exponentiation and subtraction modulo `n`, on representatives. -/

namespace HapRust.Lib
variable {n : Nat}

def modpow (b e n : Nat) : Nat := b ^ e % n

def modsub (b c n : Nat) : Nat := (b + n - c) % n

theorem modpow_modEq (b e n : Nat) : modpow b e n ≡ b ^ e [MOD n] := Nat.mod_modEq _ _

theorem modpow_congr {b b' : Nat} (e : Nat) (h : b ≡ b' [MOD n]) : modpow b e n = modpow b' e n :=
  h.pow e

theorem modpow_of_modEq_pow {b g d : Nat} (e : Nat) (h : b ≡ g ^ d [MOD n]) :
    modpow b e n = g ^ (d * e) % n := by
  rw [modpow_congr e h, modpow, pow_mul]

theorem modsub_modEq {b c d : Nat} (hc : c ≤ n) (h : b ≡ c + d [MOD n]) :
    modsub b c n ≡ d [MOD n] := by
  have hsum : b + n - c + c = b + n := by omega
  have hcancel : b + n - c + c ≡ d + c [MOD n] := by
    rw [hsum, add_comm d c]
    exact (Nat.add_modEq_right).trans h
  exact (Nat.mod_modEq _ _).trans (Nat.ModEq.add_right_cancel' c hcancel)

end HapRust.Lib
