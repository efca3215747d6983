import HapRust.Lib.Bytes

/-! Stream ciphers, and zeros that fill up a last block. A stream cipher is a keystream and the
place up to which it has been used; from the same place it undoes what it has done. -/

namespace HapRust.Lib

structure StreamCipher where
  keystream : Nat → UInt8
  position : Nat

namespace StreamCipher
variable (c : StreamCipher)

def applyKeystream (data : Bytes) : Bytes × StreamCipher :=
  (data.mapIdx fun i b => b ^^^ c.keystream (c.position + i),
    { c with position := c.position + data.length })

@[simp] theorem length_applyKeystream (data : Bytes) :
    (c.applyKeystream data).1.length = data.length := List.length_mapIdx

theorem applyKeystream_applyKeystream (data : Bytes) :
    (c.applyKeystream (c.applyKeystream data).1).1 = data := by
  unfold applyKeystream
  rw [List.mapIdx_mapIdx]
  have hbyte : ∀ (i : Nat) (b : UInt8),
      b ^^^ c.keystream (c.position + i) ^^^ c.keystream (c.position + i) = b := by
    intro i b
    rw [UInt8.xor_assoc, UInt8.xor_self, UInt8.xor_zero]
  apply List.ext_getElem?
  intro i
  rw [List.getElem?_mapIdx]
  cases data[i]? with
  | none => rfl
  | some b => exact congrArg some (hbyte i b)

theorem applyKeystream_inj {data data' : Bytes}
    (h : (c.applyKeystream data).1 = (c.applyKeystream data').1) : data = data' := by
  rw [← c.applyKeystream_applyKeystream data, h, applyKeystream_applyKeystream]

end StreamCipher

/-! ## Zeros up to a whole number of blocks -/

def padTo (n : Nat) (d : Bytes) : Bytes := d ++ List.replicate ((n - d.length % n) % n) 0

section
variable {n : Nat} {d d' : Bytes}

theorem length_padTo (n : Nat) (d : Bytes) :
    (padTo n d).length = d.length + (n - d.length % n) % n := by
  rw [padTo, List.length_append, List.length_replicate]

theorem dvd_length_padTo (hn : 0 < n) (d : Bytes) : n ∣ (padTo n d).length := by
  have hdiv := Nat.div_add_mod d.length n
  have hlt := Nat.mod_lt d.length hn
  rw [length_padTo]
  by_cases hrest : d.length % n = 0
  · rw [hrest, Nat.sub_zero, Nat.mod_self]
    exact Nat.dvd_of_mod_eq_zero hrest
  · rw [Nat.mod_eq_of_lt (Nat.sub_lt hn (Nat.pos_of_ne_zero hrest))]
    have htotal : d.length + (n - d.length % n) = n * (d.length / n + 1) := by
      rw [Nat.mul_add_one]
      omega
    exact ⟨d.length / n + 1, htotal⟩

theorem padTo_of_dvd (h : n ∣ d.length) : padTo n d = d := by
  rw [padTo, Nat.mod_eq_zero_of_dvd h, Nat.sub_zero, Nat.mod_self]
  exact List.append_nil d

theorem padTo_append (h : n ∣ d.length) (d' : Bytes) : padTo n (d ++ d') = d ++ padTo n d' := by
  have hrest : (d ++ d').length % n = d'.length % n := by
    rw [List.length_append, Nat.add_mod, Nat.mod_eq_zero_of_dvd h, Nat.zero_add, Nat.mod_mod]
  rw [padTo, hrest, List.append_assoc]
  rfl

theorem padTo_inj (hlength : d.length = d'.length) (h : padTo n d = padTo n d') : d = d' :=
  (List.append_inj h hlength).1

theorem length_lt_of_padTo (hn : 0 < n) (h : (padTo n d).length = (padTo n d').length) :
    d'.length < d.length + n := by
  have hpad := Nat.mod_lt (n - d.length % n) hn
  rw [length_padTo, length_padTo] at h
  omega

end
end HapRust.Lib
