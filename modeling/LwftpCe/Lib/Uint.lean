import Mathlib.Algebra.Group.Nat.Defs

/-!
# Unsigned integers

`unsigned int` and `size_t` have 24 bits.  They are modelled as natural numbers, with the operations that wrap around.
-/

namespace LwftpCe.Lib

variable {x n : ℕ}

def uintRange : ℕ := 2 ^ 24

def usub (x n : ℕ) : ℕ := (x + uintRange - n) % uintRange

lemma usub_of_le (hx : x < uintRange) (h : n ≤ x) : usub x n = x - n := by
  unfold usub
  rw [Nat.sub_add_comm h, Nat.add_mod_right]
  exact Nat.mod_eq_of_lt (by omega)

lemma usub_of_lt (hn : n ≤ uintRange) (h : x < n) : usub x n = x + uintRange - n :=
  Nat.mod_eq_of_lt (by omega)

def uadd (x n : ℕ) : ℕ := (x + n) % uintRange

lemma uadd_of_lt (h : x + n < uintRange) : uadd x n = x + n := Nat.mod_eq_of_lt h

lemma uadd_lt (x n : ℕ) : uadd x n < uintRange := Nat.mod_lt _ (Nat.two_pow_pos 24)

lemma usub_uadd {k : ℕ} (h : k ≤ x) (hk : k ≤ uintRange) : usub (uadd x n) k = uadd (x - k) n := by
  unfold usub uadd uintRange at *
  omega

def umul (x n : ℕ) : ℕ := (x * n) % uintRange

lemma umul_of_lt (h : x * n < uintRange) : umul x n = x * n := Nat.mod_eq_of_lt h

end LwftpCe.Lib
