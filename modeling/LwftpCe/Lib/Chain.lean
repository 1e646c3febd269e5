import LwftpCe.Lib.CString

/-!
# Strings of blocks

A string that is made of blocks of `k` bytes, `f 0`, `f 1` and so on, and cut at a length: the form of the output of MGF1,
HKDF and PBKDF2, and of the loops that write one block after the other and a part of the last one.
-/

namespace LwftpCe.Lib

open List

variable {f : ℕ → Bytes} {k : ℕ}

lemma length_chain (hf : ∀ i, (f i).length = k) (n : ℕ) : ((List.range n).flatMap f).length = k * n := by
  induction n with
  | zero => rfl
  | succ n ih => rw [range_succ, flatMap_append, length_append, ih, flatMap_singleton, hf, Nat.mul_succ]

lemma take_chain_succ (hf : ∀ i, (f i).length = k) {n c len : ℕ} (hc : c = min k (len - k * n)) :
    ((List.range n).flatMap f).take len ++ (f n).take c = ((List.range (n + 1)).flatMap f).take len := by
  have hpart : (f n).take c = (f n).take (len - k * n) := by
    rcases le_total k (len - k * n) with h | h
    · rw [hc, min_eq_left h, take_of_length_le (hf n).le, take_of_length_le ((hf n).le.trans h)]
    · rw [hc, min_eq_right h]
  rw [range_succ, flatMap_append, flatMap_singleton, take_append, length_chain hf, hpart]

end LwftpCe.Lib
