import Mathlib.Logic.Basic

/-!
# Conditionals side by side

Two functions that test the same conditions in the same order are compared branch by branch.
-/

namespace LwftpCe.Lib

variable {α β : Type} {R : α → β → Prop} {c d : Prop} [Decidable c] [Decidable d] {a a' : α} {b b' : β}

lemma rel_ite (h : c ↔ d) (ht : c → R a b) (he : ¬ c → R a' b') : R (if c then a else a') (if d then b else b') := by
  by_cases hc : c
  · rw [if_pos hc, if_pos (h.1 hc)]
    exact ht hc
  · rw [if_neg hc, if_neg (mt h.2 hc)]
    exact he hc

lemma rel_ite_left (ht : c → R a b) (he : ¬ c → R a' b) : R (if c then a else a') b := by
  by_cases hc : c
  · rw [if_pos hc]
    exact ht hc
  · rw [if_neg hc]
    exact he hc

end LwftpCe.Lib
