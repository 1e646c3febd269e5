import LwftpCe.Lib.BigEndian

/-!
# Vectors with a length

The presentation language of TLS: a vector is a length of `k` bytes and that many bytes.  `takeVec k` reads one from the
front of a string.
-/

namespace LwftpCe.Lib

open List

variable {n : ℕ} {bs b rest : Bytes} {k : ℕ}

def takeBytes (n : ℕ) (bs : Bytes) : Option (Bytes × Bytes) :=
  if n ≤ bs.length then some (bs.take n, bs.drop n) else none

def vec (k : ℕ) (b : Bytes) : Bytes := be k b.length ++ b

def takeVec (k : ℕ) (bs : Bytes) : Option (Bytes × Bytes) :=
  (takeBytes k bs).bind fun (l, rest) => takeBytes (beNat l) rest

@[simp] lemma length_vec (k : ℕ) (b : Bytes) : (vec k b).length = k + b.length := by simp [vec]

lemma takeBytes_append (b rest : Bytes) : takeBytes b.length (b ++ rest) = some (b, rest) := by
  simp [takeBytes]

lemma takeBytes_eq_some : takeBytes n bs = some (b, rest) ↔ b.length = n ∧ bs = b ++ rest := by
  constructor
  · intro h
    obtain ⟨hle, heq⟩ := Option.ite_none_right_eq_some.1 h
    obtain ⟨rfl, rfl⟩ := Prod.mk.inj (Option.some.inj heq)
    exact ⟨length_take_of_le hle, (take_append_drop n bs).symm⟩
  · rintro ⟨rfl, rfl⟩
    exact takeBytes_append b rest

lemma takeBytes_eq_none : takeBytes n bs = none ↔ bs.length < n := by
  simp [takeBytes]

lemma takeVec_vec (h : b.length < 256 ^ k) (rest : Bytes) : takeVec k (vec k b ++ rest) = some (b, rest) := by
  have hlen : takeBytes k (be k b.length ++ (b ++ rest)) = some (be k b.length, b ++ rest) :=
    takeBytes_eq_some.2 ⟨length_be _ _, rfl⟩
  rw [takeVec, vec, append_assoc, hlen, Option.bind_some]
  dsimp only
  rw [beNat_be, Nat.mod_eq_of_lt h, takeBytes_append]

lemma takeVec_short (hn : n < 256 ^ k) (h : rest.length < n) : takeVec k (be k n ++ rest) = none := by
  have hlen : takeBytes k (be k n ++ rest) = some (be k n, rest) := takeBytes_eq_some.2 ⟨length_be _ _, rfl⟩
  rw [takeVec, hlen, Option.bind_some]
  dsimp only
  rw [beNat_be, Nat.mod_eq_of_lt hn, takeBytes_eq_none]
  exact h

end LwftpCe.Lib
