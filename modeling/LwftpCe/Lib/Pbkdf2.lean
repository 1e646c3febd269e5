import LwftpCe.Lib.Gcm
import LwftpCe.Lib.Hkdf

/-!
# PBKDF2

RFC 8018 (5.2) with HMAC over a hash with digests of 32 bytes.
-/

namespace LwftpCe.Lib.Pbkdf2

section Defs

variable (hash : Bytes → Bytes) (password salt : Bytes)

def iterate (i : ℕ) : ℕ → Bytes
  | 0 => Hkdf.hmac hash password (salt ++ be 4 i)
  | c + 1 => Hkdf.hmac hash password (iterate i c)

def block (i : ℕ) : ℕ → Bytes
  | 0 => iterate hash password salt i 0
  | c + 1 => xorBytes (block i c) (iterate hash password salt i (c + 1))

def key (rounds len : ℕ) : Bytes :=
  ((List.range ((len + 31) / 32)).flatMap fun i => block hash password salt (i + 1) (rounds - 1)).take len

end Defs

variable {hash : Bytes → Bytes} (hlen : ∀ x, (hash x).length = 32) (password salt : Bytes)

include hlen

lemma length_block (i c : ℕ) : (block hash password salt i c).length = 32 := by
  induction c with
  | zero => exact hlen _
  | succ c ih => rw [block, length_xorBytes, ih, iterate, Hkdf.hmac, hlen, Nat.min_self]

lemma length_key (rounds len : ℕ) : (key hash password salt rounds len).length = len := by
  rw [key, List.length_take, length_chain fun i => length_block hlen password salt (i + 1) (rounds - 1)]
  omega

end LwftpCe.Lib.Pbkdf2
