import LwftpCe.Lib.CString
import Mathlib.Data.List.Induction

/-!
# Big-endian numbers

`beNat bs` is the number that the bytes `bs` denote, `be k n` the `k` bytes of the number `n`; what does not fit is cut
off.
-/

namespace LwftpCe.Lib

open List

def beNat (bs : Bytes) : ℕ := bs.foldl (fun n b => 256 * n + b.toNat) 0

def be : ℕ → ℕ → Bytes
  | 0, _ => []
  | k + 1, n => be k (n / 256) ++ [UInt8.ofNat n]

@[simp] lemma length_be (k n : ℕ) : (be k n).length = k := by
  induction k generalizing n with
  | zero => rfl
  | succ k ih => simp [be, ih]

@[simp] lemma beNat_nil : beNat [] = 0 := rfl

lemma beNat_concat (bs : Bytes) (b : UInt8) : beNat (bs ++ [b]) = 256 * beNat bs + b.toNat := by
  simp [beNat]

lemma beNat_lt (bs : Bytes) : beNat bs < 256 ^ bs.length := by
  induction bs using reverseRecOn with
  | nil => simp
  | append_singleton bs b ih =>
    have hb : b.toNat < 256 := b.toNat_lt
    rw [beNat_concat, length_append, length_singleton]
    omega

lemma beNat_be (k n : ℕ) : beNat (be k n) = n % 256 ^ k := by
  induction k generalizing n with
  | zero => simp [be, Nat.mod_one]
  | succ k ih =>
    have hmul : n % 256 ^ (k + 1) = n % 256 + 256 * (n / 256 % 256 ^ k) := by
      rw [Nat.pow_succ, Nat.mul_comm, Nat.mod_mul]
    rw [be, beNat_concat, ih, UInt8.toNat_ofNat']
    omega

lemma be_beNat (bs : Bytes) : be bs.length (beNat bs) = bs := by
  induction bs using reverseRecOn with
  | nil => rfl
  | append_singleton bs b ih =>
    have hb : b.toNat < 256 := b.toNat_lt
    have hdiv : (256 * beNat bs + b.toNat) / 256 = beNat bs := by omega
    have hmod : UInt8.ofNat (256 * beNat bs + b.toNat) = b := by
      apply UInt8.toNat_inj.1
      rw [UInt8.toNat_ofNat']
      omega
    rw [beNat_concat, length_append, length_singleton, be, hdiv, hmod, ih]

lemma be_inj {k m n : ℕ} (hm : m < 256 ^ k) (hn : n < 256 ^ k) (h : be k m = be k n) : m = n := by
  have := congrArg beNat h
  rwa [beNat_be, beNat_be, Nat.mod_eq_of_lt hm, Nat.mod_eq_of_lt hn] at this

end LwftpCe.Lib
