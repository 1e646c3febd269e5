import LwftpCe.Lib.BinaryPoly
import LwftpCe.Lib.Memory

/-!
# The multiplication of GHASH

`gf128_mul` of `bigint.asm`, on memory: the first operand is copied to the stack, so that the output may be in its place.
-/

namespace LwftpCe.Tls

open Lib List Polynomial

/-- The body of the loop over the bits, with `tmp` and the memory: `output ^= tmp & mask`, then `tmp` shifted by one bit, and the
polynomial for the bit that drops out. -/
def mulBit (output : ℕ) (s : Bytes × Mem) (bit : Bool) : Bytes × Mem :=
  let mask : UInt8 := if bit then 0xff else 0
  let m := s.2.write output (xorBytes (s.1.map (· &&& mask)) (s.2.read output 16))
  let r := rotateRight false s.1
  (r.1.modify 0 (· ^^^ if r.2 then 0xe1 else 0), m)

def gf128Mul (m : Mem) (op1 op2 output : ℕ) : Mem :=
  ((List.range 16).foldl (fun s j => (bitsOf [s.2 (op2 + j)]).foldl (mulBit output) s)
    (m.read op1 16, m.write output (List.replicate 16 0))).2

/-! ### The loops -/

section Loops

variable {R : Type*} [CommRing R] {x : R} (m : Mem) (output : ℕ) {t o : Bytes}

lemma write_write {bs : Bytes} (h : bs.length = o.length) : (m.write output o).write output bs = m.write output bs := by
  funext i
  unfold Mem.write
  by_cases hi : output ≤ i
  · rw [if_pos hi, if_pos hi, if_pos hi]
    rcases Nat.lt_or_ge (i - output) bs.length with hlt | hge
    · rw [getElem?_eq_getElem hlt, Option.getD_some, Option.getD_some]
    · rw [getElem?_eq_none hge, getElem?_eq_none (h ▸ hge), Option.getD_none]
  · rw [if_neg hi, if_neg hi, if_neg hi]

lemma mulBit_eq (htwo : (1 : R) + 1 = 0) (hx : x ^ 128 + x ^ 7 + x ^ 2 + x + 1 = 0) (ht : t.length = 16) (ho : o.length = 16) (bit : Bool) :
    ∃ t' o', mulBit output (t, m.write output o) bit = (t', m.write output o') ∧ t'.length = 16 ∧ o'.length = 16 ∧
      bytesAt x t' = x * bytesAt x t ∧ bytesAt x o' = bytesAt x o + (if bit then 1 else 0) * bytesAt x t := by
  have hread : (m.write output o).read output 16 = o := ho ▸ Mem.read_write ..
  have hrot := bytesAt_rotateRight x t
  have hlen := length_rotateRight false t
  unfold mulBit
  rw [hread]
  generalize rotateRight false t = r at hrot hlen ⊢
  obtain ⟨b, bs, hr⟩ := exists_cons_of_length_eq_add_one (hlen.trans ht)
  have hmask : (t.map (· &&& if bit then 0xff else 0)).length = o.length := by rw [length_map, ht, ho]
  refine ⟨_, _, congrArg _ (write_write m output ?_), ?_, ?_, ?_, ?_⟩
  · rw [length_xorBytes, hmask, Nat.min_self]
  · rw [length_modify, hlen, ht]
  · rw [length_xorBytes, hmask, Nat.min_self, ho]
  · rw [ht, hr, bytesAt_cons] at hrot
    rw [hr, modify_zero_cons, bytesAt_cons]
    have hxor := bytesAt_xorBytes x htwo (show [b].length = [if r.2 then (0xe1 : UInt8) else 0].length from rfl)
    have hpoly : bytesAt x [if r.2 then (0xe1 : UInt8) else 0] = (if r.2 then 1 else 0) * (1 + x + x ^ 2 + x ^ 7) := by
      have h0 : bitsOf [0] = replicate 8 false := by decide
      have he1 : bitsOf [0xe1] = [true, true, true, false, false, false, false, true] := by decide
      unfold bytesAt
      cases r.2 <;> simp [h0, he1, bitsAt, replicate]
      ring
    change bytesAt x [b ^^^ _] = _ at hxor
    rw [hxor, hpoly]
    linear_combination hrot - (if r.2 then 1 else 0) * hx + (if r.2 then 1 else 0) * (1 + x + x ^ 2 + x ^ 7) * htwo
  · rw [bytesAt_xorBytes x htwo hmask, add_comm]
    cases bit with
    | true =>
      have hff : ∀ b : UInt8, b &&& 0xff = b := fun b => UInt8.and_neg_one
      simp [hff]
    | false => simp [map_const', bytesAt_zeros]

lemma mulBits_eq (htwo : (1 : R) + 1 = 0) (hx : x ^ 128 + x ^ 7 + x ^ 2 + x + 1 = 0) (l : List Bool) :
    ∀ t o : Bytes, t.length = 16 → o.length = 16 → ∃ t' o', l.foldl (mulBit output) (t, m.write output o) = (t', m.write output o') ∧
      t'.length = 16 ∧ o'.length = 16 ∧ bytesAt x o' = bytesAt x o + bitsAt x l * bytesAt x t := by
  induction l with
  | nil => exact fun t o ht ho => ⟨t, o, rfl, ht, ho, by simp [bitsAt]⟩
  | cons b l ih =>
    intro t o ht ho
    obtain ⟨t1, o1, hstep, ht1, ho1, htmp, hout⟩ := mulBit_eq m output htwo hx ht ho b
    obtain ⟨t2, o2, hrun, ht2, ho2, hval⟩ := ih t1 o1 ht1 ho1
    refine ⟨t2, o2, by rw [foldl_cons, hstep, hrun], ht2, ho2, ?_⟩
    rw [hval, hout, htmp, bitsAt]
    ring

lemma mulBytes_eq {s : Bytes × Mem} {op2 : ℕ} (n : ℕ)
    (hs : ∀ l : List Bool, ∃ t o : Bytes, o.length = 16 ∧ l.foldl (mulBit output) s = (t, m.write output o))
    (hout : ∀ j < n, op2 + j < output ∨ output + 16 ≤ op2 + j) :
    (List.range n).foldl (fun s j => (bitsOf [s.2 (op2 + j)]).foldl (mulBit output) s) s = (bitsOf (m.read op2 n)).foldl (mulBit output) s := by
  induction n with
  | zero => rfl
  | succ n ih =>
    obtain ⟨t, o, ho, hrun⟩ := hs (bitsOf (m.read op2 n))
    have hbyte : m.write output o (op2 + n) = m (op2 + n) := by
      rcases hout n (Nat.lt_succ_self n) with h | h
      · exact Mem.write_before _ h
      · exact Mem.write_behind _ (ho ▸ h)
    have hbits : bitsOf (m.read op2 (n + 1)) = bitsOf (m.read op2 n) ++ bitsOf [m (op2 + n)] := by
      rw [Mem.read_add, bitsOf, flatMap_append]
      rfl
    rw [range_succ, foldl_append, ih fun j hj => hout j (Nat.lt_succ_of_lt hj), foldl_cons, foldl_nil, hrun,
      show (t, m.write output o).2 (op2 + n) = m (op2 + n) from hbyte, hbits, foldl_append, hrun]

end Loops

/-- **The multiplication of GHASH**: whatever the operands, and with the output anywhere but in the second one, what is written is
their product modulo the polynomial. -/
theorem gf128_mul_exact (m : Mem) (op1 op2 output : ℕ) (h : op2 + 16 ≤ output ∨ output + 16 ≤ op2) :
    ∃ r : Bytes, r.length = 16 ∧ gf128Mul m op1 op2 output = m.write output r ∧
      toPoly r = toPoly (m.read op1 16) * toPoly (m.read op2 16) %ₘ ghashPoly := by
  have hbits := fun l => mulBits_eq m output ghash_two ghash_root l (m.read op1 16) (replicate 16 0) (Mem.length_read ..) length_replicate
  obtain ⟨t, r, hrun, -, hr, hval⟩ := hbits (bitsOf (m.read op2 16))
  have hprod : AdjoinRoot.mk ghashPoly (toPoly r) = AdjoinRoot.mk ghashPoly (toPoly (m.read op1 16) * toPoly (m.read op2 16)) := by
    rw [map_mul, mk_toPoly, mk_toPoly, mk_toPoly, hval, bytesAt_zeros, zero_add, mul_comm]
    rfl
  have hdeg : (toPoly r).degree < ghashPoly.degree := by
    have h := degree_bitsAt (bitsOf r)
    rw [length_bitsOf, hr] at h
    rw [degree_ghashPoly]
    exact h
  refine ⟨r, hr, ?_, ?_⟩
  · unfold gf128Mul
    rw [mulBytes_eq m output 16 (fun l => ?_) fun j hj => by omega, hrun]
    obtain ⟨t, o, h, -, ho, -⟩ := hbits l
    exact ⟨t, o, ho, h⟩
  · rw [← (modByMonic_eq_self_iff monic_ghashPoly).2 hdeg]
    exact modByMonic_eq_of_dvd_sub monic_ghashPoly (AdjoinRoot.mk_eq_mk.1 hprod)

theorem gf128_mul_in_place : ∃ r : Bytes, r.length = 16 ∧ gf128Mul (.ofBytes (replicate 32 0x80)) 0 16 0 = Mem.write (.ofBytes (replicate 32 0x80)) 0 r ∧
    toPoly r = toPoly (Mem.read (.ofBytes (replicate 32 0x80)) 0 16) * toPoly (Mem.read (.ofBytes (replicate 32 0x80)) 16 16) %ₘ ghashPoly :=
  gf128_mul_exact _ 0 16 0 (.inr (by decide))

end LwftpCe.Tls
