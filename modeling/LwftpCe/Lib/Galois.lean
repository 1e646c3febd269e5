import LwftpCe.Lib.Aes
import LwftpCe.Lib.BinaryPoly
import Mathlib.FieldTheory.Finite.Extension

/-!
# The field of the blocks

`gfMul` is the product of a field (`gfField`): the blocks are the polynomials over `ZMod 2` modulo `ghashPoly`, which is
irreducible.

* The loop of the product, on the numbers of the blocks (`gfMulNat`), is the product at a root of the polynomial.
* An irreducible factor has degree 128: its degree divides 128, as `x ^ 2 ^ 128 = x` at the root, and it does not divide
  64, as `x ^ 2 ^ 64 - x` has an inverse.  Both are computed with `gfMulNat`.
* A block is determined by its value, and there are as many values as blocks.
-/

namespace LwftpCe.Lib

open List Polynomial

/-! ### Numbers as polynomials -/

/-- The lowest `w` bits of a number, the highest one first. -/
def natBits : ℕ → ℕ → List Bool
  | 0, _ => []
  | w + 1, n => n.testBit w :: natBits w n

@[simp] lemma length_natBits (w n : ℕ) : (natBits w n).length = w := by
  induction w with
  | zero => rfl
  | succ w ih => rw [natBits, length_cons, ih]

lemma natBits_xor (w m n : ℕ) : natBits w (m ^^^ n) = zipWith xor (natBits w m) (natBits w n) := by
  induction w with
  | zero => rfl
  | succ w ih => rw [natBits, natBits, natBits, zipWith_cons_cons, ih, Nat.testBit_xor]

lemma natBits_add (w k n : ℕ) : natBits (w + k) n = natBits w (n >>> k) ++ natBits k n := by
  induction w with
  | zero => rw [Nat.zero_add, natBits, nil_append]
  | succ w ih => rw [Nat.succ_add, natBits, natBits, ih, cons_append, Nat.testBit_shiftRight, Nat.add_comm w k]

lemma bitsOf_be (k n : ℕ) : bitsOf (be k n) = natBits (8 * k) n := by
  induction k generalizing n with
  | zero => rfl
  | succ k ih =>
    have hlow : bitsOf [UInt8.ofNat n] = natBits 8 n := by
      simp [bitsOf, natBits, UInt8.toNat_ofNat', Nat.testBit_mod_two_pow _ 8]
    rw [be, bitsOf, flatMap_append, ← bitsOf, ← bitsOf, ih, hlow, Nat.mul_succ, natBits_add, Nat.shiftRight_eq_div_pow]

lemma bitsOf_bytes (b : Block) : bitsOf b.bytes = natBits 128 (beNat b.bytes) := by
  have h := be_beNat b.bytes
  rw [b.length_bytes] at h
  rw [show 128 = 8 * 16 from rfl, ← bitsOf_be, h]

section Product

variable {R : Type*} [CommRing R] (x : R)

/-- The value of a number of 128 bits. -/
def natAt (n : ℕ) : R := bitsAt x (natBits 128 n)

variable {x} (htwo : (1 : R) + 1 = 0) (hx : x ^ 128 + x ^ 7 + x ^ 2 + x + 1 = 0)

include htwo in
lemma natAt_xor (m n : ℕ) : natAt x (m ^^^ n) = natAt x m + natAt x n := by
  rw [natAt, natBits_xor, bitsAt_xor x htwo (by rw [length_natBits, length_natBits])]
  rfl

include htwo in
lemma natAt_zero : natAt x 0 = 0 := by
  rw [← Nat.xor_self 0, natAt_xor htwo]
  linear_combination natAt x 0 * htwo

lemma bitsAt_two_pow (w k : ℕ) : bitsAt x (natBits w (2 ^ k)) = if k < w then x ^ (w - 1 - k) else 0 := by
  induction w with
  | zero => rfl
  | succ w ih =>
    rw [natBits, bitsAt, ih, Nat.testBit_two_pow]
    rcases lt_trichotomy k w with h | rfl | h
    · rw [if_neg (by simpa using h.ne), if_pos h, if_pos (Nat.lt_succ_of_lt h), zero_add, ← pow_succ']
      congr 1
      omega
    · simp
    · rw [if_neg (by simpa using h.ne'), if_neg h.not_gt, if_neg (by omega), mul_zero, zero_add]

lemma natAt_two_pow {k : ℕ} (hk : k < 128) : natAt x (2 ^ k) = x ^ (127 - k) := (bitsAt_two_pow 128 k).trans (if_pos hk)

/-- The number of `1 + x + x ^ 2 + x ^ 7`. -/
def reduction : ℕ := 0xe1000000000000000000000000000000

include htwo in
lemma natAt_reduction : natAt x reduction = 1 + x + x ^ 2 + x ^ 7 := by
  have hsum : reduction = 2 ^ 127 ^^^ 2 ^ 126 ^^^ 2 ^ 125 ^^^ 2 ^ 120 := by decide
  rw [hsum, natAt_xor htwo, natAt_xor htwo, natAt_xor htwo, natAt_two_pow (by decide), natAt_two_pow (by decide),
    natAt_two_pow (by decide), natAt_two_pow (by decide)]
  norm_num

/-- The number with its lowest bit dropped, and the polynomial for the bit.  This and `gfLoop` are written with the functions
themselves, which the kernel computes faster than the operators. -/
def halve (v : ℕ) : ℕ := Nat.xor (Nat.shiftRight v 1) (Nat.mul (Nat.mod v 2) reduction)

lemma halve_eq (v : ℕ) : halve v = v >>> 1 ^^^ v % 2 * reduction := rfl

lemma halve_lt {v : ℕ} (hv : v < 2 ^ 128) : halve v < 2 ^ 128 := by
  rw [halve_eq]
  refine Nat.xor_lt_two_pow (lt_of_le_of_lt (Nat.shiftRight_le v 1) hv) ?_
  rcases Nat.mod_two_eq_zero_or_one v with h | h <;> rw [h] <;> decide

include htwo hx in
lemma natAt_halve {v : ℕ} (hv : v < 2 ^ 128) : natAt x (halve v) = x * natAt x v := by
  have hbits : natBits 128 (v >>> 1) ++ [v.testBit 0] = false :: natBits 128 v := by
    rw [← Nat.testBit_lt_two_pow hv]
    exact (natBits_add 128 1 v).symm
  have h := congrArg (bitsAt x) hbits
  rw [bitsAt_append, length_natBits] at h
  change natAt x (v >>> 1) + x ^ 128 * bitsAt x [v.testBit 0] = 0 + x * natAt x v at h
  rw [halve_eq]
  rcases Nat.mod_two_eq_zero_or_one v with hmod | hmod
  · simpa [bitsAt, Nat.testBit_zero, hmod] using h
  · rw [hmod, one_mul, natAt_xor htwo, natAt_reduction htwo]
    simp [bitsAt, Nat.testBit_zero, hmod] at h
    linear_combination h - hx + (1 + x + x ^ 2 + x ^ 7) * htwo

/-- The loop of the product, on the numbers of the blocks: the turns for the lowest `n` bits of `a`. -/
def gfLoop : ℕ → ℕ → ℕ → ℕ → ℕ
  | 0, _, z, _ => z
  | n + 1, a, z, v => gfLoop n a (Nat.xor z (Nat.mul (Nat.mod (Nat.shiftRight a n) 2) v)) (halve v)

lemma gfLoop_succ (n a z v : ℕ) : gfLoop (n + 1) a z v = gfLoop n a (z ^^^ a >>> n % 2 * v) (halve v) := rfl

lemma bit_mul_lt (a n : ℕ) {v : ℕ} (hv : v < 2 ^ 128) : a >>> n % 2 * v < 2 ^ 128 := by
  rcases Nat.mod_two_eq_zero_or_one (a >>> n) with h | h
  · rw [h, zero_mul]
    exact Nat.two_pow_pos 128
  · rwa [h, one_mul]

lemma gfLoop_lt (a n : ℕ) : ∀ z v, z < 2 ^ 128 → v < 2 ^ 128 → gfLoop n a z v < 2 ^ 128 := by
  induction n with
  | zero => exact fun z _ hz _ => hz
  | succ n ih => exact fun z v hz hv => ih _ _ (Nat.xor_lt_two_pow hz (bit_mul_lt a n hv)) (halve_lt hv)

include htwo hx in
lemma natAt_gfLoop (a n : ℕ) : ∀ z v, v < 2 ^ 128 →
    natAt x (gfLoop n a z v) = natAt x z + bitsAt x (natBits n a) * natAt x v := by
  induction n with
  | zero => exact fun z v _ => by simp [gfLoop, natBits, bitsAt]
  | succ n ih =>
    intro z v hv
    have hbit : natAt x (a >>> n % 2 * v) = (if a.testBit n then 1 else 0) * natAt x v := by
      rw [Nat.testBit_eq_decide_div_mod_eq, ← Nat.shiftRight_eq_div_pow]
      rcases Nat.mod_two_eq_zero_or_one (a >>> n) with h | h <;> simp [h, natAt_zero htwo]
    rw [gfLoop_succ, ih _ _ (halve_lt hv), natAt_xor htwo, natAt_halve htwo hx hv, hbit, natBits, bitsAt]
    ring

/-- The product, on the numbers of the blocks. -/
def gfMulNat (a b : ℕ) : ℕ := gfLoop 128 a 0 b

include htwo hx in
lemma natAt_gfMulNat (a : ℕ) {b : ℕ} (hb : b < 2 ^ 128) : natAt x (gfMulNat a b) = natAt x a * natAt x b := by
  rw [gfMulNat, natAt_gfLoop htwo hx a 128 0 b hb, natAt_zero htwo, zero_add]
  rfl

include htwo hx in
lemma natAt_square {n : ℕ} (hn : n < 2 ^ 128) (k : ℕ) :
    (fun n => gfMulNat n n)^[k] n < 2 ^ 128 ∧ natAt x ((fun n => gfMulNat n n)^[k] n) = natAt x n ^ 2 ^ k := by
  induction k with
  | zero => exact ⟨hn, (pow_one _).symm⟩
  | succ k ih =>
    rw [Function.iterate_succ_apply']
    refine ⟨gfLoop_lt _ 128 0 _ (Nat.two_pow_pos 128) ih.1, (natAt_gfMulNat htwo hx _ ih.1).trans ?_⟩
    rw [ih.2, ← pow_two, ← pow_mul, ← pow_succ]

lemma gfMul_bytes (a b : Block) : (gfMul a b).bytes = be 16 (gfMulNat (beNat a.bytes) (beNat b.bytes)) := by
  have hloop : ∀ n ≤ 128, ∀ c z v, ((List.range' (128 - n) n).foldl (fun (s : ℕ × ℕ) i =>
      (if c.testBit (127 - i) then s.1 ^^^ s.2 else s.1,
        if s.2.testBit 0 then s.2 >>> 1 ^^^ 0xe1 <<< 120 else s.2 >>> 1)) (z, v)).1 = gfLoop n c z v := by
    intro n
    induction n with
    | zero => exact fun _ _ _ _ => rfl
    | succ n ih =>
      intro hn c z v
      rw [gfLoop_succ, ← ih (by omega), range'_succ, foldl_cons, show 128 - (n + 1) + 1 = 128 - n by omega,
        show 127 - (128 - (n + 1)) = n by omega, Nat.testBit_eq_decide_div_mod_eq, ← Nat.shiftRight_eq_div_pow,
        halve_eq, reduction]
      rcases Nat.mod_two_eq_zero_or_one (c >>> n) with h | h <;>
        rcases Nat.mod_two_eq_zero_or_one v with h' | h' <;> simp [h, h']
  have h := hloop 128 (Nat.le_refl 128) (beNat a.bytes) 0 (beNat b.bytes)
  exact congrArg (be 16) h

include htwo hx in
lemma bytesAt_gfMul (a b : Block) : bytesAt x (gfMul a b).bytes = bytesAt x a.bytes * bytesAt x b.bytes := by
  have hb : beNat b.bytes < 2 ^ 128 := by
    have h := beNat_lt b.bytes
    rwa [b.length_bytes, show (256 : ℕ) ^ 16 = 2 ^ 128 from rfl] at h
  rw [gfMul_bytes, bytesAt, bitsOf_be, bytesAt, bytesAt, bitsOf_bytes, bitsOf_bytes]
  exact natAt_gfMulNat htwo hx _ hb

end Product

/-! ### The polynomial is irreducible -/

section Irreducible

open AdjoinRoot

lemma natAt_root : natAt (root ghashPoly) (2 ^ 126) = root ghashPoly := (natAt_two_pow (by decide)).trans (pow_one _)

lemma gfSquare_period : (fun n => gfMulNat n n)^[128] (2 ^ 126) = 2 ^ 126 := by decide +kernel

lemma gfInverse_mul : gfMulNat 0x180da934bf53158251c13dbb149f5279
    ((fun n => gfMulNat n n)^[64] (2 ^ 126) ^^^ 2 ^ 126) = 2 ^ 127 := by decide +kernel

lemma root_pow (k : ℕ) : natAt (root ghashPoly) ((fun n => gfMulNat n n)^[k] (2 ^ 126)) = root ghashPoly ^ 2 ^ k := by
  rw [(natAt_square ghash_two ghash_root (by decide) k).2, natAt_root]

lemma ghashPoly_dvd {n : ℕ} (hn : n = 2 ^ 128) : ghashPoly ∣ X ^ n - X := by
  rw [hn, ← mk_eq_zero, map_sub, map_pow, mk_X, ← root_pow, gfSquare_period, natAt_root, sub_self]

/-- `X ^ 2 ^ 64 - X` has an inverse modulo the polynomial. -/
lemma exists_inverse {n : ℕ} (hn : n = 2 ^ 64) : ∃ u, ghashPoly ∣ 1 - u * (X ^ n - X) := by
  have hlt := (natAt_square ghash_two ghash_root (show 2 ^ 126 < 2 ^ 128 by decide) 64).1
  have hmul := natAt_gfMulNat ghash_two ghash_root 0x180da934bf53158251c13dbb149f5279
    (Nat.xor_lt_two_pow hlt (show 2 ^ 126 < 2 ^ 128 by decide))
  rw [gfInverse_mul, natAt_two_pow (by decide), pow_zero, natAt_xor ghash_two, root_pow, natAt_root] at hmul
  obtain ⟨u, hu⟩ := mk_surjective (natAt (root ghashPoly) 0x180da934bf53158251c13dbb149f5279)
  have hneg : -root ghashPoly = root ghashPoly := by linear_combination -root ghashPoly * ghash_two
  refine ⟨u, ?_⟩
  rw [hn, ← mk_eq_zero, map_sub, map_mul, map_sub, map_pow, mk_X, map_one, hu, hmul, sub_eq_add_neg (_ ^ _), hneg, sub_self]

/-- The degree of an irreducible factor divides 128, and not 64. -/
lemma natDegree_factor {g : (ZMod 2)[X]} (hg : Irreducible g) (hdvd : g ∣ ghashPoly) : g.natDegree = 128 := by
  have hcard : ∀ n, Nat.card (ZMod 2) ^ n = 2 ^ n := fun n => by rw [Nat.card_zmod]
  have h128 : g.natDegree ∣ 128 := by
    refine hg.natDegree_dvd_of_dvd_X_pow_card_pow_sub_X ?_
    generalize hn : Nat.card (ZMod 2) ^ 128 = n
    exact hdvd.trans (ghashPoly_dvd (hn.symm.trans (hcard 128)))
  have h64 : ¬ g.natDegree ∣ 64 := by
    intro h
    rw [hg.natDegree_dvd_iff_dvd_X_pow_card_pow_sub_X] at h
    generalize hn : Nat.card (ZMod 2) ^ 64 = n at h
    obtain ⟨u, hu⟩ := exists_inverse (hn.symm.trans (hcard 64))
    exact hg.not_isUnit (isUnit_of_dvd_one ((dvd_sub_left (dvd_mul_of_dvd_right h u)).1 (hdvd.trans hu)))
  obtain ⟨k, hk, hpow⟩ := (Nat.dvd_prime_pow Nat.prime_two).1 (show g.natDegree ∣ 2 ^ 7 from h128)
  rcases Nat.lt_or_ge k 7 with hlt | hge
  · exact absurd (hpow ▸ pow_dvd_pow 2 (Nat.le_of_lt_succ hlt)) h64
  · rw [hpow, le_antisymm hk hge]
    rfl

/-- **The polynomial of GCM is irreducible.** -/
lemma irreducible_ghashPoly : Irreducible ghashPoly := by
  have hdeg : ghashPoly.natDegree = 128 := natDegree_eq_of_degree_eq_some degree_ghashPoly
  have hunit : ¬ IsUnit ghashPoly := not_isUnit_of_natDegree_pos _ (by rw [hdeg]; decide)
  obtain ⟨g, hg, hdvd⟩ := WfDvdMonoid.exists_irreducible_factor hunit monic_ghashPoly.ne_zero
  have hle : ghashPoly.natDegree ≤ g.natDegree := by rw [hdeg, natDegree_factor hg hdvd]
  exact (associated_of_dvd_of_natDegree_le hdvd monic_ghashPoly.ne_zero hle).irreducible hg

end Irreducible

/-! ### The field of the blocks -/

lemma bitsOf_singleton_injective {a b : UInt8} (h : bitsOf [a] = bitsOf [b]) : a = b := by
  simp only [bitsOf, flatMap_singleton, map_cons, map_nil, cons.injEq] at h
  refine UInt8.toNat_inj.1 (Nat.eq_of_testBit_eq fun j => ?_)
  rcases Nat.lt_or_ge j 8 with hj | hj
  · interval_cases j <;> simp only [h]
  · have hpow : 256 ≤ 2 ^ j := Nat.pow_le_pow_right Nat.two_pos hj
    rw [Nat.testBit_lt_two_pow (a.toNat_lt.trans_le hpow), Nat.testBit_lt_two_pow (b.toNat_lt.trans_le hpow)]

lemma bitsOf_injective : Function.Injective bitsOf := by
  intro as
  induction as with
  | nil =>
    intro bs h
    have hlen := congrArg length h
    rw [length_bitsOf, length_bitsOf, length_nil] at hlen
    exact (length_eq_zero_iff.1 (by omega)).symm
  | cons a as ih =>
    intro bs h
    cases bs with
    | nil => cases h
    | cons b bs =>
      obtain ⟨hhead, htail⟩ := append_inj h rfl
      rw [bitsOf_singleton_injective hhead, ih htail]

lemma bitsAt_injective {l l' : List Bool} (hlen : l.length = l'.length) (h : bitsAt (X : (ZMod 2)[X]) l = bitsAt X l') : l = l' := by
  induction l generalizing l' with
  | nil => exact (length_eq_zero_iff.1 hlen.symm).symm
  | cons b l ih =>
    obtain ⟨b', l', rfl⟩ := exists_cons_of_length_eq_add_one hlen.symm
    have hzero := congrArg (coeff · 0) h
    have hb : b = b' := by
      cases b <;> cases b' <;> simp [bitsAt] at hzero ⊢
    rw [bitsAt, bitsAt, hb, add_right_inj] at h
    rw [hb, ih (Nat.succ.inj hlen) (mul_left_cancel₀ X_ne_zero h)]

namespace Block

/-- The value of a block in the ring of the polynomial. -/
noncomputable def value (b : Block) : AdjoinRoot ghashPoly := bytesAt (AdjoinRoot.root ghashPoly) b.bytes

lemma value_xor (a b : Block) : (a ^^^ b).value = a.value + b.value :=
  bytesAt_xorBytes _ ghash_two (by rw [a.length_bytes, b.length_bytes])

lemma value_gfMul (a b : Block) : (gfMul a b).value = a.value * b.value := bytesAt_gfMul ghash_two ghash_root a b

lemma value_injective : Function.Injective value := by
  intro a b h
  have hdeg : ∀ c : Block, toPoly c.bytes %ₘ ghashPoly = toPoly c.bytes := fun c => by
    have hlt := degree_bitsAt (bitsOf c.bytes)
    rw [length_bitsOf, c.length_bytes] at hlt
    rw [modByMonic_eq_self_iff monic_ghashPoly, degree_ghashPoly]
    exact hlt
  rw [value, value, ← mk_toPoly, ← mk_toPoly, AdjoinRoot.mk_eq_mk] at h
  have hpoly := modByMonic_eq_of_dvd_sub monic_ghashPoly h
  rw [hdeg, hdeg] at hpoly
  exact Block.ext (bitsOf_injective (bitsAt_injective (by rw [length_bitsOf, length_bitsOf, a.length_bytes, b.length_bytes]) hpoly))

lemma byte_ofFn (f : Fin 16 → UInt8) (h : (List.ofFn f).length = 16) (i : Fin 16) : (⟨List.ofFn f, h⟩ : Block).byte i = f i := by
  rw [byte, List.getD_eq_getElem?_getD, List.getElem?_ofFn, dif_pos i.isLt, Option.getD_some]

/-- A block as its sixteen bytes. -/
def equivFun : Block ≃ (Fin 16 → Fin 256) where
  toFun b i := ⟨(b.byte i).toNat, UInt8.toNat_lt _⟩
  invFun f := ⟨List.ofFn fun i => UInt8.ofNat (f i), List.length_ofFn⟩
  left_inv b := ext_byte fun i hi => by
    rw [byte_ofFn _ _ ⟨i, hi⟩, UInt8.ofNat_toNat]
  right_inv f := by
    funext i
    dsimp only
    rw [Fin.ext_iff, byte_ofFn]
    exact UInt8.toNat_ofNat_of_lt' (f i).isLt

lemma value_bijective : Function.Bijective value := by
  have hfinite : Module.Finite (ZMod 2) (AdjoinRoot ghashPoly) := monic_ghashPoly.finite_adjoinRoot
  have : Finite (AdjoinRoot ghashPoly) := Module.finite_of_finite (ZMod 2)
  refine (Nat.bijective_iff_injective_and_card _).2 ⟨value_injective, ?_⟩
  have hrank : Module.finrank (ZMod 2) (AdjoinRoot ghashPoly) = 128 := by
    rw [(AdjoinRoot.powerBasis' monic_ghashPoly).finrank, AdjoinRoot.powerBasis'_dim]
    exact natDegree_eq_of_degree_eq_some degree_ghashPoly
  have hcard : Nat.card (AdjoinRoot ghashPoly) = 2 ^ 128 := by
    rw [Module.natCard_eq_pow_finrank (K := ZMod 2), hrank, Nat.card_zmod]
  rw [Nat.card_congr equivFun, hcard]
  simp

end Block

instance : Fact (Irreducible ghashPoly) := ⟨irreducible_ghashPoly⟩

/-- The product of SP 800-38D with the exclusive or is a field. -/
noncomputable def gfField : FieldProduct gfMul where
  F := AdjoinRoot ghashPoly
  field := AdjoinRoot.instField
  toField := .ofBijective Block.value Block.value_bijective
  map_xor a b := by
    rw [Equiv.ofBijective_apply, Equiv.ofBijective_apply, Equiv.ofBijective_apply, Block.value_xor]
  map_mul a b := by
    rw [Equiv.ofBijective_apply, Equiv.ofBijective_apply, Equiv.ofBijective_apply, Block.value_gfMul]

end LwftpCe.Lib
