import LwftpCe.Lib.Gcm
import Mathlib.Algebra.Field.ZMod
import Mathlib.RingTheory.AdjoinRoot

/-!
# Strings of bits as polynomials

The bits of a string, the highest one of a byte first, are the coefficients of `1, x, x ^ 2, …`.  `bitsAt x` is the value at `x`, in a
commutative ring with `1 + 1 = 0`: the exclusive or is the sum, and a rotation to the right is the product with `x`.
`toPoly` is the polynomial itself, and `ghashPoly` the one of SP 800-38D.
-/

namespace LwftpCe.Lib

open List Polynomial

def bitsOf (bs : Bytes) : List Bool := bs.flatMap fun b => [7, 6, 5, 4, 3, 2, 1, 0].map b.toNat.testBit

lemma bitsOf_cons (b : UInt8) (bs : Bytes) : bitsOf (b :: bs) = bitsOf [b] ++ bitsOf bs := rfl

lemma length_bitsOf (bs : Bytes) : (bitsOf bs).length = 8 * bs.length := by
  induction bs with
  | nil => rfl
  | cons b bs ih => simp [bitsOf_cons b bs, ih, show (bitsOf [b]).length = 8 from rfl]; omega

lemma bitsOf_xorBytes (as bs : Bytes) : bitsOf (xorBytes as bs) = zipWith xor (bitsOf as) (bitsOf bs) := by
  induction as generalizing bs with
  | nil => rfl
  | cons a as ih =>
    cases bs with
    | nil => simp [bitsOf, xorBytes]
    | cons b bs =>
      have h := ih bs
      simp only [xorBytes, zipWith_cons_cons] at h ⊢
      rw [bitsOf_cons, h]
      simp only [bitsOf, flatMap_cons, flatMap_nil, append_nil, map_cons, map_nil, UInt8.toNat_xor, Nat.testBit_xor]
      rfl

def rotateRight (c : Bool) : Bytes → Bytes × Bool
  | [] => ([], c)
  | b :: bs =>
    let r := rotateRight (b.toNat.testBit 0) bs
    ((b >>> 1 ||| if c then 0x80 else 0) :: r.1, r.2)

lemma bitsOf_rotate_byte (c : Bool) (b : UInt8) :
    bitsOf [b >>> 1 ||| if c then 0x80 else 0] ++ [b.toNat.testBit 0] = c :: bitsOf [b] := by
  have hb : b.toNat >>> 8 = 0 := Nat.shiftRight_eq_zero _ _ b.toNat_lt
  have hc : (if c then (0x80 : UInt8) else 0).toNat = if c then 0x80 else 0 := by cases c <;> rfl
  simp only [bitsOf, flatMap_singleton, map_cons, map_nil, UInt8.toNat_or, UInt8.toNat_shiftRight, Nat.testBit_or,
    Nat.testBit_shiftRight, hc]
  cases c <;> simp [Nat.testBit, hb]

lemma bitsOf_rotateRight (bs : Bytes) : ∀ c, bitsOf (rotateRight c bs).1 ++ [(rotateRight c bs).2] = c :: bitsOf bs := by
  induction bs with
  | nil => exact fun c => rfl
  | cons b bs ih =>
    intro c
    unfold rotateRight
    rw [bitsOf_cons, append_assoc, ih, bitsOf_cons b, ← cons_append, ← bitsOf_rotate_byte]
    rfl

@[simp] lemma length_rotateRight (c : Bool) (bs : Bytes) : (rotateRight c bs).1.length = bs.length := by
  induction bs generalizing c with
  | nil => rfl
  | cons b bs ih => simp [rotateRight, ih]

/-! ### Values -/

section Values

variable {R : Type*} [CommRing R] (x : R)

def bitsAt : List Bool → R
  | [] => 0
  | b :: l => (if b then 1 else 0) + x * bitsAt l

lemma bitsAt_append (l l' : List Bool) : bitsAt x (l ++ l') = bitsAt x l + x ^ l.length * bitsAt x l' := by
  induction l with
  | nil => simp [bitsAt]
  | cons b l ih =>
    rw [cons_append, bitsAt, bitsAt, ih, length_cons]
    ring

lemma map_bitsAt {S : Type*} [CommRing S] (f : R →+* S) (l : List Bool) : f (bitsAt x l) = bitsAt (f x) l := by
  induction l with
  | nil => exact map_zero f
  | cons b l ih => cases b <;> simp [bitsAt, ih]

lemma bitsAt_xor (htwo : (1 : R) + 1 = 0) {l l' : List Bool} (h : l.length = l'.length) : bitsAt x (zipWith xor l l') = bitsAt x l + bitsAt x l' := by
  induction l generalizing l' with
  | nil =>
    rw [length_eq_zero_iff.1 h.symm]
    simp [bitsAt]
  | cons b l ih =>
    obtain ⟨b', l', rfl⟩ := exists_cons_of_length_eq_add_one h.symm
    rw [zipWith_cons_cons, bitsAt, bitsAt, bitsAt, ih (Nat.succ.inj h)]
    cases b <;> cases b' <;> simp
    · ring
    · ring
    · ring
    · linear_combination -htwo

def bytesAt (bs : Bytes) : R := bitsAt x (bitsOf bs)

lemma bytesAt_cons (b : UInt8) (bs : Bytes) : bytesAt x (b :: bs) = bytesAt x [b] + x ^ 8 * bytesAt x bs := bitsAt_append ..

lemma bytesAt_zeros (n : ℕ) : bytesAt x (replicate n 0) = 0 := by
  induction n with
  | zero => rfl
  | succ n ih =>
    have h : bytesAt x [0] = 0 := by simp [bytesAt, bitsOf, bitsAt]
    rw [replicate_succ, bytesAt_cons, ih, h]
    ring

lemma bytesAt_xorBytes (htwo : (1 : R) + 1 = 0) {as bs : Bytes} (h : as.length = bs.length) :
    bytesAt x (xorBytes as bs) = bytesAt x as + bytesAt x bs := by
  unfold bytesAt
  rw [bitsOf_xorBytes, bitsAt_xor x htwo (by rw [length_bitsOf, length_bitsOf, h])]

lemma bytesAt_rotateRight (bs : Bytes) :
    bytesAt x (rotateRight false bs).1 + x ^ (8 * bs.length) * (if (rotateRight false bs).2 then 1 else 0) = x * bytesAt x bs := by
  have h := congrArg (bitsAt x) (bitsOf_rotateRight bs false)
  rw [bitsAt_append, length_bitsOf] at h
  simpa [bitsAt, bytesAt] using h

end Values

noncomputable def toPoly (bs : Bytes) : (ZMod 2)[X] := bytesAt X bs

lemma degree_bitsAt (l : List Bool) : (bitsAt (X : (ZMod 2)[X]) l).degree < l.length := by
  induction l with
  | nil => simp [bitsAt]
  | cons b l ih =>
    rw [degree_lt_iff_coeff_zero] at ih ⊢
    intro m hm
    obtain ⟨m, rfl⟩ := Nat.exists_eq_add_of_lt (Nat.lt_of_lt_of_le (Nat.succ_pos l.length) hm)
    rw [Nat.zero_add, bitsAt, coeff_add, coeff_X_mul, ih m (by simpa using hm)]
    cases b <;> simp [coeff_one]

/-! ### The polynomial of GCM -/

/-- The polynomial by which the blocks of GCM are multiplied. -/
noncomputable def ghashPoly : (ZMod 2)[X] := X ^ 128 + X ^ 7 + X ^ 2 + X + 1

lemma map_ghashPoly {R : Type*} [CommRing R] (f : (ZMod 2)[X] →+* R) :
    f ghashPoly = f X ^ 128 + f X ^ 7 + f X ^ 2 + f X + 1 := by
  unfold ghashPoly
  simp only [map_add, map_pow, map_one]

lemma degree_ghashPoly : ghashPoly.degree = 128 := by
  unfold ghashPoly
  compute_degree!

lemma monic_ghashPoly : ghashPoly.Monic := by
  unfold ghashPoly
  monicity!

lemma ghash_two : (1 : AdjoinRoot ghashPoly) + 1 = 0 := by
  have h : AdjoinRoot.of ghashPoly (1 + 1) = 0 := by rw [show (1 + 1 : ZMod 2) = 0 by decide, map_zero]
  rwa [map_add] at h

lemma ghash_root : (AdjoinRoot.root ghashPoly) ^ 128 + AdjoinRoot.root ghashPoly ^ 7 + AdjoinRoot.root ghashPoly ^ 2 +
    AdjoinRoot.root ghashPoly + 1 = 0 := by
  have h := map_ghashPoly (AdjoinRoot.mk ghashPoly)
  rw [AdjoinRoot.mk_self] at h
  exact h.symm

lemma mk_toPoly (bs : Bytes) : AdjoinRoot.mk ghashPoly (toPoly bs) = bytesAt (AdjoinRoot.root ghashPoly) bs :=
  (map_bitsAt X (AdjoinRoot.mk ghashPoly) (bitsOf bs)).trans (by rw [AdjoinRoot.mk_X, bytesAt])

end LwftpCe.Lib
