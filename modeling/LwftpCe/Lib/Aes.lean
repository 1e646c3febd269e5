import LwftpCe.Lib.Gcm

/-!
# The cipher of FIPS 197 and the product of GCM

Both as the standards have them, to be computed with: `Aes.cipher key` is the block cipher with a key of 16, 24 or 32
bytes, `Aes.decipher key` its inverse (`decipher_cipher`), `gfMul` the product of SP 800-38D.  The state of the cipher is a
list of 16 bytes, column by column.
-/

namespace LwftpCe.Lib

namespace Aes

open List

def sbox : List Bytes :=
  [[0x63, 0x7c, 0x77, 0x7b, 0xf2, 0x6b, 0x6f, 0xc5, 0x30, 0x01, 0x67, 0x2b, 0xfe, 0xd7, 0xab, 0x76],
   [0xca, 0x82, 0xc9, 0x7d, 0xfa, 0x59, 0x47, 0xf0, 0xad, 0xd4, 0xa2, 0xaf, 0x9c, 0xa4, 0x72, 0xc0],
   [0xb7, 0xfd, 0x93, 0x26, 0x36, 0x3f, 0xf7, 0xcc, 0x34, 0xa5, 0xe5, 0xf1, 0x71, 0xd8, 0x31, 0x15],
   [0x04, 0xc7, 0x23, 0xc3, 0x18, 0x96, 0x05, 0x9a, 0x07, 0x12, 0x80, 0xe2, 0xeb, 0x27, 0xb2, 0x75],
   [0x09, 0x83, 0x2c, 0x1a, 0x1b, 0x6e, 0x5a, 0xa0, 0x52, 0x3b, 0xd6, 0xb3, 0x29, 0xe3, 0x2f, 0x84],
   [0x53, 0xd1, 0x00, 0xed, 0x20, 0xfc, 0xb1, 0x5b, 0x6a, 0xcb, 0xbe, 0x39, 0x4a, 0x4c, 0x58, 0xcf],
   [0xd0, 0xef, 0xaa, 0xfb, 0x43, 0x4d, 0x33, 0x85, 0x45, 0xf9, 0x02, 0x7f, 0x50, 0x3c, 0x9f, 0xa8],
   [0x51, 0xa3, 0x40, 0x8f, 0x92, 0x9d, 0x38, 0xf5, 0xbc, 0xb6, 0xda, 0x21, 0x10, 0xff, 0xf3, 0xd2],
   [0xcd, 0x0c, 0x13, 0xec, 0x5f, 0x97, 0x44, 0x17, 0xc4, 0xa7, 0x7e, 0x3d, 0x64, 0x5d, 0x19, 0x73],
   [0x60, 0x81, 0x4f, 0xdc, 0x22, 0x2a, 0x90, 0x88, 0x46, 0xee, 0xb8, 0x14, 0xde, 0x5e, 0x0b, 0xdb],
   [0xe0, 0x32, 0x3a, 0x0a, 0x49, 0x06, 0x24, 0x5c, 0xc2, 0xd3, 0xac, 0x62, 0x91, 0x95, 0xe4, 0x79],
   [0xe7, 0xc8, 0x37, 0x6d, 0x8d, 0xd5, 0x4e, 0xa9, 0x6c, 0x56, 0xf4, 0xea, 0x65, 0x7a, 0xae, 0x08],
   [0xba, 0x78, 0x25, 0x2e, 0x1c, 0xa6, 0xb4, 0xc6, 0xe8, 0xdd, 0x74, 0x1f, 0x4b, 0xbd, 0x8b, 0x8a],
   [0x70, 0x3e, 0xb5, 0x66, 0x48, 0x03, 0xf6, 0x0e, 0x61, 0x35, 0x57, 0xb9, 0x86, 0xc1, 0x1d, 0x9e],
   [0xe1, 0xf8, 0x98, 0x11, 0x69, 0xd9, 0x8e, 0x94, 0x9b, 0x1e, 0x87, 0xe9, 0xce, 0x55, 0x28, 0xdf],
   [0x8c, 0xa1, 0x89, 0x0d, 0xbf, 0xe6, 0x42, 0x68, 0x41, 0x99, 0x2d, 0x0f, 0xb0, 0x54, 0xbb, 0x16]]

def subByte (b : UInt8) : UInt8 := (sbox.getD (b.toNat / 16) []).getD (b.toNat % 16) 0

def xtime (b : UInt8) : UInt8 := if b.toNat < 128 then b <<< 1 else b <<< 1 ^^^ 0x1b

def shiftRows (s : Bytes) : Bytes := (List.range 16).map fun i => s.getD ((i + 4 * (i % 4)) % 16) 0

def mixColumns : Bytes → Bytes
  | a :: b :: c :: d :: s =>
    (xtime a ^^^ (xtime b ^^^ b) ^^^ c ^^^ d) :: (a ^^^ xtime b ^^^ (xtime c ^^^ c) ^^^ d) ::
      (a ^^^ b ^^^ xtime c ^^^ (xtime d ^^^ d)) :: ((xtime a ^^^ a) ^^^ b ^^^ c ^^^ xtime d) :: mixColumns s
  | s => s

def expand (nk : ℕ) : ℕ → UInt8 → List Bytes → List Bytes
  | 0, _, ws => ws
  | k + 1, rcon, ws =>
    let temp := ws.getD (ws.length - 1) []
    let back := ws.getD (ws.length - nk) []
    if ws.length % nk = 0 then
      let sub := (temp.rotateLeft 1).map subByte
      expand nk k (xtime rcon) (ws ++ [xorBytes back (xorBytes sub [rcon, 0, 0, 0])])
    else if 6 < nk ∧ ws.length % nk = 4 then expand nk k rcon (ws ++ [xorBytes back (temp.map subByte)])
    else expand nk k rcon (ws ++ [xorBytes back temp])

def schedule (key : Bytes) : List Bytes :=
  let nk := key.length / 4
  expand nk (4 * (nk + 7) - nk) 1 ((List.range nk).map fun i => (key.drop (4 * i)).take 4)

def roundKey (ws : List Bytes) (r : ℕ) : Bytes := ((ws.drop (4 * r)).take 4).flatten

def rounds (ws : List Bytes) : ℕ → ℕ → Bytes → Bytes
  | 0, r, s => xorBytes (shiftRows (s.map subByte)) (roundKey ws r)
  | k + 1, r, s => rounds ws k (r + 1) (xorBytes (mixColumns (shiftRows (s.map subByte))) (roundKey ws r))

def cipher (key : Bytes) (b : Block) : Block :=
  let ws := schedule key
  .ofBytes (rounds ws (key.length / 4 + 5) 1 (xorBytes b.bytes (roundKey ws 0)))

/-! ### The inverse cipher -/

/-- The inverse of the substitution, row by row. -/
def unsbox : List ℕ :=
  [0x52096ad53036a538bf40a39e81f3d7fb, 0x7ce339829b2fff87348e4344c4dee9cb,
   0x547b9432a6c2233dee4c950b42fac34e, 0x082ea16628d924b2765ba2496d8bd125,
   0x72f8f66486689816d4a45ccc5d65b692, 0x6c704850fdedb9da5e154657a78d9d84,
   0x90d8ab008cbcd30af7e45805b8b34506, 0xd02c1e8fca3f0f02c1afbd0301138a6b,
   0x3a9111414f67dcea97f2cfcef0b4e673, 0x96ac7422e7ad3585e2f937e81c75df6e,
   0x47f11a711d29c5896fb7620eaa18be1b, 0xfc563e4bc6d279209adbc0fe78cd5af4,
   0x1fdda8338807c731b11210592780ec5f, 0x60517fa919b54a0d2de57a9f93c99cef,
   0xa0e03b4dae2af5b0c8ebbb3c83539961, 0x172b047eba77d626e169146355210c7d]

def unsubByte (b : UInt8) : UInt8 := UInt8.ofNat (unsbox.getD (b.toNat / 16) 0 >>> (8 * (15 - b.toNat % 16)))

def unshiftRows (s : Bytes) : Bytes := (List.range 16).map fun i => s.getD ((i + 12 * (i % 4)) % 16) 0

def mul9 (b : UInt8) : UInt8 := xtime (xtime (xtime b)) ^^^ b
def mul11 (b : UInt8) : UInt8 := xtime (xtime (xtime b)) ^^^ xtime b ^^^ b
def mul13 (b : UInt8) : UInt8 := xtime (xtime (xtime b)) ^^^ xtime (xtime b) ^^^ b
def mul14 (b : UInt8) : UInt8 := xtime (xtime (xtime b)) ^^^ xtime (xtime b) ^^^ xtime b

def unmixColumns : Bytes → Bytes
  | a :: b :: c :: d :: s =>
    (mul14 a ^^^ mul11 b ^^^ mul13 c ^^^ mul9 d) :: (mul9 a ^^^ mul14 b ^^^ mul11 c ^^^ mul13 d) ::
      (mul13 a ^^^ mul9 b ^^^ mul14 c ^^^ mul11 d) :: (mul11 a ^^^ mul13 b ^^^ mul9 c ^^^ mul14 d) :: unmixColumns s
  | s => s

def unrounds (ws : List Bytes) : ℕ → ℕ → Bytes → Bytes
  | 0, r, s => (unshiftRows (xorBytes s (roundKey ws r))).map unsubByte
  | k + 1, r, s => (unshiftRows (unmixColumns (xorBytes (unrounds ws k (r + 1) s) (roundKey ws r)))).map unsubByte

/-- The inverse cipher. -/
def decipher (key : Bytes) (b : Block) : Block :=
  let ws := schedule key
  .ofBytes (xorBytes (unrounds ws (key.length / 4 + 5) 1 b.bytes) (roundKey ws 0))

lemma unsubByte_subByte (b : UInt8) : unsubByte (subByte b) = b := by
  have h : ∀ n < 256, unsubByte (subByte (UInt8.ofNat n)) = UInt8.ofNat n := by decide +kernel
  rw [← UInt8.ofNat_toNat (x := b)]
  exact h b.toNat b.toNat_lt

lemma unshiftRows_shiftRows : ∀ s : Bytes, s.length = 16 → unshiftRows (shiftRows s) = s
  | [_, _, _, _, _, _, _, _, _, _, _, _, _, _, _, _], _ => rfl

lemma xtime_eq (b : UInt8) : xtime b = b <<< 1 ^^^ if b.toNat.testBit 7 then 0x1b else 0 := by
  have hb := b.toNat_lt
  rw [xtime, Nat.testBit_eq_decide_div_mod_eq]
  by_cases h : b.toNat < 128
  · rw [if_pos h, if_neg (by simp; omega), UInt8.xor_zero]
  · rw [if_neg h, if_pos (by simp; omega)]

lemma xtime_xor (a b : UInt8) : xtime (a ^^^ b) = xtime a ^^^ xtime b := by
  have hself : ∀ x y z : UInt8, x ^^^ z ^^^ (y ^^^ z) = x ^^^ y := fun x y z => by
    rw [UInt8.xor_comm y, UInt8.xor_assoc, ← UInt8.xor_assoc z, UInt8.xor_self, UInt8.zero_xor]
  rw [xtime_eq, xtime_eq a, xtime_eq b, UInt8.toNat_xor, Nat.testBit_xor, UInt8.shiftLeft_xor]
  cases a.toNat.testBit 7 <;> cases b.toNat.testBit 7 <;> simp [hself]
  · rw [UInt8.xor_assoc]
  · ac_rfl

lemma mul_xor (a b : UInt8) : mul9 (a ^^^ b) = mul9 a ^^^ mul9 b ∧ mul11 (a ^^^ b) = mul11 a ^^^ mul11 b ∧
    mul13 (a ^^^ b) = mul13 a ^^^ mul13 b ∧ mul14 (a ^^^ b) = mul14 a ^^^ mul14 b := by
  unfold mul9 mul11 mul13 mul14
  simp only [xtime_xor]
  refine ⟨?_, ?_, ?_, ?_⟩ <;> ac_rfl

/-- The entries of the first row of the product of the two matrices. -/
lemma mul_row (a : UInt8) : mul14 (xtime a) ^^^ mul11 a ^^^ mul13 a ^^^ (mul9 (xtime a) ^^^ mul9 a) = a ∧
    mul14 (xtime a) ^^^ mul14 a ^^^ mul11 (xtime a) ^^^ (mul13 a ^^^ mul9 a) = 0 ∧
    mul14 a ^^^ mul11 (xtime a) ^^^ mul11 a ^^^ (mul13 (xtime a) ^^^ mul9 a) = 0 ∧
    mul14 a ^^^ mul11 a ^^^ mul13 (xtime a) ^^^ (mul13 a ^^^ mul9 (xtime a)) = 0 := by
  have h : ∀ n < 256, let a := UInt8.ofNat n
      mul14 (xtime a) ^^^ mul11 a ^^^ mul13 a ^^^ (mul9 (xtime a) ^^^ mul9 a) = a ∧
      mul14 (xtime a) ^^^ mul14 a ^^^ mul11 (xtime a) ^^^ (mul13 a ^^^ mul9 a) = 0 ∧
      mul14 a ^^^ mul11 (xtime a) ^^^ mul11 a ^^^ (mul13 (xtime a) ^^^ mul9 a) = 0 ∧
      mul14 a ^^^ mul11 a ^^^ mul13 (xtime a) ^^^ (mul13 a ^^^ mul9 (xtime a)) = 0 := by decide +kernel
  have ha := h a.toNat a.toNat_lt
  rwa [UInt8.ofNat_toNat] at ha

lemma unmix_row (a b c d : UInt8) : mul14 (xtime a ^^^ (xtime b ^^^ b) ^^^ c ^^^ d) ^^^
    mul11 (a ^^^ xtime b ^^^ (xtime c ^^^ c) ^^^ d) ^^^ mul13 (a ^^^ b ^^^ xtime c ^^^ (xtime d ^^^ d)) ^^^
      mul9 ((xtime a ^^^ a) ^^^ b ^^^ c ^^^ xtime d) = a := by
  obtain ⟨ha, -, -, -⟩ := mul_row a
  obtain ⟨-, hb, -, -⟩ := mul_row b
  obtain ⟨-, -, hc, -⟩ := mul_row c
  obtain ⟨-, -, -, hd⟩ := mul_row d
  have hsum := congrArg₂ (· ^^^ ·) (congrArg₂ (· ^^^ ·) ha hb) (congrArg₂ (· ^^^ ·) hc hd)
  simp only [UInt8.xor_zero] at hsum
  simp only [mul_xor]
  refine Eq.trans ?_ hsum
  ac_rfl

lemma unmixColumns_mixColumns (s : Bytes) : unmixColumns (mixColumns s) = s := by
  fun_induction mixColumns s with
  | case1 a b c d s ih =>
    rw [unmixColumns, unmix_row]
    congr 2
    · refine Eq.trans ?_ (unmix_row b c d a)
      ac_rfl
    congr 1
    · refine Eq.trans ?_ (unmix_row c d a b)
      ac_rfl
    congr 1
    · refine Eq.trans ?_ (unmix_row d a b c)
      ac_rfl
  | case2 s h =>
    unfold unmixColumns
    split
    · next a b c d s => exact absurd rfl (h a b c d s)
    · rfl

lemma length_shiftRows (s : Bytes) : (shiftRows s).length = 16 := by simp [shiftRows]

lemma length_mixColumns (s : Bytes) : (mixColumns s).length = s.length := by
  fun_induction mixColumns s with
  | case1 a b c d s ih => simp [ih]
  | case2 s h => rfl

section Rounds

variable {ws : List Bytes} {s : Bytes} {k r : ℕ}

lemma unround_eq (hs : s.length = 16) : (unshiftRows (shiftRows (s.map subByte))).map unsubByte = s := by
  rw [unshiftRows_shiftRows _ (by simpa using hs), map_map]
  exact (map_congr_left fun b _ => unsubByte_subByte b).trans (map_id' s)

lemma length_rounds (hk : ∀ i, r ≤ i → i ≤ r + k → (roundKey ws i).length = 16) (hs : s.length = 16) :
    (rounds ws k r s).length = 16 := by
  induction k generalizing r s with
  | zero => rw [rounds, length_xorBytes, length_shiftRows, hk r le_rfl le_rfl, Nat.min_self]
  | succ k ih =>
    refine ih (fun i h1 h2 => hk i (by omega) (by omega)) ?_
    rw [length_xorBytes, length_mixColumns, length_shiftRows, hk r le_rfl (by omega), Nat.min_self]

lemma unrounds_rounds (hk : ∀ i, r ≤ i → i ≤ r + k → (roundKey ws i).length = 16) (hs : s.length = 16) :
    unrounds ws k r (rounds ws k r s) = s := by
  induction k generalizing r s with
  | zero =>
    have hkey := hk r le_rfl le_rfl
    rw [rounds, unrounds, xorBytes_xorBytes (by rw [length_shiftRows, hkey]), unround_eq hs]
  | succ k ih =>
    have hkey := hk r le_rfl (by omega)
    have hmix : (mixColumns (shiftRows (s.map subByte))).length = 16 := by rw [length_mixColumns, length_shiftRows]
    rw [rounds, unrounds, ih (fun i h1 h2 => hk i (by omega) (by omega)) (by rw [length_xorBytes, hmix, hkey, Nat.min_self]),
      xorBytes_xorBytes (by rw [hmix, hkey]), unmixColumns_mixColumns, unround_eq hs]

end Rounds

/-- The inverse cipher is the inverse of the cipher, for a key with round keys of 16 bytes. -/
lemma decipher_cipher {key : Bytes} (hkey : ∀ i ≤ key.length / 4 + 6, (roundKey (schedule key) i).length = 16) (b : Block) :
    decipher key (cipher key b) = b := by
  have hfirst : b.bytes.length = (roundKey (schedule key) 0).length := by rw [b.length_bytes, hkey 0 (Nat.zero_le _)]
  have hin : (xorBytes b.bytes (roundKey (schedule key) 0)).length = 16 := by
    rw [length_xorBytes, ← hfirst, b.length_bytes, Nat.min_self]
  have hk : ∀ i, 1 ≤ i → i ≤ 1 + (key.length / 4 + 5) → (roundKey (schedule key) i).length = 16 :=
    fun i _ hi => hkey i (by omega)
  have hout := Block.bytes_ofBytes (length_rounds hk hin)
  unfold decipher cipher
  dsimp only
  rw [hout, unrounds_rounds hk hin, xorBytes_xorBytes hfirst, Block.ofBytes_bytes]

lemma cipher_injective {key : Bytes} (hkey : ∀ i ≤ key.length / 4 + 6, (roundKey (schedule key) i).length = 16) :
    Function.Injective (cipher key) := Function.LeftInverse.injective (decipher_cipher hkey)

end Aes

def gfMul (x y : Block) : Block :=
  let a := beNat x.bytes
  let step := fun (s : ℕ × ℕ) (i : ℕ) =>
    (if a.testBit (127 - i) then s.1 ^^^ s.2 else s.1, if s.2.testBit 0 then s.2 >>> 1 ^^^ 0xe1 <<< 120 else s.2 >>> 1)
  ⟨be 16 ((List.range 128).foldl step (0, beNat y.bytes)).1, by simp⟩

end LwftpCe.Lib
