import LwftpCe.Lib.BigEndian
import Mathlib.Data.List.GetD
import Mathlib.Tactic.LinearCombination

/-!
# Blocks, counter mode and GCM

The mode of NIST SP 800-38D over an arbitrary block cipher `E` and an arbitrary product `mul` of blocks.

* `hashBlocks`: GHASH of the whole blocks of a string; `absorbed` also has the bytes behind them (`absorbed_append`);
* `keyByte`, `ctr`: the bytes of the keystream, and a text with the keystream from a position on;
* `FieldProduct mul`: the product of blocks is the product of a field whose addition is the exclusive or.
-/

namespace LwftpCe.Lib

open List Function

def xorBytes (a b : Bytes) : Bytes := List.zipWith (· ^^^ ·) a b

@[simp] lemma length_xorBytes (a b : Bytes) : (xorBytes a b).length = min a.length b.length := length_zipWith

lemma xorBytes_xorBytes {a b : Bytes} (h : a.length = b.length) : xorBytes (xorBytes a b) b = a := by
  refine ext_getElem (by simp [h]) fun i hi _ => ?_
  simp only [xorBytes, getElem_zipWith, UInt8.xor_assoc, UInt8.xor_self, UInt8.xor_zero]

@[ext] structure Block where
  bytes : Bytes
  length_bytes : bytes.length = 16
deriving DecidableEq

attribute [simp] Block.length_bytes

namespace Block

variable {a b : Block}

instance : Zero Block := ⟨⟨List.replicate 16 0, rfl⟩⟩

instance : XorOp Block := ⟨fun a b => ⟨xorBytes a.bytes b.bytes, by simp⟩⟩

lemma bytes_xor (a b : Block) : (a ^^^ b).bytes = xorBytes a.bytes b.bytes := rfl

lemma bytes_zero : (0 : Block).bytes = replicate 16 0 := rfl

def byte (a : Block) (i : ℕ) : UInt8 := a.bytes.getD i 0

lemma ext_byte (h : ∀ i < 16, a.byte i = b.byte i) : a = b := by
  refine Block.ext (ext_getElem (by simp) fun i hi hi' => ?_)
  have hbyte := h i (by simpa using hi)
  rwa [byte, byte, getD_eq_getElem _ _ hi, getD_eq_getElem _ _ hi'] at hbyte

lemma byte_xor (a b : Block) (i : ℕ) : (a ^^^ b).byte i = a.byte i ^^^ b.byte i := by
  rcases Nat.lt_or_ge i 16 with hi | hi
  · simp [byte, bytes_xor, xorBytes, getD_eq_getElem?_getD, hi]
  · simp [byte, bytes_xor, xorBytes, getD_eq_getElem?_getD, hi]

lemma byte_zero (i : ℕ) : (0 : Block).byte i = 0 := by
  simp only [byte, bytes_zero, getD_eq_getElem?_getD, getElem?_replicate]
  split <;> rfl

protected lemma xor_comm (a b : Block) : a ^^^ b = b ^^^ a :=
  ext_byte fun i _ => by rw [byte_xor, byte_xor, UInt8.xor_comm]

protected lemma xor_assoc (a b c : Block) : a ^^^ b ^^^ c = a ^^^ (b ^^^ c) :=
  ext_byte fun i _ => by simp only [byte_xor, UInt8.xor_assoc]

@[simp] protected lemma xor_self (a : Block) : a ^^^ a = 0 :=
  ext_byte fun i _ => by rw [byte_xor, byte_zero, UInt8.xor_self]

@[simp] protected lemma xor_zero (a : Block) : a ^^^ 0 = a :=
  ext_byte fun i _ => by rw [byte_xor, byte_zero, UInt8.xor_zero]

lemma xor_right_inj {c : Block} : a ^^^ b = a ^^^ c ↔ b = c := by
  refine ⟨fun h => ?_, congrArg _⟩
  have hcancel : ∀ x : Block, a ^^^ (a ^^^ x) = x := fun x => by
    rw [← Block.xor_assoc, Block.xor_self, Block.xor_comm, Block.xor_zero]
  rw [← hcancel b, h, hcancel]

def ofBytes (bs : Bytes) : Block := ⟨bs.take 16 ++ List.replicate (16 - bs.length) 0, by simp; omega⟩

lemma ofBytes_bytes (a : Block) : ofBytes a.bytes = a := by
  simp [ofBytes, take_of_length_le]

lemma bytes_ofBytes {bs : Bytes} (h : bs.length = 16) : (ofBytes bs).bytes = bs := by
  simp [ofBytes, take_of_length_le, h]

lemma ofBytes_append {bs : Bytes} (h : 16 ≤ bs.length) (cs : Bytes) : ofBytes (bs ++ cs) = ofBytes bs := by
  simp [ofBytes, take_append_of_le_length h, Nat.sub_eq_zero_of_le h, show 16 - (bs.length + cs.length) = 0 by omega]

end Block

section Hash

variable (mul : Block → Block → Block) (h : Block)

def hashBlocks (y : Block) (d : Bytes) : Block :=
  (List.range (d.length / 16)).foldl (fun y i => mul (y ^^^ .ofBytes (d.drop (16 * i))) h) y

def absorbed (y : Block) (d : Bytes) : Block × Bytes := (hashBlocks mul h y d, d.drop (16 * (d.length / 16)))

variable {mul h} {y : Block} {d : Bytes} {e : Bytes}

lemma hashBlocks_short (hd : d.length < 16) : hashBlocks mul h y d = y := by
  simp [hashBlocks, Nat.div_eq_of_lt hd]

lemma hashBlocks_append (hd : 16 ∣ d.length) : hashBlocks mul h y (d ++ e) = hashBlocks mul h (hashBlocks mul h y d) e := by
  obtain ⟨k, hk⟩ := hd
  have hlen : (d ++ e).length / 16 = k + e.length / 16 := by rw [length_append]; omega
  have hdk : d.length / 16 = k := by omega
  unfold hashBlocks
  rw [hlen, hdk, range_add, foldl_append, foldl_map]
  congr 1
  · funext y i
    rw [show 16 * (k + i) = d.length + 16 * i by omega, drop_append, drop_of_length_le (by omega),
      nil_append, Nat.add_sub_cancel_left]
  · refine foldl_ext _ _ _ fun y i hi => ?_
    have hi := mem_range.1 hi
    rw [drop_append_of_le_length (by omega), Block.ofBytes_append (by simp; omega)]

lemma hashBlocks_block (hd : d.length = 16) : hashBlocks mul h y d = mul (y ^^^ .ofBytes d) h := by
  simp [hashBlocks, hd]

lemma hashBlocks_tail (hd : 16 ∣ d.length) (he : e.length < 16) : hashBlocks mul h y (d ++ e) = hashBlocks mul h y d := by
  rw [hashBlocks_append hd, hashBlocks_short he]

lemma length_absorbed (y : Block) (d : Bytes) : (absorbed mul h y d).2.length = d.length % 16 := by
  simp only [absorbed, length_drop]
  omega

lemma absorbed_append (y : Block) (d e : Bytes) :
    absorbed mul h y (d ++ e) = absorbed mul h (absorbed mul h y d).1 ((absorbed mul h y d).2 ++ e) := by
  -- the whole blocks `w` of `d` and the bytes `r` behind them
  obtain ⟨w, r, rfl, hw, hr⟩ : ∃ w r, d = w ++ r ∧ 16 ∣ w.length ∧ r.length < 16 := by
    refine ⟨d.take (16 * (d.length / 16)), d.drop (16 * (d.length / 16)), by simp, ?_, by simp; omega⟩
    rw [length_take, Nat.min_eq_left (Nat.mul_div_le ..)]
    exact Nat.dvd_mul_right ..
  have hdiv : 16 * ((w ++ r).length / 16) = w.length := by rw [length_append]; omega
  have hdiv' : 16 * ((w ++ (r ++ e)).length / 16) = w.length + 16 * ((r ++ e).length / 16) := by
    simp only [length_append]
    omega
  have hrest : (absorbed mul h y (w ++ r)).2 = r := by
    simp only [absorbed]
    rw [hdiv, drop_left]
  have hhash : (absorbed mul h y (w ++ r)).1 = hashBlocks mul h y w := hashBlocks_tail hw hr
  rw [hrest, hhash, append_assoc]
  simp only [absorbed]
  rw [hashBlocks_append hw, hdiv', drop_append, drop_of_length_le (by omega), nil_append,
    Nat.add_sub_cancel_left]

lemma absorbed_whole (hd : 16 ∣ d.length) : absorbed mul h y d = (hashBlocks mul h y d, []) := by
  simp only [absorbed, Prod.mk.injEq, true_and]
  exact drop_of_length_le (by omega)

end Hash

def zeroPad (d : Bytes) : Bytes := d ++ List.replicate ((16 - d.length % 16) % 16) 0

lemma dvd_length_zeroPad (d : Bytes) : 16 ∣ (zeroPad d).length := by
  simp only [zeroPad, length_append, length_replicate]
  omega

def inc32 (b : Block) : Block :=
  ⟨b.bytes.take 12 ++ be 4 (beNat (b.bytes.drop 12) + 1), by simp⟩

section Ctr

variable (E : Block → Block) (icb : Block)

def keyByte (i : ℕ) : UInt8 := (E (inc32^[i / 16] icb)).byte (i % 16)

def ctr : ℕ → Bytes → Bytes
  | _, [] => []
  | n, b :: d => (b ^^^ keyByte E icb n) :: ctr (n + 1) d

variable {E icb}

@[simp] lemma ctr_nil (n : ℕ) : ctr E icb n [] = [] := rfl

@[simp] lemma length_ctr (n : ℕ) (d : Bytes) : (ctr E icb n d).length = d.length := by
  induction d generalizing n with
  | nil => rfl
  | cons b d ih => simp [ctr, ih]

lemma ctr_append (n : ℕ) (d e : Bytes) : ctr E icb n (d ++ e) = ctr E icb n d ++ ctr E icb (n + d.length) e := by
  induction d generalizing n with
  | nil => simp
  | cons b d ih => simp [ctr, ih, Nat.add_assoc, Nat.add_comm 1]

lemma ctr_ctr (n : ℕ) (d : Bytes) : ctr E icb n (ctr E icb n d) = d := by
  induction d generalizing n with
  | nil => rfl
  | cons b d ih => rw [ctr, ctr, ih, UInt8.xor_assoc, UInt8.xor_self, UInt8.xor_zero]

lemma keyByte_add (q i : ℕ) : keyByte E icb (16 * q + i) = keyByte E (inc32^[q] icb) i := by
  unfold keyByte
  rw [← iterate_add_apply, show (16 * q + i) / 16 = i / 16 + q by omega, show (16 * q + i) % 16 = i % 16 by omega]

lemma ctr_shift (q n : ℕ) (d : Bytes) : ctr E icb (16 * q + n) d = ctr E (inc32^[q] icb) n d := by
  induction d generalizing n with
  | nil => rfl
  | cons b d ih => rw [ctr, ctr, keyByte_add, Nat.add_assoc, ih]

lemma xorBytes_eq_ctr {r : ℕ} {d : Bytes} (hd : r + d.length ≤ 16) : xorBytes d ((E icb).bytes.drop r) = ctr E icb r d := by
  induction d generalizing r with
  | nil => rfl
  | cons b d ih =>
    have hr : r < 16 := by simp at hd; omega
    have hlt : r < (E icb).bytes.length := by simpa using hr
    have hbyte : keyByte E icb r = (E icb).bytes.get ⟨r, hlt⟩ := by
      simp [keyByte, Block.byte, Nat.div_eq_of_lt hr, Nat.mod_eq_of_lt hr, hr]
    rw [drop_eq_getElem_cons hlt, ctr, hbyte, ← ih (by simp at hd ⊢; omega)]
    rfl

end Ctr

section Gcm

variable (E : Block → Block) (mul : Block → Block → Block)

def preCounter (iv : Bytes) : Block :=
  if iv.length = 12 then .ofBytes (iv ++ [0, 0, 0, 1])
  else hashBlocks mul (E 0) 0 (zeroPad iv ++ List.replicate 8 0 ++ be 8 (8 * iv.length))

def tagInput (aad ct : Bytes) : Bytes := zeroPad aad ++ zeroPad ct ++ be 8 (8 * aad.length) ++ be 8 (8 * ct.length)

def gcm (iv aad pt : Bytes) : Bytes × Block :=
  let ct := ctr E (inc32 (preCounter E mul iv)) 0 pt
  (ct, E (preCounter E mul iv) ^^^ hashBlocks mul (E 0) 0 (tagInput aad ct))

end Gcm

/-- The product of blocks is the product of a field, and the exclusive or its sum. -/
structure FieldProduct (mul : Block → Block → Block) where
  F : Type
  field : Field F
  toField : Block ≃ F
  map_xor : ∀ a b, toField (a ^^^ b) = toField a + toField b
  map_mul : ∀ a b, toField (mul a b) = toField a * toField b

namespace FieldProduct

attribute [instance] FieldProduct.field

variable {mul : Block → Block → Block} (gf : FieldProduct mul) {h : Block}

def one : Block := gf.toField.symm 1

lemma map_zero : gf.toField 0 = 0 := by
  have h := gf.map_xor 0 0
  exact left_eq_add.1 h

lemma map_ne_zero (h0 : h ≠ 0) : gf.toField h ≠ 0 := by
  rw [← gf.map_zero]
  exact fun heq => h0 (gf.toField.injective heq)

lemma zero_ne_one : 0 ≠ gf.one := by
  intro heq
  have hone := congrArg gf.toField heq
  rw [gf.map_zero, one, Equiv.apply_symm_apply] at hone
  exact NeZero.ne' _ hone

include gf in
lemma mul_right_cancel {a b : Block} (h0 : h ≠ 0) (heq : mul a h = mul b h) : a = b := by
  have hfield := congrArg gf.toField heq
  rw [gf.map_mul, gf.map_mul] at hfield
  exact gf.toField.injective (mul_right_cancel₀ (gf.map_ne_zero h0) hfield)

lemma eq_of_once_more {s t l l' : Block} (h0 : h ≠ 0) (h1 : h ≠ gf.one)
    (hs : mul (mul s h ^^^ l') h = mul (s ^^^ l) h) (ht : mul (mul t h ^^^ l') h = mul (t ^^^ l) h) : s = t := by
  have hs := congrArg gf.toField (gf.mul_right_cancel h0 hs)
  have ht := congrArg gf.toField (gf.mul_right_cancel h0 ht)
  rw [gf.map_xor, gf.map_xor, gf.map_mul] at hs ht
  have hone : gf.toField h - 1 ≠ 0 := by
    intro heq
    refine h1 (gf.toField.injective ?_)
    rw [one, Equiv.apply_symm_apply]
    exact sub_eq_zero.1 heq
  refine gf.toField.injective (mul_right_cancel₀ hone ?_)
  linear_combination hs - ht

end FieldProduct

end LwftpCe.Lib
