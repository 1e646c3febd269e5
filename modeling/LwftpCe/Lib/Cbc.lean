import LwftpCe.Lib.Gcm

/-!
# Cipher block chaining with PKCS#7 padding

`Cbc.encrypt` and `Cbc.decrypt` on lists of blocks, over an arbitrary block cipher, and the padding of a string to a whole
number of blocks.
-/

namespace LwftpCe.Lib

open List

variable {d : Bytes}

def blocksOf (d : Bytes) : List Block := (List.range (d.length / 16)).map fun i => .ofBytes (d.drop (16 * i))

def bytesOf (bs : List Block) : Bytes := bs.flatMap Block.bytes

@[simp] lemma length_bytesOf (bs : List Block) : (bytesOf bs).length = 16 * bs.length := by
  induction bs with
  | nil => rfl
  | cons b bs ih =>
    simp only [bytesOf, flatMap_cons, length_append, Block.length_bytes, length_cons] at ih ⊢
    omega

lemma bytesOf_concat (bs : List Block) (b : Block) : bytesOf (bs ++ [b]) = bytesOf bs ++ b.bytes := by simp [bytesOf]

lemma bytesOf_take {k : ℕ} (hk : 16 * k ≤ d.length) :
    bytesOf ((List.range k).map fun i => .ofBytes (d.drop (16 * i))) = d.take (16 * k) := by
  induction k with
  | zero => simp [bytesOf]
  | succ k ih =>
    have hblock : (Block.ofBytes (d.drop (16 * k))).bytes = (d.drop (16 * k)).take 16 := by
      have hlen : 16 - (d.drop (16 * k)).length = 0 := by simp; omega
      simp only [Block.ofBytes, hlen, replicate_zero, append_nil]
    rw [range_succ, map_append, map_singleton, bytesOf_concat, ih (by omega), hblock, ← take_add]
    rfl

lemma bytesOf_blocksOf (h : 16 ∣ d.length) : bytesOf (blocksOf d) = d := by
  rw [blocksOf, bytesOf_take (by omega), take_of_length_le (by omega)]

def pkcs7 (d : Bytes) : Bytes := d ++ List.replicate (16 - d.length % 16) (UInt8.ofNat (16 - d.length % 16))

lemma length_pkcs7 (d : Bytes) : (pkcs7 d).length = 16 * (d.length / 16 + 1) := by
  simp only [pkcs7, length_append, length_replicate]
  omega

def Cbc.encrypt (E : Block → Block) : Block → List Block → List Block
  | _, [] => []
  | iv, b :: bs => E (b ^^^ iv) :: Cbc.encrypt E (E (b ^^^ iv)) bs

def Cbc.decrypt (D : Block → Block) : Block → List Block → List Block
  | _, [] => []
  | iv, c :: cs => (D c ^^^ iv) :: Cbc.decrypt D c cs

variable {E D : Block → Block}

@[simp] lemma Cbc.length_encrypt (iv : Block) (bs : List Block) : (Cbc.encrypt E iv bs).length = bs.length := by
  induction bs generalizing iv with
  | nil => rfl
  | cons b bs ih => simp [Cbc.encrypt, ih]

lemma Cbc.encrypt_concat (iv : Block) (bs : List Block) (b : Block) : Cbc.encrypt E iv (bs ++ [b]) =
    Cbc.encrypt E iv bs ++ [E (b ^^^ (Cbc.encrypt E iv bs).getLastD iv)] := by
  induction bs generalizing iv with
  | nil => rfl
  | cons a bs ih => simp only [cons_append, Cbc.encrypt, ih, getLastD_cons]

lemma Cbc.decrypt_concat (iv : Block) (cs : List Block) (c : Block) : Cbc.decrypt D iv (cs ++ [c]) =
    Cbc.decrypt D iv cs ++ [D c ^^^ cs.getLastD iv] := by
  induction cs generalizing iv with
  | nil => rfl
  | cons a cs ih => simp only [cons_append, Cbc.decrypt, ih, getLastD_cons]

lemma Cbc.decrypt_encrypt (hinv : ∀ b, D (E b) = b) (iv : Block) (bs : List Block) : Cbc.decrypt D iv (Cbc.encrypt E iv bs) = bs := by
  induction bs generalizing iv with
  | nil => rfl
  | cons b bs ih =>
    rw [Cbc.encrypt, Cbc.decrypt, hinv, ih, Block.xor_assoc, Block.xor_self, Block.xor_zero]

end LwftpCe.Lib
