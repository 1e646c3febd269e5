import LwftpCe.Lib.Chain
import LwftpCe.Lib.Gcm

/-!
# The encodings of RFC 8017

MGF1 (B.2.1), EMSA-PSS-VERIFY (9.1.2) for `emBits = 8 * emLen - 1` and a salt of the length of the digests, and the
encodings that EME-OAEP decodes (7.1.2), over any hash with digests of 32 bytes.
-/

namespace LwftpCe.Lib

open List

namespace Pkcs1

section Defs

variable (hash : Bytes → Bytes)

def mgf1 (seed : Bytes) (len : ℕ) : Bytes :=
  ((List.range ((len + 31) / 32)).flatMap fun i => hash (seed ++ be 4 i)).take len

def clearTop : Bytes → Bytes
  | [] => []
  | b :: bs => (b &&& 0x7f) :: bs

def pssH (em : Bytes) : Bytes := (em.drop (em.length - 33)).take 32

def pssDb (em : Bytes) : Bytes := clearTop (xorBytes (em.take (em.length - 33)) (mgf1 hash (pssH em) (em.length - 33)))

def pssVerify (mHash em : Bytes) : Bool :=
  if em.length < 32 + 32 + 2 then false
  else if em.getLast? ≠ some 0xbc then false
  else if em.headD 0 &&& 0x80 ≠ 0 then false
  else
    let db := pssDb hash em
    let psLen := em.length - 32 - 32 - 2
    if db.take psLen ≠ List.replicate psLen 0 ∨ db[psLen]? ≠ some 1 then false
    else
      let salt := db.drop (db.length - 32)
      hash (List.replicate 8 0 ++ mHash ++ salt) = pssH em

def oaepSeed (em : Bytes) : Bytes := xorBytes ((em.drop 1).take 32) (mgf1 hash (em.drop 33) 32)

def oaepDb (em : Bytes) : Bytes := xorBytes (em.drop 33) (mgf1 hash (oaepSeed hash em) (em.length - 33))

def OaepEncodes (label em message : Bytes) : Prop :=
  em.head? = some 0 ∧ ∃ n, oaepDb hash em = hash label ++ List.replicate n 0 ++ 0x01 :: message

def oaepBlock (label message : Bytes) (len : ℕ) : Bytes :=
  hash label ++ (List.replicate (len - message.length - 66) 0 ++ 0x01 :: message)

def oaepEncode (label seed message : Bytes) (len : ℕ) : Bytes :=
  let maskedDb := xorBytes (oaepBlock hash label message len) (mgf1 hash seed (len - 33))
  0 :: xorBytes seed (mgf1 hash maskedDb 32) ++ maskedDb

end Defs

variable {hash : Bytes → Bytes}

lemma pssVerify_iff {mHash em : Bytes} (h : 66 ≤ em.length) : pssVerify hash mHash em = true ↔
    em.getLast? = some 0xbc ∧ em.headD 0 &&& 0x80 = 0 ∧
      ((pssDb hash em).take (em.length - 66) = replicate (em.length - 66) 0 ∧ (pssDb hash em)[em.length - 66]? = some 1) ∧
      hash (replicate 8 0 ++ mHash ++ (pssDb hash em).drop ((pssDb hash em).length - 32)) = pssH em := by
  unfold pssVerify
  rw [if_neg (by omega), show em.length - 32 - 32 - 2 = em.length - 66 by omega]
  simp only [ne_eq, ite_not, Bool.if_false_right, Bool.if_false_left, Bool.and_eq_true, decide_eq_true_eq, Bool.not_eq_true',
    decide_eq_false_iff_not, not_or, not_not]

lemma length_mgf1 (hlen : ∀ x, (hash x).length = 32) (seed : Bytes) (len : ℕ) : (mgf1 hash seed len).length = len := by
  rw [mgf1, length_take, length_chain fun _ => hlen _]
  omega

lemma length_pssDb (hlen : ∀ x, (hash x).length = 32) (em : Bytes) : (pssDb hash em).length = em.length - 33 := by
  have hx : (xorBytes (em.take (em.length - 33)) (mgf1 hash (pssH em) (em.length - 33))).length = em.length - 33 := by
    rw [length_xorBytes, length_mgf1 hlen, length_take]
    omega
  unfold pssDb
  generalize xorBytes (em.take (em.length - 33)) (mgf1 hash (pssH em) (em.length - 33)) = x at hx
  cases x with
  | nil | cons _ _ => exact hx

lemma length_oaepDb (hlen : ∀ x, (hash x).length = 32) (em : Bytes) : (oaepDb hash em).length = em.length - 33 := by
  rw [oaepDb, length_xorBytes, length_mgf1 hlen, length_drop, Nat.min_self]

section Encode

variable {label seed message : Bytes} {len : ℕ} (hlen : ∀ x, (hash x).length = 32) (hseed : seed.length = 32)
  (hfit : message.length + 66 ≤ len)

include hlen hfit

lemma length_oaepBlock : (oaepBlock hash label message len).length = len - 33 := by
  simp only [oaepBlock, length_append, hlen, length_replicate, length_cons]
  omega

include hseed

lemma length_oaepEncode : (oaepEncode hash label seed message len).length = len := by
  simp only [oaepEncode, length_append, length_cons, length_xorBytes, length_mgf1 hlen, length_oaepBlock hlen hfit, hseed]
  omega

lemma oaepDb_encode : oaepDb hash (oaepEncode hash label seed message len) = oaepBlock hash label message len := by
  have hblock : (oaepBlock hash label message len).length = len - 33 := length_oaepBlock hlen hfit
  obtain ⟨em, hem⟩ : ∃ em, oaepEncode hash label seed message len = em := ⟨_, rfl⟩
  have hlength : em.length = len := hem ▸ length_oaepEncode hlen hseed hfit
  obtain ⟨db, hdb⟩ : ∃ db, xorBytes (oaepBlock hash label message len) (mgf1 hash seed (len - 33)) = db := ⟨_, rfl⟩
  have hmasked : (xorBytes seed (mgf1 hash db 32)).length = 32 := by
    rw [length_xorBytes, length_mgf1 hlen, hseed]
    rfl
  have hsplit : em = 0 :: xorBytes seed (mgf1 hash db 32) ++ db := by rw [← hem, oaepEncode, hdb]
  have hdrop : em.drop 33 = db := hsplit ▸ drop_left' (by rw [length_cons, hmasked])
  have htake : (em.drop 1).take 32 = xorBytes seed (mgf1 hash db 32) := hsplit ▸ take_left' hmasked
  have hunmasked : oaepSeed hash em = seed := by
    rw [oaepSeed, htake, hdrop, xorBytes_xorBytes (by rw [hseed, length_mgf1 hlen])]
  rw [hem, oaepDb, hunmasked, hdrop, hlength, ← hdb, xorBytes_xorBytes (by rw [hblock, length_mgf1 hlen])]

end Encode

end Pkcs1

end LwftpCe.Lib
