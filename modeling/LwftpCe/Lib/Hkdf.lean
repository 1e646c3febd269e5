import LwftpCe.Lib.Chain
import LwftpCe.Lib.Wire

/-!
# HMAC, HKDF and the labels of TLS 1.3

RFC 2104, RFC 5869 and RFC 8446 (7.1) over any hash with blocks of 64 bytes and digests of 32 bytes.  Where the hash has no
collision among the strings that two HMACs are computed from, the HMACs of different messages are different.
-/

namespace LwftpCe.Lib

open List

def NoCollision (hash : Bytes → Bytes) (s : List Bytes) : Prop := s.Pairwise fun x y => hash x = hash y → x = y

instance (hash : Bytes → Bytes) (s : List Bytes) : Decidable (NoCollision hash s) :=
  inferInstanceAs (Decidable (s.Pairwise fun x y => hash x = hash y → x = y))

namespace Hkdf

section Defs

variable (hash : Bytes → Bytes)

def keyBlock (key : Bytes) : Bytes :=
  let k := if 64 < key.length then hash key else key
  k ++ List.replicate (64 - k.length) 0

def innerInput (key m : Bytes) : Bytes := (keyBlock hash key).map (0x36 ^^^ ·) ++ m

def outerInput (key m : Bytes) : Bytes := (keyBlock hash key).map (0x5c ^^^ ·) ++ hash (innerInput hash key m)

def hmac (key m : Bytes) : Bytes := hash (outerInput hash key m)

def extract (salt ikm : Bytes) : Bytes := hmac hash (if salt = [] then List.replicate 32 0 else salt) ikm

def block (prk info : Bytes) : ℕ → Bytes
  | 0 => []
  | i + 1 => hmac hash prk (block prk info i ++ info ++ [UInt8.ofNat (i + 1)])

def blocks (prk info : Bytes) (n : ℕ) : Bytes := (List.range n).flatMap fun i => block hash prk info (i + 1)

def expand (prk info : Bytes) (len : ℕ) : Bytes := (blocks hash prk info ((len + 31) / 32)).take len

def expandLabel (secret label context : Bytes) (len : ℕ) : Bytes :=
  expand hash secret (be 2 len ++ vec 1 (ascii "tls13 " ++ label) ++ vec 1 context) len

def deriveSecret (secret label messages : Bytes) : Bytes := expandLabel hash secret label (hash messages) 32

/-! The key schedule of RFC 8446 (7.1) with a pre-shared key and without a key exchange. -/

def nextSecret (secret : Bytes) : Bytes := extract hash (deriveSecret hash secret (ascii "derived") []) (List.replicate 32 0)

def handshakeSecret (psk : Bytes) : Bytes := nextSecret hash (extract hash [] psk)

def finishedKey (secret : Bytes) : Bytes := expandLabel hash secret (ascii "finished") [] 32

def verifyData (secret messages : Bytes) : Bytes := hmac hash (finishedKey hash secret) (hash messages)

end Defs

variable {hash : Bytes → Bytes} {k k' m m' : Bytes}

lemma length_keyBlock (hlen : ∀ x, (hash x).length = 32) (k : Bytes) : (keyBlock hash k).length = 64 := by
  unfold keyBlock
  by_cases h : 64 < k.length
  · simp [h, hlen]
  · simp [h]; omega

lemma length_expandLabel (hlen : ∀ x, (hash x).length = 32) (secret label context : Bytes) (len : ℕ) :
    (expandLabel hash secret label context len).length = len := by
  rw [expandLabel, expand, length_take, blocks, length_chain fun i => show (block hash _ _ (i + 1)).length = 32 from hlen _]
  omega

lemma hmac_inj (hlen : ∀ x, (hash x).length = 32)
    (hout : hash (outerInput hash k m) = hash (outerInput hash k' m') → outerInput hash k m = outerInput hash k' m')
    (hin : hash (innerInput hash k m) = hash (innerInput hash k' m') → innerInput hash k m = innerInput hash k' m')
    (h : hmac hash k m = hmac hash k' m') : m = m' := by
  have hkeys : ∀ c : UInt8, ((keyBlock hash k).map (c ^^^ ·)).length = ((keyBlock hash k').map (c ^^^ ·)).length := by
    intro c
    rw [length_map, length_map, length_keyBlock hlen, length_keyBlock hlen]
  have hinner := (append_inj (hout h) (hkeys 0x5c)).2
  exact (append_inj (hin hinner) (hkeys 0x36)).2

end Hkdf

end LwftpCe.Lib
