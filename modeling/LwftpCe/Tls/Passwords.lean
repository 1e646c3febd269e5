import LwftpCe.Lib.Memory
import LwftpCe.Lib.Pbkdf2
import LwftpCe.Lib.Uint
import LwftpCe.Tls.Hkdf

/-!
# Keys from passwords

`tls_pbkdf2` of `passwords.c` with SHA-256.  It keeps the HMAC context behind the password and the one behind the salt, and
copies them for every block and round.  `pbkdf2_conforms`: it writes the key of RFC 8018.
-/

namespace LwftpCe.Tls

open Lib List Function Pbkdf2

section Model

variable (hash : Hash)

def pbkdf2Round (initial : HmacCtx) (x : Bytes × Bytes) : Bytes × Bytes :=
  let hashBuffer := (tlsHmacDigest hash (tlsHmacUpdate initial x.1)).val
  (hashBuffer, xorBytes x.2 hashBuffer)

def pbkdf2Block (initial counter : HmacCtx) (rounds ctr : ℕ) : Bytes :=
  let hashBuffer := (tlsHmacDigest hash (tlsHmacUpdate counter (be 4 ctr))).val
  ((pbkdf2Round hash initial)^[rounds - 1] (hashBuffer, hashBuffer)).2

def pbkdf2Loop (initial counter : HmacCtx) (keylen rounds : ℕ) : ℕ → ℕ → ℕ → Mem → Option Mem
  | 0, _, _, _ => none
  | fuel + 1, outlen, ctr, key =>
    if outlen < keylen then
      let copylen := if keylen - outlen < 32 then keylen - outlen else 32
      let key := key.write outlen ((pbkdf2Block hash initial counter rounds ctr).take copylen)
      pbkdf2Loop initial counter keylen rounds fuel (uadd outlen 32) ((ctr + 1) % 2 ^ 32) key
    else some key

def tlsPbkdf2 (fuel : ℕ) (password salt : Bytes) (key : Mem) (keylen rounds : ℕ) : Option (Bool × Mem) :=
  if password.length = 0 ∨ salt.length = 0 ∨ keylen = 0 ∨ rounds = 0 then some (false, key)
  else
    match tlsHmacContextInit hash password with
    | none => some (false, key)
    | some initial => (pbkdf2Loop hash initial (tlsHmacUpdate initial salt) keylen rounds fuel 0 1 key).map fun key => (true, key)

end Model

variable {hash : Hash} {password : Bytes} {initial : HmacCtx} {keylen : ℕ}

section Spec

variable (hmac : ∀ m, (tlsHmacDigest hash (tlsHmacUpdate initial m)).val = Hkdf.hmac hash.bytes password m) (salt : Bytes)

include hmac

lemma pbkdf2Round_iterate (i c : ℕ) :
    (pbkdf2Round hash initial)^[c] (iterate hash.bytes password salt i 0, block hash.bytes password salt i 0) =
      (iterate hash.bytes password salt i c, block hash.bytes password salt i c) := by
  induction c with
  | zero => rfl
  | succ c ih =>
    rw [iterate_succ_apply', ih, pbkdf2Round]
    rw [hmac]
    rfl

lemma pbkdf2Block_eq (rounds i : ℕ) : pbkdf2Block hash initial (tlsHmacUpdate initial salt) rounds i =
    block hash.bytes password salt i (rounds - 1) := by
  have hfirst : (tlsHmacDigest hash (tlsHmacUpdate (tlsHmacUpdate initial salt) (be 4 i))).val =
      Pbkdf2.iterate hash.bytes password salt i 0 := by
    rw [Pbkdf2.iterate, ← hmac, tlsHmacUpdate, tlsHmacUpdate, tlsHmacUpdate, append_assoc]
  have hrounds := pbkdf2Round_iterate hmac salt i (rounds - 1)
  rw [pbkdf2Block, hfirst]
  exact congrArg Prod.snd hrounds

lemma pbkdf2Loop_eq (rounds : ℕ) (key : Mem) (hkeylen : keylen + 32 ≤ uintRange) (n fuel j : ℕ) (hn : n + j = (keylen + 31) / 32)
    (hfuel : n < fuel) :
    pbkdf2Loop hash initial (tlsHmacUpdate initial salt) keylen rounds fuel (32 * j) (j + 1) (key.write 0
      (((List.range j).flatMap fun i => Pbkdf2.block hash.bytes password salt (i + 1) (rounds - 1)).take keylen)) =
      some (key.write 0 (Pbkdf2.key hash.bytes password salt rounds keylen)) := by
  have hblock : ∀ i, (Pbkdf2.block hash.bytes password salt (i + 1) (rounds - 1)).length = 32 :=
    fun i => Pbkdf2.length_block hash.length_bytes password salt (i + 1) (rounds - 1)
  have hrange : uintRange = 2 ^ 24 := rfl
  induction n generalizing fuel j with
  | zero =>
    obtain ⟨fuel, rfl⟩ := Nat.exists_eq_succ_of_ne_zero (Nat.ne_of_gt hfuel)
    rw [pbkdf2Loop, if_neg (by omega), Pbkdf2.key, ← hn, Nat.zero_add]
  | succ n ih =>
    obtain ⟨fuel, rfl⟩ := Nat.exists_eq_succ_of_ne_zero (show fuel ≠ 0 by omega)
    have hlt : 32 * j < keylen := by omega
    have hnext := ih fuel (j + 1) (by omega) (by omega)
    have hpart : (if keylen - 32 * j < 32 then keylen - 32 * j else 32) = min 32 (keylen - 32 * j) := by split_ifs <;> omega
    rw [← take_chain_succ hblock hpart, ← Mem.write_append, length_take, length_chain hblock, min_eq_right hlt.le, Nat.zero_add] at hnext
    rw [pbkdf2Loop, if_pos hlt]
    rw [pbkdf2Block_eq hmac, uadd_of_lt (by omega), Nat.mod_eq_of_lt (by omega)]
    exact hnext

end Spec

/-- **PBKDF2 conforms to RFC 8018**: the key is written, and nothing behind it.  The key is apart from the arrays of the function in
the address space of 24 bits. -/
theorem pbkdf2_conforms (hash : Hash) (password salt : Bytes) (key : Mem) (keylen rounds : ℕ) (hpassword : password ≠ [])
    (hsalt : salt ≠ []) (hrounds : 1 ≤ rounds) (hkeylen : 1 ≤ keylen) (hmem : keylen + (32 + 32 + 4) ≤ uintRange) (fuel : ℕ)
    (hfuel : (keylen + 31) / 32 < fuel) : tlsPbkdf2 hash fuel password salt key keylen rounds =
      some (true, key.write 0 (Pbkdf2.key hash.bytes password salt rounds keylen)) ∧
      (Pbkdf2.key hash.bytes password salt rounds keylen).length = keylen := by
  obtain ⟨initial, hinit, hmac⟩ := hmac_spec hash hpassword
  have hargs : ¬ (password.length = 0 ∨ salt.length = 0 ∨ keylen = 0 ∨ rounds = 0) := by
    have hp := length_pos_iff.2 hpassword
    have hs := length_pos_iff.2 hsalt
    omega
  have hloop := pbkdf2Loop_eq hmac salt rounds key (by omega) ((keylen + 31) / 32) fuel 0 rfl hfuel
  have hnil : key.write 0 (([] : Bytes).take keylen) = key := by
    funext i
    simp [Mem.write]
  rw [range_zero, flatMap_nil, hnil] at hloop
  refine ⟨?_, length_key hash.length_bytes ..⟩
  rw [tlsPbkdf2, if_neg hargs, hinit]
  exact congrArg (Option.map _) hloop

theorem pbkdf2_conforms_short : tlsPbkdf2 sha256 3 [97] [98] (fun _ => 0) 40 2 =
    some (true, Mem.write (fun _ => 0) 0 (Pbkdf2.key sha256.bytes [97] [98] 2 40)) :=
  (pbkdf2_conforms sha256 [97] [98] (fun _ => 0) 40 2 (by decide) (by decide) (by decide) (by decide) (by decide) 3 (by decide)).1

end LwftpCe.Tls
