import LwftpCe.Lib.Cbc
import LwftpCe.Tls.Gcm

/-!
# CBC against PKCS#7

The loop of CBC encryption runs up to and including `blocks`.  With a partial block at the end these are the blocks of the
padded plaintext.  Without one, `blocks` has been raised by one already, so that there is a turn too many: it reads 16
bytes behind the plaintext and writes a block behind the ciphertext.
-/

namespace LwftpCe.Tls

open Lib List AesCtx Mem Cbc

def Covers (rs : List (ℕ × ℕ)) (n : ℕ) : Prop := ∀ i, (∃ r ∈ rs, r.1 ≤ i ∧ i < r.1 + r.2) ↔ i < n

lemma covers_nil : Covers [] 0 := by simp [Covers]

lemma Covers.cons {rs : List (ℕ × ℕ)} {n k : ℕ} (h : Covers rs n) : Covers ((n, k) :: rs) (n + k) := by
  intro i
  have hi := h i
  rw [exists_mem_cons_iff, hi]
  omega

section Loops

variable {P : Prims} {inbuf : Mem} {n : ℕ} {s₀ s : AesCall}

def padBlock (d : Bytes) (i : ℕ) : Block := .ofBytes ((pkcs7 d).drop (16 * i))

/-- The loop of encryption after `k` turns. -/
structure EncryptAt (P : Prims) (d : Bytes) (s₀ : AesCall) (k : ℕ) (s : AesCall) : Prop where
  ok : s.ok = s₀.ok
  key : s.ctx.key = s₀.ctx.key
  iv : s.ctx.iv = (Cbc.encrypt (P.encryptBlock s₀.ctx.key) s₀.ctx.iv ((List.range k).map (padBlock d))).getLastD s₀.ctx.iv
  text : s.out.read 0 (16 * k) =
    bytesOf (Cbc.encrypt (P.encryptBlock s₀.ctx.key) s₀.ctx.iv ((List.range k).map (padBlock d)))
  frame : ∀ i, 16 * k ≤ i → s.out i = s₀.out i
  writes : Covers s.writes (16 * k)

lemma ofBytes_turn {k : ℕ} (hn : n < 2 ^ 24) (hk : 16 * k ≤ n) :
    let bytesToCopy := min 16 (usub n (umul k 16))
    Block.ofBytes (inbuf.read (k * 16) bytesToCopy ++ replicate (16 - bytesToCopy) (UInt8.ofNat (16 - bytesToCopy))) =
      padBlock (inbuf.read 0 n) k ∧ bytesToCopy = min 16 (n - 16 * k) := by
  have hcopy : min 16 (usub n (umul k 16)) = min 16 (n - 16 * k) := by
    rw [umul_of_lt (by unfold uintRange; omega), usub_of_le hn (by omega), Nat.mul_comm]
  intro bytesToCopy
  have hlen : (inbuf.read 0 n).length = n := length_read ..
  refine ⟨?_, hcopy⟩
  have hb : bytesToCopy = min 16 (n - 16 * k) := hcopy
  clear_value bytesToCopy
  subst hb
  have hsplit : inbuf.read 0 n = inbuf.read 0 (16 * k) ++ inbuf.read (16 * k) (n - 16 * k) := by
    have := inbuf.read_add 0 (16 * k) (n - 16 * k)
    rwa [Nat.add_sub_cancel' hk, Nat.zero_add] at this
  have hdrop : (pkcs7 (inbuf.read 0 n)).drop (16 * k) =
      inbuf.read (16 * k) (n - 16 * k) ++ replicate (16 - n % 16) (UInt8.ofNat (16 - n % 16)) := by
    rw [pkcs7, hlen, drop_append_of_le_length (by omega), hsplit, drop_left' (by simp)]
  rw [padBlock, hdrop, Nat.mul_comm k 16]
  rcases Nat.lt_or_ge (n - 16 * k) 16 with hlt | hge
  · -- the last block
    have hmod : n - 16 * k = n % 16 := by omega
    rw [Nat.min_eq_right (by omega), hmod]
  · -- a block of the plaintext
    have hread : inbuf.read (16 * k) (n - 16 * k) = inbuf.read (16 * k) 16 ++ inbuf.read (16 * k + 16) (n - 16 * k - 16) := by
      rw [← read_add, Nat.add_sub_cancel' hge]
    rw [Nat.min_eq_left hge, replicate_zero, append_nil, hread, append_assoc,
      Block.ofBytes_append (by simp)]

lemma EncryptAt.step {k : ℕ} (h : EncryptAt P (inbuf.read 0 n) s₀ k s) (hn : n < 2 ^ 24) (hk : 16 * k ≤ n) :
    EncryptAt P (inbuf.read 0 n) s₀ (k + 1) (cbcEncryptStep P inbuf n s k) := by
  obtain ⟨hblock, -⟩ := @ofBytes_turn inbuf n k hn hk
  have hsucc : encrypt (P.encryptBlock s₀.ctx.key) s₀.ctx.iv ((List.range (k + 1)).map (padBlock (inbuf.read 0 n))) =
      encrypt (P.encryptBlock s₀.ctx.key) s₀.ctx.iv ((List.range k).map (padBlock (inbuf.read 0 n))) ++
        [P.encryptBlock s.ctx.key (padBlock (inbuf.read 0 n) k ^^^ s.ctx.iv)] := by
    rw [range_succ, map_append, map_singleton, encrypt_concat, h.iv, h.key]
  simp only [cbcEncryptStep, hblock]
  generalize P.encryptBlock s.ctx.key (padBlock (inbuf.read 0 n) k ^^^ s.ctx.iv) = c at hsucc ⊢
  rw [Nat.mul_comm k 16]
  refine ⟨h.ok, h.key, ?_, ?_, ?_, ?_⟩
  · rw [hsucc, getLastD_concat]
  · have hc : c.bytes.length = 16 := c.length_bytes
    have hback := read_write s.out (16 * k) c.bytes
    rw [hc] at hback
    rw [hsucc, bytesOf_concat, Nat.mul_add, read_add, read_write_before (by omega), h.text,
      Nat.zero_add, hback]
  · intro i hi
    have hbehind : 16 * k + c.bytes.length ≤ i := by
      rw [c.length_bytes]
      omega
    exact (write_behind i hbehind).trans (h.frame i (by omega))
  · exact h.writes.cons

lemma encryptLoop_spec (hw : s₀.writes = []) (hn : n < 2 ^ 24) {k : ℕ} (hk : k ≤ n / 16 + 1) :
    EncryptAt P (inbuf.read 0 n) s₀ k ((List.range k).foldl (cbcEncryptStep P inbuf n) s₀) := by
  induction k with
  | zero => exact ⟨rfl, rfl, rfl, rfl, fun _ _ => rfl, by rw [range_zero, foldl_nil, hw]; exact covers_nil⟩
  | succ k ih =>
    rw [range_succ, foldl_append, foldl_cons]
    exact (ih (by omega)).step hn (by omega)

lemma encryptLoop_reads (hr : s₀.reads = []) (hn : n < 2 ^ 24) {k : ℕ} (hk : k ≤ n / 16 + 1) :
    Covers ((List.range k).foldl (cbcEncryptStep P inbuf n) s₀).reads (min n (16 * k)) := by
  induction k with
  | zero => simpa [hr] using covers_nil
  | succ k ih =>
    obtain ⟨-, hcopy⟩ := @ofBytes_turn inbuf n k hn (show 16 * k ≤ n by omega)
    rw [range_succ, foldl_append, foldl_cons]
    have hmin : min n (16 * k) = k * 16 := by omega
    have hnext := (ih (by omega)).cons (k := min 16 (n - 16 * k))
    rw [hmin, show k * 16 + min 16 (n - 16 * k) = min n (16 * (k + 1)) by omega] at hnext
    simp only [cbcEncryptStep]
    rw [hcopy]
    exact hnext

/-- The loop of decryption after `k` turns, on the ciphertext `cs`. -/
structure DecryptAt (P : Prims) (cs : List Block) (s₀ : AesCall) (k : ℕ) (s : AesCall) : Prop where
  ok : s.ok = s₀.ok
  key : s.ctx.key = s₀.ctx.key
  iv : s.ctx.iv = (cs.take k).getLastD s₀.ctx.iv
  text : s.out.read 0 (16 * k) = bytesOf (Cbc.decrypt (P.decryptBlock s₀.ctx.key) s₀.ctx.iv (cs.take k))

lemma decryptLoop_spec {cs : List Block} (hin : inbuf.read 0 (16 * cs.length) = bytesOf cs) {k : ℕ} (hk : k ≤ cs.length) :
    DecryptAt P cs s₀ k ((List.range k).foldl (cbcDecryptStep P inbuf) s₀) := by
  induction k with
  | zero => exact ⟨rfl, rfl, rfl, rfl⟩
  | succ k ih =>
    have h := ih (by omega)
    rw [range_succ, foldl_append, foldl_cons, foldl_nil]
    generalize (List.range k).foldl (cbcDecryptStep P inbuf) s₀ = s at h ⊢
    have htake : cs.take (k + 1) = cs.take k ++ [cs.get ⟨k, hk⟩] := by simp
    have hblock : Block.ofBytes (inbuf.read (k * 16) 16) = cs.get ⟨k, hk⟩ := by
      have hsplit : bytesOf cs = bytesOf (cs.take k) ++ ((cs.get ⟨k, hk⟩).bytes ++ bytesOf (cs.drop (k + 1))) := by
        simp only [bytesOf, ← flatMap_cons, ← flatMap_append]
        simp
      obtain ⟨-, hrest⟩ := read_append _ _ (hin.trans hsplit)
      have hread := (read_append _ _ hrest).1
      rw [Block.length_bytes, length_bytesOf, length_take, Nat.min_eq_left (by omega), Nat.zero_add, Nat.mul_comm] at hread
      rw [hread, Block.ofBytes_bytes]
    simp only [cbcDecryptStep, hblock]
    refine ⟨h.ok, h.key, ?_, ?_⟩
    · rw [htake, getLastD_concat]
    · generalize hx : P.decryptBlock s.ctx.key (cs.get ⟨k, hk⟩) ^^^ s.ctx.iv = x
      have hback := read_write s.out (k * 16) x.bytes
      rw [x.length_bytes] at hback
      rw [htake, decrypt_concat, ← h.iv, ← h.key, hx, bytesOf_concat, Nat.mul_add, read_add,
        read_write_before (by omega), h.text, Nat.zero_add, Nat.mul_comm 16 k, hback, h.key]

end Loops

/-- Encryption in CBC mode is what it should be: it reads the `n` bytes of the plaintext, writes the ciphertext of the padded
plaintext, and decryption with a fresh context gives the padded plaintext back. -/
def CbcConforms (P : Prims) (key iv : Bytes) (inbuf : Mem) (n : ℕ) (outbuf : Mem) : Prop :=
  ∃ ctx, tlsAesInit P .cbc key iv = some ctx ∧
    let s := tlsAesEncrypt P ctx inbuf n outbuf
    s.ok = true ∧ Covers s.reads n ∧ Covers s.writes (16 * (n / 16 + 1)) ∧
      s.out.read 0 (16 * (n / 16 + 1)) =
        bytesOf (Cbc.encrypt (P.encryptBlock key) (.ofBytes iv) (blocksOf (pkcs7 (inbuf.read 0 n)))) ∧
      ∀ plain, let t := tlsAesDecrypt P ctx s.out (16 * (n / 16 + 1)) plain
        t.ok = true ∧ t.out.read 0 (16 * (n / 16 + 1)) = pkcs7 (inbuf.read 0 n)

section Conforms

variable {P : Prims} {key iv : Bytes} {inbuf outbuf : Mem} {n : ℕ}

lemma tlsAesInit_cbc (hk : ValidKey key) (hiv : iv.length ≤ 16) : tlsAesInit P .cbc key iv = some (blank .cbc key iv) := by
  have hvalid : ¬ (8 * key.length ≠ 128 ∧ 8 * key.length ≠ 192 ∧ 8 * key.length ≠ 256) := by
    unfold ValidKey at hk
    omega
  have htake : key.take (8 * key.length / 8) = key := by simp
  unfold tlsAesInit
  rw [hk.bits, if_neg (by omega), if_neg hvalid, htake]

lemma blocksOf_pkcs7 (d : Bytes) : blocksOf (pkcs7 d) = (List.range (d.length / 16 + 1)).map (padBlock d) := by
  rw [blocksOf, length_pkcs7, Nat.mul_div_cancel_left _ (by decide)]
  rfl

lemma tlsAesEncrypt_cbc (h0 : 0 < n) : tlsAesEncrypt P (blank .cbc key iv) inbuf n outbuf =
    cbcEncrypt P ((blank .cbc key iv).bind .encrypt) inbuf n outbuf := by
  unfold tlsAesEncrypt
  rw [if_neg (by omega), if_neg (by simp [blank])]
  rfl

lemma tlsAesDecrypt_cbc (h0 : 0 < n) (hn : n % 16 = 0) : tlsAesDecrypt P (blank .cbc key iv) inbuf n outbuf =
    (List.range (n / 16)).foldl (cbcDecryptStep P inbuf) ⟨true, (blank .cbc key iv).bind .decrypt, outbuf, [], []⟩ := by
  unfold tlsAesDecrypt
  rw [if_neg (by omega), if_neg (by simp [blank]), if_neg (by simp [blank])]
  exact if_neg (by omega)

lemma not_cbcConforms (hk : ValidKey key) (hiv : iv.length = 16) (h0 : 0 < n) (hmod : n % 16 = 0) :
    ¬ CbcConforms P key iv inbuf n outbuf := by
  rintro ⟨ctx, hctx, -, -, hwrites, -⟩
  rw [tlsAesInit_cbc hk (by omega)] at hctx
  cases hctx
  have hmem : (16 * (n / 16 + 1), 16) ∈ (tlsAesEncrypt P (blank .cbc key iv) inbuf n outbuf).writes := by
    rw [tlsAesEncrypt_cbc h0, cbcEncrypt, if_pos hmod, range_succ, foldl_append, Nat.mul_comm]
    exact mem_cons_self
  have hlt := (hwrites (16 * (n / 16 + 1))).1 ⟨_, hmem, Nat.le_refl _, by omega⟩
  exact Nat.lt_irrefl _ hlt

/-- **CBC encryption is PKCS#7-padded CBC exactly for the plaintexts with a partial last block.** -/
theorem cbcConforms_iff (hk : ValidKey key) (hiv : iv.length = 16)
    (hinv : ∀ b, P.decryptBlock key (P.encryptBlock key b) = b) (h0 : 0 < n) (hn : n + 16 < 2 ^ 24) :
    CbcConforms P key iv inbuf n outbuf ↔ n % 16 ≠ 0 := by
  have hinit : tlsAesInit P .cbc key iv = some (blank .cbc key iv) := tlsAesInit_cbc hk (by omega)
  constructor
  · exact fun h hmod => not_cbcConforms hk hiv h0 hmod h
  · intro hmod
    refine ⟨_, hinit, ?_⟩
    have hloop := @encryptLoop_spec P inbuf n ⟨true, (blank .cbc key iv).bind .encrypt, outbuf, [], []⟩ rfl (by omega) _
      (Nat.le_refl _)
    have hreads := @encryptLoop_reads P inbuf n ⟨true, (blank .cbc key iv).bind .encrypt, outbuf, [], []⟩ rfl (by omega)
      _ (Nat.le_refl _)
    have hcall : tlsAesEncrypt P (blank .cbc key iv) inbuf n outbuf =
        (List.range (n / 16 + 1)).foldl (cbcEncryptStep P inbuf n)
          ⟨true, (blank .cbc key iv).bind .encrypt, outbuf, [], []⟩ := by
      rw [tlsAesEncrypt_cbc h0, cbcEncrypt, if_neg hmod]
    rw [hcall]
    generalize (List.range (n / 16 + 1)).foldl (cbcEncryptStep P inbuf n) _ = s at hloop hreads ⊢
    have hlen : (inbuf.read 0 n).length = n := length_read ..
    have htext : s.out.read 0 (16 * (n / 16 + 1)) =
        bytesOf (encrypt (P.encryptBlock key) (.ofBytes iv) (blocksOf (pkcs7 (inbuf.read 0 n)))) := by
      rw [blocksOf_pkcs7, hlen]
      exact hloop.text
    rw [Nat.min_eq_left (by omega)] at hreads
    refine ⟨hloop.ok, hreads, hloop.writes, htext, fun plain => ?_⟩
    -- the way back
    have hcount : (encrypt (P.encryptBlock key) (.ofBytes iv) (blocksOf (pkcs7 (inbuf.read 0 n)))).length = n / 16 + 1 := by
      rw [blocksOf_pkcs7]
      simp
    generalize hcs : encrypt (P.encryptBlock key) (.ofBytes iv) (blocksOf (pkcs7 (inbuf.read 0 n))) = cs at htext hcount
    have hback := @decryptLoop_spec P s.out ⟨true, (blank .cbc key iv).bind .decrypt, plain, [], []⟩ cs
      (by rw [hcount]; exact htext) _ (Nat.le_refl _)
    rw [tlsAesDecrypt_cbc (by omega) (by omega), Nat.mul_div_cancel_left _ (by decide), ← hcount]
    refine ⟨hback.ok, hback.text.trans ?_⟩
    have hplain : decrypt (P.decryptBlock key) (.ofBytes iv) cs = blocksOf (pkcs7 (inbuf.read 0 n)) := by
      rw [← hcs, decrypt_encrypt hinv]
    rw [take_length]
    refine (congrArg bytesOf hplain).trans (bytesOf_blocksOf ?_)
    rw [length_pkcs7]
    exact Nat.dvd_mul_right ..

end Conforms

theorem cbcConforms_twenty :
    CbcConforms aesPrims (List.replicate 16 7) (List.replicate 16 1) (fun _ => 5) 20 (fun _ => 0) := by
  have hinv : ∀ b, aesPrims.decryptBlock (replicate 16 7) (aesPrims.encryptBlock (replicate 16 7) b) = b :=
    Aes.decipher_cipher (by decide +kernel)
  exact (cbcConforms_iff (by decide) (by decide) hinv (by decide) (by decide)).2 (by decide)

/-- One block of zeros, with AES, the zero key and the zero vector. -/
theorem cbc_one_block : ¬ CbcConforms aesPrims (List.replicate 16 0) (List.replicate 16 0) (fun _ => 0) 16
    (fun _ => 0) :=
  not_cbcConforms (by decide) (by decide) (by decide) (by decide)

end LwftpCe.Tls
