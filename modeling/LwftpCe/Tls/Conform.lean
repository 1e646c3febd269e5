import LwftpCe.Lib.Galois
import LwftpCe.Tls.Gcm

/-!
# GCM against the standard

One encryption from `tls_aes_init` to `tls_aes_digest` (`gcmSeal`).  The ciphertext is always that of the standard.  The
tag is the hash of a string that differs from the one of the standard in two places: a whole block of zeros stands behind
a ciphertext without a partial block, and the two lengths are wrong from 8192 bytes on.
-/

namespace LwftpCe.Tls

open Lib List Block Aes

/-- `tls_aes_init`, one `tls_aes_update_aad`, one `tls_aes_encrypt` of the `n` bytes of `inbuf` and `tls_aes_digest`: the
ciphertext and the tag. -/
def gcmSeal (P : Prims) (key iv aad : Bytes) (inbuf : Mem) (n : ℕ) (outbuf : Mem) : Option (Bytes × Block) :=
  (tlsAesInit P .gcm key iv).bind fun ctx =>
    (tlsAesUpdateAad P ctx aad).bind fun ctx =>
      let s := tlsAesEncrypt P ctx inbuf n outbuf
      if s.ok then ((tlsAesDigest P s.ctx).map Prod.snd).map fun tag => (s.out.read 0 n, tag) else none

section Seal

variable {P : Prims} {key iv aad : Bytes} {inbuf outbuf : Mem} {n : ℕ}

lemma gcmSeal_eq (hk : ValidKey key) (hiv : iv.length ≤ 16) (h0 : 0 < n) (hn : n < 2 ^ 24) : gcmSeal P key iv aad inbuf n outbuf =
      let ct := ctr (P.encryptBlock key) (inc32 (ivBlock P key iv)) 0 (inbuf.read 0 n)
      some (ct, P.encryptBlock key (ivBlock P key iv) ^^^
        hashBlocks P.gf128Mul (P.encryptBlock key 0) 0 (codeTagInput aad ct)) := by
  have hfed : afterAad P key (ivBlock P key iv) aad = fed P key (ivBlock P key iv) .encrypt aad [] := rfl
  obtain ⟨hw, hctx⟩ := tlsAesEncrypt_gcm
    h0 hn (.inl rfl)
  unfold gcmSeal
  rw [tlsAesInit_gcm hk hiv, Option.bind_some, tlsAesUpdateAad_eq, Option.bind_some, nil_append, hfed]
  rw [if_pos hw.ok, hw.text, hctx, tlsAesDigest_fed (length_pos_iff.1 (by simpa using h0))]
  rfl

lemma codeTagInput_eq {ct : Bytes} (hct : ct.length % 16 ≠ 0) (ha : aad.length < 8192) (hn : ct.length < 8192) :
    codeTagInput aad ct = tagInput aad ct := by
  have ha' : aad.length % uintRange = aad.length := Nat.mod_eq_of_lt (by unfold uintRange; omega)
  have hn' : ct.length % uintRange = ct.length := Nat.mod_eq_of_lt (by unfold uintRange; omega)
  unfold codeTagInput tagInput
  rw [ha', hn', (bytelenToBitlen_eq_be (by omega)).2 ha, (bytelenToBitlen_eq_be (by omega)).2 hn, zeroPad_eq_append hct]
  simp

lemma lengths_ne {a n : ℕ} (ha : a < 2 ^ 24) (hn : n < 2 ^ 24) (h : ¬ (a < 8192 ∧ n < 8192)) :
    ofBytes (bytelenToBitlen a ++ bytelenToBitlen n) ≠ .ofBytes (be 8 (8 * a) ++ be 8 (8 * n)) := by
  intro heq
  have hbytes := congrArg bytes heq
  rw [bytes_ofBytes (by simp), bytes_ofBytes (by simp)] at hbytes
  obtain ⟨h1, h2⟩ := append_inj hbytes (by simp)
  exact h ⟨(bytelenToBitlen_eq_be ha).1 h1, (bytelenToBitlen_eq_be hn).1 h2⟩

end Seal

/-! ### Which lengths are right -/

section Lengths

variable {P : Prims} {key aad ct : Bytes} {w b c : Bytes}

lemma hashBlocks_lengths {mul : Block → Block → Block} {h : Block} {d l : Bytes} (hd : 16 ∣ d.length)
    (hl : l.length = 16) : hashBlocks mul h 0 (d ++ l) = mul (hashBlocks mul h 0 d ^^^ .ofBytes l) h := by
  rw [hashBlocks_append hd, hashBlocks_block hl]

lemma hashBlocks_codeTagInput : hashBlocks P.gf128Mul (P.encryptBlock key 0) 0 (codeTagInput aad ct) =
    P.gf128Mul (hashBlocks P.gf128Mul (P.encryptBlock key 0) 0
        (zeroPad aad ++ ct ++ replicate (16 - ct.length % 16) 0) ^^^
      .ofBytes (bytelenToBitlen (aad.length % uintRange) ++ bytelenToBitlen (ct.length % uintRange)))
      (P.encryptBlock key 0) := by
  have hdvd : 16 ∣ (zeroPad aad ++ ct ++ replicate (16 - ct.length % 16) 0).length := by
    have := dvd_length_zeroPad aad
    simp only [length_append, length_replicate]
    omega
  exact hashBlocks_lengths hdvd (by simp)

lemma hashBlocks_tagInput : hashBlocks P.gf128Mul (P.encryptBlock key 0) 0 (tagInput aad ct) =
    P.gf128Mul (hashBlocks P.gf128Mul (P.encryptBlock key 0) 0 (zeroPad aad ++ zeroPad ct) ^^^
      .ofBytes (be 8 (8 * aad.length) ++ be 8 (8 * ct.length))) (P.encryptBlock key 0) := by
  have hdvd : 16 ∣ (zeroPad aad ++ zeroPad ct).length := by
    rw [length_append]
    exact Nat.dvd_add (dvd_length_zeroPad aad) (dvd_length_zeroPad ct)
  rw [tagInput, append_assoc _ (be 8 _), hashBlocks_lengths hdvd (by simp)]

lemma small_of_tag_eq (gf : FieldProduct P.gf128Mul) (h0 : P.encryptBlock key 0 ≠ 0) (hct : ct.length % 16 ≠ 0)
    (ha : aad.length < 2 ^ 24) (hn : ct.length < 2 ^ 24)
    (heq : hashBlocks P.gf128Mul (P.encryptBlock key 0) 0 (codeTagInput aad ct) =
      hashBlocks P.gf128Mul (P.encryptBlock key 0) 0 (tagInput aad ct)) : aad.length < 8192 ∧ ct.length < 8192 := by
  rw [hashBlocks_codeTagInput, hashBlocks_tagInput, append_assoc, ← zeroPad_eq_append hct] at heq
  have hblock := xor_right_inj.1 (gf.mul_right_cancel h0 heq)
  have ha' : aad.length % uintRange = aad.length := Nat.mod_eq_of_lt ha
  have hn' : ct.length % uintRange = ct.length := Nat.mod_eq_of_lt hn
  rw [ha', hn'] at hblock
  by_contra hsmall
  exact lengths_ne ha hn hsmall hblock

lemma once_more_of_tag_eq (hct : ct.length % 16 = 0) (heq : hashBlocks P.gf128Mul (P.encryptBlock key 0) 0 (codeTagInput aad ct) =
      hashBlocks P.gf128Mul (P.encryptBlock key 0) 0 (tagInput aad ct)) :
    let s := hashBlocks P.gf128Mul (P.encryptBlock key 0) 0 (zeroPad aad ++ ct)
    P.gf128Mul (P.gf128Mul s (P.encryptBlock key 0) ^^^
        .ofBytes (bytelenToBitlen (aad.length % uintRange) ++ bytelenToBitlen (ct.length % uintRange)))
        (P.encryptBlock key 0) =
      P.gf128Mul (s ^^^ .ofBytes (be 8 (8 * aad.length) ++ be 8 (8 * ct.length))) (P.encryptBlock key 0) := by
  have hdvd : 16 ∣ (zeroPad aad ++ ct).length := by
    rw [length_append]
    exact Nat.dvd_add (dvd_length_zeroPad aad) (Nat.dvd_of_mod_eq_zero hct)
  have hzero : ofBytes (replicate 16 0) = 0 := rfl
  rw [hashBlocks_codeTagInput, hashBlocks_tagInput, zeroPad_eq_self hct, hct, hashBlocks_lengths hdvd (by simp), hzero,
    Block.xor_zero] at heq
  exact heq

lemma ofBytes_eq_of_hash_eq (gf : FieldProduct P.gf128Mul) (h0 : P.encryptBlock key 0 ≠ 0)
    (hw : 16 ∣ w.length) (hb : b.length = 16) (hc : c.length = 16)
    (heq : hashBlocks P.gf128Mul (P.encryptBlock key 0) 0 (w ++ b) =
      hashBlocks P.gf128Mul (P.encryptBlock key 0) 0 (w ++ c)) : b = c := by
  rw [hashBlocks_lengths hw hb, hashBlocks_lengths hw hc] at heq
  have hblock := xor_right_inj.1 (gf.mul_right_cancel h0 heq)
  have hbytes := congrArg bytes hblock
  rwa [bytes_ofBytes hb, bytes_ofBytes hc] at hbytes

lemma last_block_unique (gf : FieldProduct P.gf128Mul) (h0 : P.encryptBlock key 0 ≠ 0)
    (h1 : P.encryptBlock key 0 ≠ gf.one) (hw : 16 ∣ w.length) (hb : b.length = 16) (hc : c.length = 16)
    (htb : hashBlocks P.gf128Mul (P.encryptBlock key 0) 0 (codeTagInput aad (w ++ b)) =
      hashBlocks P.gf128Mul (P.encryptBlock key 0) 0 (tagInput aad (w ++ b)))
    (htc : hashBlocks P.gf128Mul (P.encryptBlock key 0) 0 (codeTagInput aad (w ++ c)) =
      hashBlocks P.gf128Mul (P.encryptBlock key 0) 0 (tagInput aad (w ++ c))) : b = c := by
  have hlenb : (w ++ b).length = w.length + 16 := by rw [length_append, hb]
  have hlenc : (w ++ c).length = w.length + 16 := by rw [length_append, hc]
  have hsb := once_more_of_tag_eq (by omega) htb
  have hsc := once_more_of_tag_eq (by omega) htc
  simp only [hlenb] at hsb
  simp only [hlenc] at hsc
  have hs := gf.eq_of_once_more h0 h1 hsb hsc
  rw [← append_assoc, ← append_assoc] at hs
  refine ofBytes_eq_of_hash_eq gf h0 ?_ hb hc hs
  rw [length_append]
  exact Nat.dvd_add (dvd_length_zeroPad aad) hw

end Lengths

/-- **GCM conforms to SP 800-38D exactly for the plaintexts with a partial last block, and for lengths below 8192.**  The
product is that of a field and some key does not encrypt the zero block to zero or one. -/
theorem gcmSeal_conforms_iff {P : Prims} (gf : FieldProduct P.gf128Mul)
    (hkey : ∃ key, ValidKey key ∧ P.encryptBlock key 0 ≠ 0 ∧ P.encryptBlock key 0 ≠ gf.one) {a n : ℕ} (ha : a < 2 ^ 24)
    (h0 : 0 < n) (hn : n < 2 ^ 24) :
    (∀ (key iv aad : Bytes) (inbuf outbuf : Mem), ValidKey key → iv ≠ [] → iv.length ≤ 16 → aad.length = a →
      gcmSeal P key iv aad inbuf n outbuf = some (gcm (P.encryptBlock key) P.gf128Mul iv aad (inbuf.read 0 n))) ↔
    n % 16 ≠ 0 ∧ a < 8192 ∧ n < 8192 := by
  constructor
  · intro hall
    obtain ⟨key, hk, hne0, hne1⟩ := hkey
    -- the tags of the plaintexts are right for the associated data of zeros and the IV of zeros
    have htag : ∀ inbuf : Mem,
        let ct := ctr (P.encryptBlock key) (inc32 (ivBlock P key (replicate 12 0))) 0 (inbuf.read 0 n)
        hashBlocks P.gf128Mul (P.encryptBlock key 0) 0 (codeTagInput (replicate a 0) ct) =
          hashBlocks P.gf128Mul (P.encryptBlock key 0) 0 (tagInput (replicate a 0) ct) := by
      intro inbuf
      have h := hall key (replicate 12 0) (replicate a 0) inbuf (fun _ => 0) hk (by simp) (by simp) (by simp)
      rw [gcmSeal_eq hk (by simp) h0 hn, gcm] at h
      exact xor_right_inj.1 (Prod.mk.inj (Option.some.inj h)).2
    generalize inc32 (ivBlock P key (replicate 12 0)) = icb at htag
    by_cases hmod : n % 16 = 0
    · -- two plaintexts that differ in the last block
      have hlast : ∀ b : Block, hashBlocks P.gf128Mul (P.encryptBlock key 0) 0 (codeTagInput (replicate a 0)
            (ctr (P.encryptBlock key) icb 0 (replicate (n - 16) 0) ++ ctr (P.encryptBlock key) icb (n - 16) b.bytes)) =
          hashBlocks P.gf128Mul (P.encryptBlock key 0) 0 (tagInput (replicate a 0)
            (ctr (P.encryptBlock key) icb 0 (replicate (n - 16) 0) ++
              ctr (P.encryptBlock key) icb (n - 16) b.bytes)) := by
        intro b
        have hlen : (replicate (n - 16) (0 : UInt8) ++ b.bytes).length = n := by
          simp
          omega
        have h := htag (Mem.ofBytes (replicate (n - 16) 0 ++ b.bytes))
        rw [Mem.read_ofBytes (by omega), drop_zero, take_of_length_le (by omega), ctr_append,
          length_replicate, Nat.zero_add] at h
        exact h
      have hw : 16 ∣ (ctr (P.encryptBlock key) icb 0 (replicate (n - 16) 0)).length := by
        rw [length_ctr, length_replicate]
        omega
      have heq := last_block_unique gf hne0 hne1 hw (by simp) (by simp) (hlast 0) (hlast gf.one)
      have hbytes := congrArg (ctr (P.encryptBlock key) icb (n - 16)) heq
      rw [ctr_ctr, ctr_ctr] at hbytes
      exact absurd (Block.ext hbytes) gf.zero_ne_one
    · have hsmall := small_of_tag_eq gf hne0 (by simpa using hmod) (by simpa using ha) (by simpa using hn)
        (htag fun _ => 0)
      exact ⟨hmod, by simpa using hsmall⟩
  · rintro ⟨hmod, hsa, hsn⟩ key iv aad inbuf outbuf hk hiv0 hiv rfl
    rw [gcmSeal_eq hk hiv h0 hn, gcm, ← ivBlock_eq hiv0 hiv]
    dsimp only
    rw [codeTagInput_eq (by simpa using hmod) hsa (by simpa using hsn)]

theorem gcmSeal_conforms_twenty :
    gcmSeal aesPrims (List.replicate 16 7) (List.replicate 12 1) [1, 2, 3, 4, 5] (fun _ => 9) 20 (fun _ => 0) =
      some (gcm (Aes.cipher (List.replicate 16 7)) gfMul (List.replicate 12 1) [1, 2, 3, 4, 5]
        (Mem.read (fun _ => 9) 0 20)) := by
  -- the zero block has different images under the two keys, so one of them is not the unit
  have hkey : ∃ key, ValidKey key ∧ cipher key 0 ≠ 0 ∧ cipher key 0 ≠ gfField.one := by
    have hz : cipher (replicate 16 0) 0 ≠ 0 ∧ cipher (replicate 16 1) 0 ≠ 0 ∧
        cipher (replicate 16 0) 0 ≠ cipher (replicate 16 1) 0 := by decide +kernel
    by_cases h : cipher (replicate 16 0) 0 = gfField.one
    · exact ⟨replicate 16 1, by decide, hz.2.1, fun h' => hz.2.2 (h.trans h'.symm)⟩
    · exact ⟨replicate 16 0, by decide, hz.1, h⟩
  exact (gcmSeal_conforms_iff (P := aesPrims) gfField hkey (by decide) (by decide) (by decide)).2
    (by decide) _ _ _ _ _ (by decide) (by decide) (by decide) rfl

/-- The zero key, the zero nonce of 12 bytes and one block of zeros: the second test case of the specification of GCM. -/
theorem gcmSeal_zero_block : gcmSeal aesPrims (List.replicate 16 0) (List.replicate 12 0) [] (fun _ => 0) 16
    (fun _ => 0) ≠ some (gcm (Aes.cipher (List.replicate 16 0)) gfMul (List.replicate 12 0) [] (List.replicate 16 0)) := by
  intro h
  have htag := (Prod.mk.inj (Option.some.inj h)).2
  -- the key of the hash, and the ciphertext
  have hkey : cipher (replicate 16 0) 0 = .ofBytes [0x66, 0xe9, 0x4b, 0xd4, 0xef, 0x8a, 0x2c, 0x3b, 0x88, 0x4c,
      0xfa, 0x59, 0xca, 0x34, 0x2b, 0x2e] := by decide +kernel
  have hct : ctr (cipher (replicate 16 0)) (inc32 (.ofBytes (replicate 12 0 ++ [0, 0, 0, 1]))) 0
      (replicate 16 0) = [0x03, 0x88, 0xda, 0xce, 0x60, 0xb6, 0xa3, 0x92, 0xf3, 0x28, 0xc2, 0xb9, 0x71, 0xb2, 0xfe,
        0x78] := by
    rw [← xorBytes_eq_ctr (by simp)]
    decide +kernel
  have hhash : hashBlocks gfMul (cipher (replicate 16 0) 0) 0 (codeTagInput [] (ctr (cipher (replicate 16 0))
        (inc32 (.ofBytes (replicate 12 0 ++ [0, 0, 0, 1]))) 0 (replicate 16 0))) =
      hashBlocks gfMul (cipher (replicate 16 0) 0) 0 (tagInput [] (ctr (cipher (replicate 16 0))
        (inc32 (.ofBytes (replicate 12 0 ++ [0, 0, 0, 1]))) 0 (replicate 16 0))) := xor_right_inj.1 htag
  rw [hkey, hct] at hhash
  exact absurd hhash (by decide +kernel)

end LwftpCe.Tls
