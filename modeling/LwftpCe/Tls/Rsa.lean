import LwftpCe.Lib.Pkcs1
import LwftpCe.Lib.Uint
import LwftpCe.Tls.Hkdf
import LwftpCe.Tls.Init
import Mathlib.Data.Int.ModEq

/-!
# The encodings of RSA

`tls_mgf1` of `hash.c`, and `tls_rsa_pss_verify` and `tls_rsa_decode_oaep` of `rsa.c`, which work in place in the scratch
buffer of the context.
-/

namespace LwftpCe.Tls

open Lib List Function Pkcs1 Mem TlsCtx Option Nat

section Model

variable (hash : Hash)

def tlsHashSha256 : ℕ := 0

def ctrData (ctr : ℕ) : Bytes :=
  [UInt8.ofNat (ctr >>> 24), UInt8.ofNat (ctr >>> 16), UInt8.ofNat (ctr >>> 8), UInt8.ofNat ctr]

/-- The loop of `tls_mgf1`, which counts in 24 bits; `none` if it has not ended after `fuel` turns. -/
def mgf1Loop (data : Bytes) (outbuf outlen : ℕ) : ℕ → ℕ → ℕ → Mem → Option Mem
  | 0, _, _, _ => none
  | fuel + 1, printlen, ctr, m =>
    if printlen < outlen then
      let copylen := if outlen - printlen > 32 then 32 else outlen - printlen
      let m := m.write (outbuf + printlen) ((hash.bytes (data ++ ctrData ctr)).take copylen)
      mgf1Loop data outbuf outlen fuel (uadd printlen 32) ((ctr + 1) % 2 ^ 32) m
    else some m

def tlsMgf1 (data : Bytes) (m : Mem) (outbuf outlen hashAlg : ℕ) : Option Mem :=
  if hashAlg ≠ tlsHashSha256 then none else mgf1Loop hash data outbuf outlen ((outlen + 31) / 32 + 1) 0 0 m

def zerosEnd (m : Mem) (n : ℕ) : ℕ := ((List.range n).takeWhile fun i => m i = 0).length

/-- `tls_rsa_pss_verify` behind the unmasking of `DB`, which stands at the beginning of `m`; `tmp` is the offset `emLen`. -/
def pssCheck (m : Mem) (emLen dbLen : ℕ) (mhash : Bytes) : Bool × Mem :=
  let psEnd := zerosEnd m dbLen
  if psEnd ≥ dbLen ∨ m psEnd ≠ 0x01 then (false, m)
  else
    let psEnd := psEnd + 1
    if dbLen - psEnd ≠ 32 then (false, m)
    else
      let m := m.fill emLen 8 0
      let m := m.write (emLen + 8) mhash
      let m := m.write (emLen + 8 + 32) (m.read psEnd 32)
      let m := m.write emLen (hash.bytes (m.read emLen (8 + 64)))
      (m.read emLen 32 = m.read (emLen - 1 - 32) 32, m)

def maskTop (topMask : UInt8) (m : Mem) : Mem := m.write 0 [m 0 &&& topMask]

/-- `tls_rsa_pss_verify` behind the check of the unused bits; the encoded message stands at the beginning of `m`. -/
def pssTail (m : Mem) (emLen : ℕ) (topMask : UInt8) (mhash : Bytes) (hashAlg : ℕ) : Bool × Mem :=
  let dbLen := emLen - 32 - 1
  if m (emLen - 1) ≠ 0xbc then (false, m)
  else
    match tlsMgf1 hash (m.read (emLen - 1 - 32) 32) m emLen dbLen hashAlg with
    | none => (false, m)
    | some m => pssCheck hash (maskTop topMask (m.xorBlock 0 emLen dbLen)) emLen dbLen mhash

def pssVerifyIn (m : Mem) (encodedMsg mhash : Bytes) (hashAlg : ℕ) : Bool × Mem :=
  let emLen := encodedMsg.length
  let emBits := usub (umul emLen 8) 1 % 2 ^ 16
  let m := m.write 0 encodedMsg
  let unused := usub (umul emLen 8) emBits % 2 ^ 8
  if unused > 8 ∨ unused = 0 then (false, m)
  else
    let topMask := UInt8.ofNat (0xff >>> unused)
    if m 0 &&& ~~~topMask ≠ 0 then (false, m) else pssTail hash (maskTop topMask m) emLen topMask mhash hashAlg

def tlsRsaPssVerify (ctx : TlsCtx) (encodedMsg mhash : Bytes) (hashAlg : ℕ) : Bool × TlsCtx :=
  if encodedMsg.length = 0 then (false, ctx)
  else
    match ctx.initialized, ctx.rsaScratch with
    | true, some m =>
      if hashAlg ≠ tlsHashSha256 then (false, ctx)
      else if mhash.length ≠ 32 then (false, ctx)
      else
        let r := pssVerifyIn hash m encodedMsg mhash hashAlg
        (r.1, ctx.setScratch r.2)
    | _, _ => (false, ctx)

def oaepUnmask (m : Mem) (inbuf : Bytes) : Mem :=
  let dbLen := inbuf.length - 32 - 1
  let m := m.write 0 inbuf
  let m := (tlsMgf1 hash (m.read 33 dbLen) m 512 32 tlsHashSha256).getD m
  let m := m.xorBlock 1 512 32
  let m := (tlsMgf1 hash (m.read 1 32) m 512 dbLen tlsHashSha256).getD m
  m.xorBlock 33 512 dbLen

def separator (m : Mem) (i n : ℕ) : ℕ := i + ((List.range n).takeWhile fun k => m (i + k) ≠ 0x01).length

/-- `tls_rsa_decode_oaep`: the length, the output and the context.  Without a label the string is empty. -/
def tlsRsaDecodeOaep (ctx : TlsCtx) (inbuf : Bytes) (outbuf : Mem) (auth : Bytes) (hashAlg : ℕ) : ℕ × Mem × TlsCtx :=
  if inbuf.length > 512 ∨ inbuf.length < 128 then (0, outbuf, ctx)
  else
    match ctx.initialized, ctx.rsaScratch with
    | true, some m =>
      if hashAlg ≠ tlsHashSha256 then (0, outbuf, ctx)
      else
        let m := oaepUnmask hash m inbuf
        let ctx := ctx.setScratch m
        if hash.bytes auth ≠ m.read 33 32 then (0, outbuf, ctx)
        else
          let i := separator m 65 (inbuf.length - 65)
          if i = inbuf.length then (0, outbuf, ctx)
          else (inbuf.length - (i + 1), outbuf.write 0 (m.read (i + 1) (inbuf.length - (i + 1))), ctx)
    | _, _ => (0, outbuf, ctx)

def xorMask (out mask : Mem) (a n : ℕ) : Mem := (List.range n).foldl (fun m i => m.write (a + i) [m (a + i) ^^^ mask i]) out

/-- `tls_rsa_encode_oaep`: the result, the output and the context; `seed` is what `tls_random_bytes` gives. -/
def tlsRsaEncodeOaep (ctx : TlsCtx) (inbuf : Bytes) (outbuf : Mem) (modulusLen : ℕ) (auth : Bytes) (seed : Arr 32) (hashAlg : ℕ) :
    Bool × Mem × TlsCtx :=
  if modulusLen > 512 ∨ modulusLen < 128 ∨ inbuf.length = 0 then (false, outbuf, ctx)
  else
    match ctx.initialized, ctx.rsaScratch with
    | true, some m =>
      if hashAlg ≠ tlsHashSha256 then (false, outbuf, ctx)
      else
        let psLen := usub (usub modulusLen inbuf.length) 66
        let dbLen := modulusLen - 32 - 1
        if uadd inbuf.length 66 > modulusLen then (false, outbuf, ctx)
        else
          let out := (outbuf.write 0 [0x00]).write 1 seed.val
          let out := (out.write 33 (hash.bytes auth)).fill 65 psLen 0
          let out := (out.write (65 + psLen) [0x01]).write (65 + psLen + 1) inbuf
          let m := (tlsMgf1 hash (out.read 1 32) m 0 dbLen hashAlg).getD m
          let out := xorMask out m 33 dbLen
          let m := (tlsMgf1 hash (out.read 33 dbLen) m 0 32 hashAlg).getD m
          (true, xorMask out m 1 32, ctx.setScratch m)
    | _, _ => (false, outbuf, ctx)

/-- `powmod_exp_u24` of `bigint.asm`: the first `size` bytes of `base` to the power of `exp`, modulo those of `mod`, in place.  A
size of zero stands for 256. -/
def powmodExpU24 (size : ℕ) (base : Bytes) (exp : ℕ) (modulus : Bytes) : Bytes :=
  let n := if size = 0 then 256 else size
  be n (beNat (base.take n) ^ exp % beNat (modulus.take n)) ++ base.drop n

def rsaEncryptBlock (ctx : TlsCtx) (inbuf : Bytes) (outbuf : Mem) (pubkey : Bytes) (seed : Arr 32) (hashAlg : ℕ) : Bool × Mem × TlsCtx :=
  if inbuf.length = 0 ∨ pubkey.length > 512 ∨ pubkey.length < 128 ∨ pubkey.getD (pubkey.length - 1) 0 &&& 1 = 0 then (false, outbuf, ctx)
  else
    let spos := (pubkey.takeWhile (· = 0)).length
    let out := outbuf.fill 0 spos 0
    let r := tlsRsaEncodeOaep hash ctx inbuf (fun i => out (spos + i)) (pubkey.length - spos) [] seed hashAlg
    (r.1, fun i => if i < spos then out i else r.2.1 (i - spos), r.2.2)

def tlsRsaEncrypt (ctx : TlsCtx) (inbuf : Bytes) (outbuf : Mem) (pubkey : Bytes) (seed : Arr 32) (hashAlg : ℕ) : Bool × Mem × TlsCtx :=
  let (ok, out, ctx) := rsaEncryptBlock hash ctx inbuf outbuf pubkey seed hashAlg
  if ok then (true, out.write 0 (powmodExpU24 (pubkey.length % 256) (out.read 0 pubkey.length) 65537 pubkey), ctx)
  else (false, out, ctx)

def tlsRsaDecryptSignature (signature pubkey : Bytes) : Option Bytes :=
  if signature.length = 0 ∨ pubkey.length > 512 ∨ pubkey.length < 128 ∨ pubkey.getD (pubkey.length - 1) 0 &&& 1 = 0 then none
  else some (powmodExpU24 (pubkey.length % 256) (signature.take pubkey.length) 65537 pubkey)

end Model

/-! ### The mask -/

lemma ctrData_eq (ctr : ℕ) : ctrData ctr = be 4 ctr := by
  simp [ctrData, be, shiftRight_eq_div_pow, Nat.div_div_eq_div_mul]

section Mask

variable {hash : Hash} {data : Bytes} {m : Mem} {outbuf outlen : ℕ}

lemma mgf1Loop_eq (m : Mem) (houtlen : outlen + 32 ≤ uintRange) (n fuel j : ℕ) (hn : n + j = (outlen + 31) / 32)
    (hfuel : n < fuel) :
    mgf1Loop hash data outbuf outlen fuel (32 * j) j
        (m.write outbuf (((List.range j).flatMap fun i => hash.bytes (data ++ be 4 i)).take outlen)) =
      some (m.write outbuf (mgf1 hash.bytes data outlen)) := by
  have hblock : ∀ i, (hash.bytes (data ++ be 4 i)).length = 32 := fun _ => hash.length_bytes _
  have hrange : uintRange = 2 ^ 24 := rfl
  induction n generalizing fuel j with
  | zero =>
    obtain ⟨fuel, rfl⟩ := Nat.exists_eq_succ_of_ne_zero (Nat.ne_of_gt hfuel)
    rw [mgf1Loop, if_neg (by omega), mgf1, ← hn, Nat.zero_add]
  | succ n ih =>
    obtain ⟨fuel, rfl⟩ := Nat.exists_eq_succ_of_ne_zero (show fuel ≠ 0 by omega)
    have hlt : 32 * j < outlen := by omega
    have hnext := ih fuel (j + 1) (by omega) (by omega)
    have hpart : (if outlen - 32 * j > 32 then 32 else outlen - 32 * j) = min 32 (outlen - 32 * j) := by
      split_ifs <;> omega
    rw [← take_chain_succ hblock hpart, ← write_append, length_take, length_chain hblock, min_eq_right hlt.le] at hnext
    rw [mgf1Loop, if_pos hlt]
    rw [ctrData_eq, uadd_of_lt (by omega), Nat.mod_eq_of_lt (by omega)]
    exact hnext

lemma tlsMgf1_eq (houtlen : outlen + 32 ≤ uintRange) : tlsMgf1 hash data m outbuf outlen tlsHashSha256 =
    some (m.write outbuf (mgf1 hash.bytes data outlen)) := by
  have hnil : m.write outbuf (([] : Bytes).take outlen) = m := by
    funext i
    simp [Mem.write]
  unfold tlsMgf1
  rw [if_neg (by simp), ← mgf1Loop_eq m houtlen ((outlen + 31) / 32) _ 0 rfl (Nat.lt_succ_self _), range_zero, flatMap_nil, hnil]

/-- **MGF1**: `outlen` bytes of the mask are written and nothing else; an unknown hash is refused.  The mask and the digest of
the function are apart in the address space of 24 bits. -/
theorem mgf1_conforms (hash : Hash) (data : Bytes) (m : Mem) (outbuf outlen hashAlg : ℕ) (hmem : outlen + 32 ≤ uintRange) :
    tlsMgf1 hash data m outbuf outlen hashAlg =
        (if hashAlg = tlsHashSha256 then some (m.write outbuf (mgf1 hash.bytes data outlen)) else none) ∧
      (mgf1 hash.bytes data outlen).length = outlen := by
  refine ⟨?_, length_mgf1 hash.length_bytes data outlen⟩
  split_ifs with h
  · rw [h, tlsMgf1_eq hmem]
  · exact if_pos h

theorem mgf1_conforms_forty : tlsMgf1 sha256 [97] (fun _ => 0) 0 40 tlsHashSha256 =
    some (Mem.write (fun _ => 0) 0 (mgf1 sha256.bytes [97] 40)) :=
  (mgf1_conforms sha256 [97] (fun _ => 0) 0 40 tlsHashSha256 (by decide)).1

lemma read_xorBlock {a b n : ℕ} (h : a + n ≤ b) : (m.xorBlock a b n).read a n = xorBytes (m.read a n) (m.read b n) := by
  unfold Mem.read xorBytes
  rw [zipWith_map, zipWith_self]
  exact map_congr_left fun i hi => xorBlock_apply h (mem_range.1 hi)

end Mask

/-! ### PSS -/

section Pss

variable {hash : Hash} {m : Mem} {em mhash : Bytes} {db : Bytes} {emLen : ℕ} {r : Bool × Mem} {ctx : TlsCtx}

lemma zerosEnd_eq (m : Mem) (n : ℕ) : zerosEnd m n = ((m.read 0 n).takeWhile (· = 0)).length := by
  simp [zerosEnd, Mem.read, takeWhile_map, comp_def]

lemma padding_iff (h : 33 ≤ db.length) : ((db.takeWhile (· = 0)).length < db.length ∧ db.getD (db.takeWhile (· = 0)).length 0 = 1 ∧
      db.length - ((db.takeWhile (· = 0)).length + 1) = 32) ↔
    db.take (db.length - 33) = replicate (db.length - 33) 0 ∧ db[db.length - 33]? = some 1 := by
  constructor
  · rintro ⟨hlt, hone, hsalt⟩
    have hend : (db.takeWhile (· = 0)).length = db.length - 33 := by omega
    have htake : db.takeWhile (· = 0) = db.take (db.length - 33) := by
      rw [← hend]
      exact prefix_iff_eq_take.1 ( takeWhile_prefix _)
    refine ⟨?_, ?_⟩
    · rw [← htake]
      refine eq_replicate_iff.2 ⟨hend, fun b hb => ?_⟩
      simpa using mem_takeWhile_imp hb
    · rw [getD_eq_getElem _ _ hlt] at hone
      rw [← hend, getElem?_eq_getElem hlt, hone]
  · rintro ⟨hzeros, hone⟩
    obtain ⟨hlt, hval⟩ := List.getElem?_eq_some_iff.1 hone
    have hdrop : db.drop (db.length - 33) = 1 :: db.drop (db.length - 33 + 1) := by
      rw [List.drop_eq_getElem_cons hlt, hval]
    have hsplit : db = List.replicate (db.length - 33) 0 ++ 1 :: db.drop (db.length - 33 + 1) := by
      rw [← hzeros, ← hdrop, take_append_drop]
    have hend : (db.takeWhile (· = 0)).length = db.length - 33 := by
      rw [hsplit, takeWhile_append_of_pos (by simp), takeWhile_cons_of_neg (by simp)]
      simp only [append_nil, length_replicate]
      rw [← hsplit]
    rw [hend]
    exact ⟨by omega, by rw [getD_eq_getElem _ _ hlt, hval], by omega⟩

lemma pssInput_eq {salt : Bytes} {pos : ℕ} (hm : mhash.length = 32) (hpos : pos + 32 ≤ emLen) (hsalt : m.read pos 32 = salt) :
    let m2 := (m.fill emLen 8 0).write (emLen + 8) mhash
    let m3 := m2.write (emLen + 8 + 32) (m2.read pos 32)
    m3.read emLen (8 + 64) = replicate 8 0 ++ mhash ++ salt ∧ ∀ i < emLen, m3 i = m i := by
  intro m2 m3
  have hfill : ∀ i < emLen, m2 i = m i := by
    intro i hi
    exact (write_before i (by omega)).trans (if_neg (by omega))
  have hread : m2.read pos 32 = salt := by
    rw [← hsalt]
    exact read_congr fun i _ hi => hfill i (by omega)
  have hzeros : m3.read emLen 8 = replicate 8 0 := by
    refine eq_replicate_iff.2 ⟨length_read .., fun b hb => ?_⟩
    obtain ⟨i, hi, rfl⟩ := mem_map.1 hb
    have hi' := mem_range.1 hi
    refine (write_before _ (by omega)).trans ((write_before _ (by omega)).trans ?_)
    exact if_pos ⟨by omega, by omega⟩
  have hhash : m3.read (emLen + 8) 32 = mhash := by
    refine (read_write_before (by omega)).trans ?_
    have h := read_write (m.fill emLen 8 0) (emLen + 8) mhash
    rwa [hm] at h
  have hend : m3.read (emLen + 8 + 32) 32 = salt := by
    have h := read_write m2 (emLen + 8 + 32) (m2.read pos 32)
    exact h.trans hread
  refine ⟨?_, fun i hi => ?_⟩
  · rw [read_add, read_add m3 (emLen + 8) 32 32, hzeros, hhash, hend, append_assoc]
  · exact (write_before i (by omega)).trans (hfill i hi)

lemma pssCheck_iff {h : Bytes} (hlen : 33 ≤ db.length) (hem : emLen = db.length + 33)
    (hdb : m.read 0 db.length = db) (hh : m.read db.length 32 = h) (hm : mhash.length = 32) :
    (pssCheck hash m emLen db.length mhash).1 = true ↔
      (db.take (db.length - 33) = replicate (db.length - 33) 0 ∧ db[db.length - 33]? = some 1) ∧
        hash.bytes (replicate 8 0 ++ mhash ++ db.drop (db.length - 32)) = h := by
  rw [← padding_iff hlen]
  unfold pssCheck
  rw [zerosEnd_eq, hdb]
  generalize (db.takeWhile (· = 0)).length = p
  have hbyte : p < db.length → db.getD p 0 = m p := by
    intro hp
    have h := getElem?_read m 0 db.length p
    rw [hdb, if_pos hp, Nat.zero_add] at h
    rw [getD_eq_getElem?_getD, h, getD_some]
  dsimp only
  by_cases hone : p < db.length ∧ m p = 1
  · rw [if_neg (by simpa [not_or] using hone)]
    by_cases hsalt : db.length - (p + 1) = 32
    · have hdrop : m.read (p + 1) 32 = db.drop (db.length - 32) := by
        have h := read_part hdb (show p + 1 + 32 ≤ db.length by omega)
        rw [Nat.zero_add, take_of_length_le (by rw [length_drop]; omega)] at h
        rw [h, show db.length - 32 = p + 1 by omega]
      obtain ⟨hinput, hframe⟩ := pssInput_eq hm (show p + 1 + 32 ≤ emLen by omega) hdrop
      rw [if_neg (not_not.2 hsalt)]
      generalize ((m.fill emLen 8 0).write (emLen + 8) mhash).write (emLen + 8 + 32)
        (((m.fill emLen 8 0).write (emLen + 8) mhash).read (p + 1) 32) = m3 at hinput hframe ⊢
      rw [hinput]
      have hdigest := read_write m3 emLen (hash.bytes (replicate 8 0 ++ mhash ++ db.drop (db.length - 32)))
      rw [hash.length_bytes] at hdigest
      have hh' : (m3.write emLen (hash.bytes (replicate 8 0 ++ mhash ++ db.drop (db.length - 32)))).read (emLen - 1 - 32) 32 = h := by
        rw [read_write_before (by omega), ← hh, show emLen - 1 - 32 = db.length by omega]
        exact read_congr fun i _ hi => hframe i (by omega)
      rw [hdigest, hh', decide_eq_true_iff]
      exact ⟨fun h => ⟨⟨hone.1, (hbyte hone.1).trans hone.2, hsalt⟩, h⟩, fun h => h.2⟩
    · rw [if_pos hsalt]
      exact ⟨fun h => absurd h Bool.false_ne_true, fun h => absurd h.1.2.2 hsalt⟩
  · rw [if_pos (by rw [ge_iff_le, ← Nat.not_lt]; exact not_and_or.1 hone)]
    refine ⟨fun h => absurd h Bool.false_ne_true, fun h => absurd ⟨h.1.1, ?_⟩ hone⟩
    rw [← hbyte h.1.1]
    exact h.1.2.1

lemma and_top (b : UInt8) : (b &&& ~~~0x7f = 0 ↔ b &&& 0x80 = 0) ∧ (b &&& 0x80 = 0 → b &&& 0x7f = b) := by
  have h : ∀ n < 256, (UInt8.ofNat n &&& ~~~0x7f = 0 ↔ UInt8.ofNat n &&& 0x80 = 0) ∧
      (UInt8.ofNat n &&& 0x80 = 0 → UInt8.ofNat n &&& 0x7f = UInt8.ofNat n) := by decide +kernel
  have hb := h b.toNat b.toNat_lt
  rwa [UInt8.ofNat_toNat] at hb

lemma read_maskTop (m : Mem) (n : ℕ) : (maskTop 0x7f m).read 0 n = clearTop (m.read 0 n) := by
  cases n with
  | zero => rfl
  | succ n =>
    have hbehind : (maskTop 0x7f m).read 1 n = m.read 1 n := read_congr fun i hi _ => write_behind i hi
    rw [Nat.add_comm n 1, read_add, read_add, hbehind]
    rfl

lemma maskTop_frame {i : ℕ} (hi : 0 < i) (b : UInt8) (m : Mem) : maskTop b m i = m i := write_behind i hi

lemma pssUnmask {m' : Mem} (h : 33 < em.length) (hem : m.read 0 em.length = em)
    (hm' : m.write em.length (mgf1 hash.bytes (pssH em) (em.length - 33)) = m') :
    (maskTop 0x7f (m'.xorBlock 0 em.length (em.length - 33))).read 0 (em.length - 33) = pssDb hash.bytes em ∧
      (maskTop 0x7f (m'.xorBlock 0 em.length (em.length - 33))).read (em.length - 33) 32 = m.read (em.length - 33) 32 := by
  have hbefore : ∀ i < em.length, m' i = m i := fun i hi => hm' ▸ write_before i hi
  refine ⟨?_, ?_⟩
  · have hmask : m'.read em.length (em.length - 33) = mgf1 hash.bytes (pssH em) (em.length - 33) := by
      have h := read_write m em.length (mgf1 hash.bytes (pssH em) (em.length - 33))
      rwa [length_mgf1 hash.length_bytes, hm'] at h
    have htake : m'.read 0 (em.length - 33) = em.take (em.length - 33) := by
      rw [read_congr fun i _ hi => hbefore i (by omega)]
      exact read_part hem (show 0 + (em.length - 33) ≤ em.length by omega)
    rw [read_maskTop, read_xorBlock (by omega), hmask, htake, pssDb]
  · refine read_congr fun i hi hlt => ?_
    rw [maskTop_frame (by omega), xorBlock_frame _ (.inr (by omega)), hbefore i (by omega)]

lemma pssTail_iff (h : 66 ≤ em.length) (hmax : em.length ≤ 512) (hem : m.read 0 em.length = em) (hm : mhash.length = 32) :
    (pssTail hash m em.length 0x7f mhash tlsHashSha256).1 = true ↔ em.getLast? = some 0xbc ∧
      ((pssDb hash.bytes em).take (em.length - 66) = replicate (em.length - 66) 0 ∧
        (pssDb hash.bytes em)[em.length - 66]? = some 1) ∧
      hash.bytes (replicate 8 0 ++ mhash ++ (pssDb hash.bytes em).drop ((pssDb hash.bytes em).length - 32)) =
        pssH em := by
  have hlast : em.getLast? = some (m (em.length - 1)) := by
    have h := getElem?_read m 0 em.length (em.length - 1)
    rw [hem, if_pos (by omega), Nat.zero_add] at h
    rw [getLast?_eq_getElem?, h]
  have hH : m.read (em.length - 33) 32 = pssH em := by
    have h := read_part hem (show em.length - 33 + 32 ≤ em.length by omega)
    rwa [Nat.zero_add] at h
  unfold pssTail
  dsimp only
  rw [show em.length - 32 - 1 = em.length - 33 by omega, show em.length - 1 - 32 = em.length - 33 by omega, hH,
    tlsMgf1_eq (by unfold uintRange; omega), hlast, some_inj]
  by_cases hbc : m (em.length - 1) = 0xbc
  · rw [if_neg (not_not.2 hbc)]
    obtain ⟨m', hm'⟩ : ∃ m', m.write em.length (mgf1 hash.bytes (pssH em) (em.length - 33)) = m' := ⟨_, rfl⟩
    obtain ⟨hdb, hkeep⟩ := pssUnmask (by omega) hem hm'
    have hlen := length_pssDb hash.length_bytes em
    rw [hm']
    generalize pssDb hash.bytes em = db at hdb hlen ⊢
    rw [← hlen] at hdb hkeep hH ⊢
    rw [pssCheck_iff (by omega) (by omega) hdb (hkeep.trans hH) hm, show db.length - 33 = em.length - 66 by omega]
    exact ⟨fun h => ⟨hbc, h⟩, fun h => h.2⟩
  · rw [if_pos hbc]
    exact ⟨fun h => absurd h Bool.false_ne_true, fun h => absurd h.1 hbc⟩

lemma pssVerifyIn_eq (h1 : 66 ≤ em.length) (h2 : em.length ≤ 512) (hm : mhash.length = 32)
    (hr : pssVerifyIn hash m em mhash tlsHashSha256 = r) : r.1 = pssVerify hash.bytes mhash em := by
  have hbits : usub (umul em.length 8) 1 % 2 ^ 16 = em.length * 8 - 1 := by
    unfold usub umul uintRange
    omega
  have hunused : usub (umul em.length 8) (em.length * 8 - 1) % 2 ^ 8 = 1 := by
    unfold usub umul uintRange
    omega
  have hone : ¬ (1 > 8 ∨ 1 = 0) := by decide
  have hmask : UInt8.ofNat (0xff >>> 1) = 0x7f := by decide
  have hread : (m.write 0 em).read 0 em.length = em := read_write m 0 em
  have htop : m.write 0 em 0 = em.headD 0 := by
    cases em with
    | nil => exact absurd h1 (by decide)
    | cons b em => rfl
  unfold pssVerifyIn at hr
  dsimp only at hr
  rw [hbits, hunused, if_neg hone, hmask, htop] at hr
  rw [Bool.eq_iff_iff, pssVerify_iff h1]
  by_cases hbit : em.headD 0 &&& 0x80 = 0
  · have hsame : maskTop 0x7f (m.write 0 em) = m.write 0 em := by
      funext i
      rcases Nat.eq_zero_or_pos i with rfl | hi
      · change m.write 0 em 0 &&& 0x7f = m.write 0 em 0
        rw [htop, (and_top _).2 hbit]
      · exact maskTop_frame hi _ _
    rw [if_neg (not_not.2 ((and_top _).1.2 hbit)), hsame] at hr
    rw [← hr, pssTail_iff h1 h2 hread hm]
    exact ⟨fun h => ⟨h.1, hbit, h.2⟩, fun h => ⟨h.1, h.2.2⟩⟩
  · rw [if_pos fun h => hbit ((and_top _).1.1 h)] at hr
    rw [← hr]
    exact ⟨fun h => absurd h Bool.false_ne_true, fun h => absurd h.2.1 hbit⟩

lemma tlsRsaPssVerify_eq (hready : ctx.initialized = true)
    (hscratch : ctx.rsaScratch = some m) (hem : 0 < em.length) (hm : mhash.length = 32)
    (hr : pssVerifyIn hash m em mhash tlsHashSha256 = r) :
    tlsRsaPssVerify hash ctx em mhash tlsHashSha256 = (r.1, ctx.setScratch r.2) := by
  have hne : ¬ em.length = 0 := by omega
  have halg : ¬ tlsHashSha256 ≠ tlsHashSha256 := not_not.2 rfl
  have hlen : ¬ mhash.length ≠ 32 := not_not.2 hm
  unfold tlsRsaPssVerify
  rw [if_neg hne, hready, hscratch]
  dsimp only
  rw [if_neg halg, hr, if_neg hlen]

lemma tlsRsaPssVerify_fst (hready : ctx.initialized = true) (h1 : 66 ≤ em.length) (h2 : em.length ≤ 512) (hm : mhash.length = 32) :
    (tlsRsaPssVerify hash ctx em mhash tlsHashSha256).1 = pssVerify hash.bytes mhash em := by
  obtain ⟨m, hscratch⟩ := exists_scratch hready
  obtain ⟨r, hr⟩ : ∃ r, pssVerifyIn hash m em mhash tlsHashSha256 = r := ⟨_, rfl⟩
  rw [tlsRsaPssVerify_eq hready hscratch (by omega) hm hr]
  exact pssVerifyIn_eq h1 h2 hm hr

/-- **RSA-PSS verification is EMSA-PSS-VERIFY.**  After `tls_init`, the verification of a message of 128 to 512 bytes returns
true exactly for those that are consistent with the hash. -/
theorem pss_verify_iff {rsa ecc : Option Mem} {ctx₀ ctx : TlsCtx} (hinit : ctx₀.tlsInit rsa ecc = (true, ctx))
    (h₁ : 128 ≤ em.length) (h₂ : em.length ≤ 512) (hm : mhash.length = 32) :
    (tlsRsaPssVerify hash ctx em mhash tlsHashSha256).1 = true ↔ Pkcs1.pssVerify hash.bytes mhash em = true := by
  rw [tlsRsaPssVerify_fst (tlsInit_initialized hinit) (by omega) h₂ hm]

def abcSigned : Bytes :=
  [0x46, 0x35, 0x78, 0x50, 0x39, 0x11, 0xc0, 0x87, 0x7c, 0x4e, 0xe1, 0xa2, 0x3a, 0x6d, 0x76, 0x6,
    0x1a, 0x76, 0xa1, 0x70, 0x8a, 0x32, 0x2a, 0x6, 0xf, 0xcc, 0x65, 0xae, 0x8a, 0x14, 0x80, 0x65,
    0x80, 0xe1, 0x28, 0xa1, 0x17, 0xf2, 0x63, 0x7e, 0x5c, 0x9b, 0x5f, 0xa7, 0x38, 0xc9, 0x2a, 0x10,
    0x8e, 0x5e, 0x41, 0x49, 0x32, 0xb4, 0xf, 0x53, 0x7b, 0x54, 0x28, 0x90, 0x31, 0xe4, 0xac, 0xaa,
    0x74, 0x83, 0x5, 0xf9, 0x16, 0x9, 0x8c, 0xe7, 0x5d, 0xb6, 0x50, 0xd4, 0xe9, 0x49, 0xa2, 0x81,
    0x19, 0x72, 0x70, 0xd0, 0xa5, 0x5, 0xac, 0x28, 0x67, 0x46, 0x78, 0x5e, 0xcc, 0x10, 0x49, 0x6c,
    0xa9, 0x64, 0xb5, 0x54, 0x86, 0x21, 0xcb, 0xc0, 0x40, 0x2d, 0x48, 0x38, 0x13, 0x95, 0xca, 0x72,
    0xe1, 0x2a, 0xcc, 0x8b, 0x70, 0x6, 0xd4, 0x78, 0xe1, 0xef, 0xad, 0xb5, 0xcb, 0xf0, 0x24, 0xbc]

def abcDigest : Bytes :=
  [0xba, 0x78, 0x16, 0xbf, 0x8f, 0x1, 0xcf, 0xea, 0x41, 0x41, 0x40, 0xde, 0x5d, 0xae, 0x22, 0x23,
    0xb0, 0x3, 0x61, 0xa3, 0x96, 0x17, 0x7a, 0x9c, 0xb4, 0x10, 0xff, 0x61, 0xf2, 0x0, 0x15, 0xad]

lemma tlsInit_zeros : initial.tlsInit (some fun _ => 0) (some fun _ => 0) =
    (true, (initial.tlsInit (some fun _ => 0) (some fun _ => 0)).2) := rfl

theorem pss_verify_abc : (tlsRsaPssVerify sha256 (TlsCtx.initial.tlsInit (some fun _ => 0) (some fun _ => 0)).2 abcSigned abcDigest
    tlsHashSha256).1 = true := by
  have hspec : pssVerify sha256.bytes abcDigest abcSigned = true := by decide +kernel
  exact (pss_verify_iff tlsInit_zeros (by decide +kernel) (by decide +kernel) rfl).2 hspec

end Pss

/-! ### OAEP -/

section Oaep

variable {hash : Hash} {m : Mem} {em label : Bytes} {a n : ℕ} {message rest : Bytes} {ctx : TlsCtx}

lemma read_unmask (hash : Hash) (m : Mem) (h : a + n ≤ 512) (seed : Bytes) :
    ((m.write 512 (mgf1 hash.bytes seed n)).xorBlock a 512 n).read a n =
      xorBytes (m.read a n) (mgf1 hash.bytes seed n) := by
  have hmask := read_write m 512 (mgf1 hash.bytes seed n)
  rw [length_mgf1 hash.length_bytes] at hmask
  rw [read_xorBlock h, read_write_before h, hmask]

lemma unmask_frame {i : ℕ} {bs : Bytes} (hi : i < 512) (h : i < a ∨ a + n ≤ i) : (m.write 512 bs).xorBlock a 512 n i = m i := by
  rw [xorBlock_frame i h, write_before i hi]

lemma read_oaepUnmask (h1 : 33 ≤ em.length) (h2 : em.length ≤ 512) :
    (oaepUnmask hash m em).read 33 (em.length - 33) = oaepDb hash.bytes em := by
  have hem : (m.write 0 em).read 0 em.length = em := read_write m 0 em
  have hlen : 33 + (em.length - 33) ≤ em.length := by omega
  have hdb : (m.write 0 em).read 33 (em.length - 33) = em.drop 33 := by
    have h := read_part hem hlen
    rwa [take_of_length_le (by rw [length_drop])] at h
  have hseed : (m.write 0 em).read 1 32 = (em.drop 1).take 32 := by
    have h := read_part hem (show 1 + 32 ≤ em.length by omega)
    rwa [Nat.zero_add] at h
  unfold oaepUnmask
  rw [show em.length - 32 - 1 = em.length - 33 by omega]
  simp only [tlsMgf1_eq (show 32 + 32 ≤ uintRange by decide),
    tlsMgf1_eq (show em.length - 33 + 32 ≤ uintRange by unfold uintRange; omega), getD_some]
  rw [hdb]
  generalize m.write 0 em = m0 at hdb hseed ⊢
  have hseed' := read_unmask hash m0 (show 1 + 32 ≤ 512 by decide) (em.drop 33)
  rw [hseed] at hseed'
  have hdb' : ((m0.write 512 (mgf1 hash.bytes (em.drop 33) 32)).xorBlock 1 512 32).read 33 (em.length - 33) = em.drop 33 := by
    rw [← hdb]
    exact read_congr fun i hi hlt => unmask_frame (by omega) (.inr hi)
  generalize (m0.write 512 (mgf1 hash.bytes (em.drop 33) 32)).xorBlock 1 512 32 = m1 at hseed' hdb' ⊢
  rw [hseed', read_unmask hash m1 (by omega), hdb']
  rfl

lemma separator_eq (m : Mem) (i n : ℕ) : separator m i n = i + ((m.read i n).takeWhile (· ≠ 0x01)).length := by
  simp [separator, Mem.read, takeWhile_map, comp_def]

lemma cut_eq_iff (rest : Bytes) (hm : rest.dropWhile (· ≠ 0x01) = 0x01 :: message) :
    (∃ n, rest = replicate n 0 ++ 0x01 :: message) ↔ ∀ b ∈ rest.takeWhile (· ≠ 0x01), b = 0 := by
  constructor
  · rintro ⟨n, hn⟩ b hb
    rw [hn, takeWhile_append_of_pos (by simp), takeWhile_cons_of_neg (by simp), append_nil] at hb
    exact eq_of_mem_replicate hb
  · intro h
    refine ⟨(rest.takeWhile (· ≠ 0x01)).length, ?_⟩
    rw [← eq_replicate_iff.2 ⟨rfl, h⟩, ← hm, takeWhile_append_dropWhile]

lemma dropWhile_ne_eq_cons (h : 0 < (rest.dropWhile (· ≠ 0x01)).length) : ∃ message, rest.dropWhile (· ≠ 0x01) = 0x01 :: message := by
  induction rest with
  | nil => exact absurd h (Nat.lt_irrefl 0)
  | cons b rest ih =>
    by_cases hb : b = 0x01
    · exact ⟨rest, by rw [dropWhile_cons_of_neg (by simpa using hb), hb]⟩
    · rw [dropWhile_cons_of_pos (by simpa using hb)] at h ⊢
      exact ih h

lemma tlsRsaDecodeOaep_eq {m' : Mem} (hready : ctx.initialized = true) (hscratch : ctx.rsaScratch = some m)
    (h1 : 128 ≤ em.length) (h2 : em.length ≤ 512) (outbuf : Mem) (hm' : oaepUnmask hash m em = m') :
    tlsRsaDecodeOaep hash ctx em outbuf label tlsHashSha256 =
      if hash.bytes label ≠ m'.read 33 32 then (0, outbuf, ctx.setScratch m')
      else if separator m' 65 (em.length - 65) = em.length then (0, outbuf, ctx.setScratch m')
      else (em.length - (separator m' 65 (em.length - 65) + 1),
        outbuf.write 0 (m'.read (separator m' 65 (em.length - 65) + 1) (em.length - (separator m' 65 (em.length - 65) + 1))),
        ctx.setScratch m') := by
  have hlen : ¬ (em.length > 512 ∨ em.length < 128) := by omega
  have halg : ¬ tlsHashSha256 ≠ tlsHashSha256 := not_not.2 rfl
  unfold tlsRsaDecodeOaep
  rw [if_neg hlen, hready, hscratch]
  dsimp only
  rw [if_neg halg, hm']

lemma decode_spec (hready : ctx.initialized = true) (h1 : 128 ≤ em.length) (h2 : em.length ≤ 512)
    {outbuf : Mem} (hrest : (oaepDb hash.bytes em).drop 32 = rest)
    {r : ℕ × Mem × TlsCtx} (hr : tlsRsaDecodeOaep hash ctx em outbuf label tlsHashSha256 = r) :
    ((oaepDb hash.bytes em).take 32 ≠ hash.bytes label → r.1 = 0) ∧
      ((oaepDb hash.bytes em).take 32 = hash.bytes label →
        r.1 = (rest.dropWhile (· ≠ 0x01)).length - 1 ∧
        (r.1 ≠ 0 → rest.dropWhile (· ≠ 0x01) = 0x01 :: r.2.1.read 0 r.1)) := by
  obtain ⟨m, hscratch⟩ := exists_scratch hready
  obtain ⟨m', hm'⟩ : ∃ m', oaepUnmask hash m em = m' := ⟨_, rfl⟩
  have hdb : m'.read 33 (em.length - 33) = oaepDb hash.bytes em := hm' ▸ read_oaepUnmask (by omega) h2
  have hhash : m'.read 33 32 = (oaepDb hash.bytes em).take 32 := read_part hdb (show 0 + 32 ≤ em.length - 33 by omega)
  have hbehind : m'.read 65 (em.length - 65) = rest := by
    have h := read_part hdb (show 32 + (em.length - 65) ≤ em.length - 33 by omega)
    have hlen := length_oaepDb hash.length_bytes em
    rwa [hrest, take_of_length_le (by rw [← hrest, length_drop]; omega)] at h
  have hlen : rest.length = em.length - 65 := by rw [← hbehind, length_read]
  have hcut : (rest.takeWhile (· ≠ 0x01)).length + (rest.dropWhile (· ≠ 0x01)).length = rest.length := by
    rw [← length_append, takeWhile_append_dropWhile]
  rw [tlsRsaDecodeOaep_eq hready hscratch h1 h2 outbuf hm', hhash, separator_eq, hbehind] at hr
  refine ⟨fun hne => ?_, fun heq => ?_⟩
  · rw [if_pos (Ne.symm hne)] at hr
    rw [← hr]
  · rw [if_neg (not_not.2 heq.symm)] at hr
    split_ifs at hr with hend
    · rw [← hr]
      exact ⟨by omega, fun h => absurd rfl h⟩
    · rw [← hr]
      refine ⟨?_, fun _ => ?_⟩
      · omega
      · obtain ⟨message, hmessage⟩ := dropWhile_ne_eq_cons (show 0 < (rest.dropWhile (· ≠ 0x01)).length by omega)
        have hlast : rest.drop ((rest.takeWhile (· ≠ 0x01)).length + 1) = message := by
          have h := congrArg (List.drop (rest.takeWhile (· ≠ 0x01)).length) (takeWhile_append_dropWhile (p := (· ≠ 0x01)) (l := rest))
          rw [drop_left, hmessage] at h
          rw [← drop_drop, ← h, drop_one, tail_cons]
        have hread := read_part hbehind (show (rest.takeWhile (· ≠ 0x01)).length + 1 +
          (em.length - (65 + (rest.takeWhile (· ≠ 0x01)).length + 1)) ≤ em.length - 65 by omega)
        rw [hlast, take_of_length_le (by rw [← hlast, length_drop]; omega), ← Nat.add_assoc] at hread
        have hout := read_write outbuf 0 message
        rw [hmessage, hread]
        have hmlen : message.length = em.length - (65 + (rest.takeWhile (· ≠ 0x01)).length + 1) := by
          rw [← hread, length_read]
        rw [← hmlen, hout]

lemma encodes_iff (hlabel : (oaepDb hash.bytes em).take 32 = hash.bytes label)
    (hcut : ((oaepDb hash.bytes em).drop 32).dropWhile (· ≠ 0x01) = 0x01 :: message) :
    Pkcs1.OaepEncodes hash.bytes label em message ↔
      (em.head? = some 0 ∧ ∀ b ∈ ((oaepDb hash.bytes em).drop 32).takeWhile (· ≠ 0x01), b = 0) := by
  unfold Pkcs1.OaepEncodes
  generalize oaepDb hash.bytes em = db at hlabel hcut ⊢
  rw [← cut_eq_iff _ hcut, ← hlabel]
  refine and_congr_right fun _ => exists_congr fun n => ?_
  rw [append_assoc]
  constructor
  · intro h
    exact append_cancel_left ((take_append_drop 32 db).trans h)
  · intro h
    exact (take_append_drop 32 db).symm.trans (congrArg _ h)

/-- **Where OAEP decoding gives only messages that are encoded.** -/
theorem oaep_sound_iff {rsa ecc : Option Mem} {ctx₀ ctx : TlsCtx} (hinit : ctx₀.tlsInit rsa ecc = (true, ctx))
    (h₁ : 128 ≤ em.length) (h₂ : em.length ≤ 512) (label : Bytes) (outbuf : Mem) :
    ((tlsRsaDecodeOaep hash ctx em outbuf label tlsHashSha256).1 ≠ 0 → Pkcs1.OaepEncodes hash.bytes label em
      ((tlsRsaDecodeOaep hash ctx em outbuf label tlsHashSha256).2.1.read 0
        (tlsRsaDecodeOaep hash ctx em outbuf label tlsHashSha256).1)) ↔
    ((Pkcs1.oaepDb hash.bytes em).take 32 = hash.bytes label →
      (((Pkcs1.oaepDb hash.bytes em).drop 32).dropWhile (· ≠ 0x01)).length ≤ 1 ∨
        (em.head? = some 0 ∧ ∀ b ∈ ((Pkcs1.oaepDb hash.bytes em).drop 32).takeWhile (· ≠ 0x01), b = 0)) := by
  obtain ⟨r, hr⟩ : ∃ r, tlsRsaDecodeOaep hash ctx em outbuf label tlsHashSha256 = r := ⟨_, rfl⟩
  obtain ⟨hno, hyes⟩ := decode_spec (tlsInit_initialized hinit) h₁ h₂ rfl hr
  rw [hr]
  by_cases hlabel : (oaepDb hash.bytes em).take 32 = hash.bytes label
  · obtain ⟨hlen, hcut⟩ := hyes hlabel
    by_cases hzero : r.1 = 0
    · exact ⟨fun _ _ => .inl (by omega), fun _ h => absurd hzero h⟩
    · have hencodes := encodes_iff hlabel (hcut hzero)
      constructor
      · intro h _
        exact .inr (hencodes.1 (h hzero))
      · intro h _
        rcases h hlabel with hshort | hgood
        · omega
        · exact hencodes.2 hgood
  · exact ⟨fun _ h => absurd h hlabel, fun _ h => absurd (hno hlabel) h⟩

def hiEncoded : Bytes :=
  [0x0, 0x55, 0x81, 0xb3, 0x41, 0x87, 0x91, 0x29, 0xf, 0x4f, 0xd0, 0x76, 0xa0, 0xd8, 0x14, 0x7c,
    0xb3, 0xcb, 0x91, 0xe1, 0x32, 0xab, 0x42, 0xca, 0x7, 0x2a, 0xa6, 0xc7, 0x97, 0x7b, 0xe3, 0xf7,
    0x79, 0x8e, 0x6, 0x9b, 0x97, 0x7, 0x2f, 0x4a, 0xe2, 0xe8, 0x6a, 0xb4, 0x9f, 0x82, 0x34, 0x74,
    0x4f, 0x94, 0x16, 0x75, 0x76, 0xc5, 0xf5, 0x88, 0xbc, 0x7, 0x1d, 0xdd, 0x59, 0x84, 0x6e, 0x32,
    0x5b, 0x21, 0x58, 0xa8, 0x90, 0x6d, 0x5e, 0x2c, 0x2b, 0xe0, 0x1, 0xba, 0xc9, 0x43, 0xab, 0x9c,
    0xab, 0x40, 0x63, 0x53, 0x6e, 0x1c, 0x54, 0x6b, 0x40, 0x22, 0x1f, 0xdf, 0x8d, 0xb0, 0x31, 0xa4,
    0xbb, 0xe1, 0x5f, 0x37, 0x44, 0x23, 0x63, 0x37, 0x1, 0xe0, 0x4f, 0xe1, 0x7c, 0x1d, 0x64, 0xb,
    0x34, 0xf2, 0xe2, 0x7b, 0x8f, 0x6a, 0xec, 0x0, 0xe2, 0x4f, 0x1d, 0xcf, 0x50, 0xac, 0x61, 0x49]

def hiPadded : Bytes :=
  [0x0, 0x3d, 0x4d, 0x63, 0xb1, 0xc9, 0x2, 0x89, 0xc2, 0xcc, 0xa8, 0x68, 0x1b, 0x6, 0x80, 0xb9,
    0xec, 0xf2, 0xfc, 0x1, 0x36, 0x3e, 0xe9, 0x7b, 0xc5, 0x49, 0xfd, 0x1a, 0x50, 0x63, 0x63, 0x5e,
    0x84, 0x8e, 0x6, 0x9b, 0x97, 0x7, 0x2f, 0x4a, 0xe2, 0xe8, 0x6a, 0xb4, 0x9f, 0x82, 0x34, 0x74,
    0x4f, 0x94, 0x16, 0x75, 0x76, 0xc5, 0xf5, 0x88, 0xbc, 0x7, 0x1d, 0xdd, 0x59, 0x84, 0x6e, 0x32,
    0x5b, 0x21, 0x58, 0xa8, 0x90, 0x6d, 0x5e, 0x2c, 0x2b, 0xe0, 0x1, 0xba, 0xc9, 0x43, 0xab, 0x9c,
    0xab, 0x40, 0x63, 0x53, 0x6e, 0x1c, 0x54, 0x6b, 0x40, 0x22, 0x1f, 0xdf, 0x8d, 0xb0, 0x31, 0xa4,
    0xbb, 0xe1, 0x5f, 0x37, 0x44, 0x23, 0x63, 0x37, 0x1, 0xe0, 0x4f, 0xe1, 0x7c, 0x1d, 0x64, 0xb,
    0x34, 0xf2, 0xe2, 0x7b, 0x8f, 0x6a, 0xec, 0x0, 0xe2, 0x4f, 0x1d, 0xcf, 0x52, 0xac, 0x61, 0x49]

lemma decode_two (em : Bytes) (h1 : 128 ≤ em.length) (h2 : em.length ≤ 512) (hlabel : (oaepDb sha256.bytes em).take 32 = sha256.bytes [])
    (hcut : (((oaepDb sha256.bytes em).drop 32).dropWhile (· ≠ 0x01)).length = 3) :
    ∃ r, tlsRsaDecodeOaep sha256 (initial.tlsInit (some fun _ => 0) (some fun _ => 0)).2 em (fun _ => 0) [] tlsHashSha256 = r ∧
      r.1 = 2 ∧ ((oaepDb sha256.bytes em).drop 32).dropWhile (· ≠ 0x01) = 0x01 :: r.2.1.read 0 r.1 := by
  refine ⟨_, rfl, ?_⟩
  obtain ⟨hlen, hdrop⟩ := (decode_spec (tlsInit_initialized tlsInit_zeros) h1 h2 rfl rfl).2 hlabel
  rw [hcut] at hlen
  exact ⟨hlen, hdrop (hlen ▸ by decide)⟩

theorem oaep_sound_hi :
    ∃ r, tlsRsaDecodeOaep sha256 (TlsCtx.initial.tlsInit (some fun _ => 0) (some fun _ => 0)).2 hiEncoded (fun _ => 0) []
      tlsHashSha256 = r ∧ r.1 = 2 ∧ Pkcs1.OaepEncodes sha256.bytes [] hiEncoded (r.2.1.read 0 r.1) := by
  have h1 : 128 ≤ hiEncoded.length := by decide +kernel
  have h2 : hiEncoded.length ≤ 512 := by decide +kernel
  have hgood : hiEncoded.head? = some 0 ∧ ∀ b ∈ ((oaepDb sha256.bytes hiEncoded).drop 32).takeWhile (· ≠ 0x01), b = 0 := by
    decide +kernel
  have hsound := (oaep_sound_iff tlsInit_zeros h1 h2 [] (fun _ => 0)).2 fun _ => .inr hgood
  obtain ⟨r, hr, hlen, -⟩ := decode_two hiEncoded h1 h2 (by decide +kernel) (by decide +kernel)
  rw [hr] at hsound
  exact ⟨r, hr, hlen, hsound (hlen ▸ by decide)⟩

/-- A padding that is not of zeros is accepted. -/
theorem oaep_accepts_padded :
    ∃ r, tlsRsaDecodeOaep sha256 (TlsCtx.initial.tlsInit (some fun _ => 0) (some fun _ => 0)).2 hiPadded (fun _ => 0) []
      tlsHashSha256 = r ∧ r.1 = 2 ∧ ¬ Pkcs1.OaepEncodes sha256.bytes [] hiPadded (r.2.1.read 0 r.1) := by
  have hlabel : (oaepDb sha256.bytes hiPadded).take 32 = sha256.bytes [] := by decide +kernel
  have hbad : 2 ∈ ((oaepDb sha256.bytes hiPadded).drop 32).takeWhile (· ≠ 0x01) := by decide +kernel
  obtain ⟨r, hr, hlen, hdrop⟩ := decode_two hiPadded (by decide +kernel) (by decide +kernel) hlabel (by decide +kernel)
  refine ⟨r, hr, hlen, fun hencodes => ?_⟩
  have htwo := ((encodes_iff hlabel hdrop).1 hencodes).2 2 hbad
  exact absurd htwo (by decide)

lemma xorMask_eq (out mask : Mem) (a n : ℕ) : xorMask out mask a n = out.write a (xorBytes (out.read a n) (mask.read 0 n)) := by
  induction n with
  | zero =>
    funext i
    simp [xorMask, xorBytes, Mem.read, Mem.write]
  | succ n ih =>
    have hlen : (xorBytes (out.read a n) (mask.read 0 n)).length = n := by simp
    have hloop : xorMask out mask a (n + 1) =
        (xorMask out mask a n).write (a + n) [xorMask out mask a n (a + n) ^^^ mask n] := by
      rw [xorMask, range_succ, foldl_append]
      rfl
    have hlast : xorBytes (out.read a (n + 1)) (mask.read 0 (n + 1)) = xorBytes (out.read a n) (mask.read 0 n) ++
        [out (a + n) ^^^ mask n] := by
      rw [read_add, read_add, Nat.zero_add, xorBytes, zipWith_append (by simp)]
      rfl
    rw [hloop, ih, write_behind _ (by omega), hlast, ← write_append, hlen]

lemma read_mask (m : Mem) (bs : Bytes) (h : bs.length = n) : (m.write 0 bs).read 0 n = bs := h ▸ read_write m 0 bs

lemma oaepWrites_eq (outbuf : Mem) (seed : Arr 32) (lhash zeros message : Bytes) (h : lhash.length = 32) :
    (((((outbuf.write 0 [0x00]).write 1 seed.val).write 33 lhash).write 65 zeros).write (65 + zeros.length) [0x01]).write
      (65 + zeros.length + 1) message = outbuf.write 0 (0x00 :: (seed.val ++ (lhash ++ (zeros ++ 0x01 :: message)))) := by
  have happend : ∀ {k : ℕ} {bs : Bytes} (cs : Bytes), bs.length = k → (outbuf.write 0 bs).write k cs = outbuf.write 0 (bs ++ cs) := by
    rintro k bs cs rfl
    have h := write_append outbuf 0 bs cs
    rwa [Nat.zero_add] at h
  have hseed := seed.property
  rw [happend (k := 1) _ rfl, happend _ (by simp [hseed]), happend _ (by simp [hseed, h]), happend _ (by simp [hseed, h]; omega),
    happend _ (by simp [hseed, h]; omega)]
  simp

lemma tlsRsaEncodeOaep_eq (hash : Hash) (label : Bytes) (hready : ctx.initialized = true) (h1 : 128 ≤ n) (h2 : n ≤ 512)
    (hpos : 0 < message.length) (hfit : message.length + 66 ≤ n) (outbuf : Mem) (seed : Arr 32) :
    ∃ out m', tlsRsaEncodeOaep hash ctx message outbuf n label seed tlsHashSha256 = (true, out, ctx.setScratch m') ∧
      out.read 0 n = oaepEncode hash.bytes label seed.val message n := by
  obtain ⟨m, hscratch⟩ := exists_scratch hready
  have hps : usub (usub n message.length) 66 = n - message.length - 66 := by
    unfold usub uintRange
    omega
  have hsum : uadd message.length 66 = message.length + 66 := by
    unfold uadd uintRange
    omega
  have hwrites := oaepWrites_eq outbuf seed (hash.bytes label) (replicate (n - message.length - 66) 0) message (hash.length_bytes label)
  rw [length_replicate, ← fill_eq_write] at hwrites
  unfold tlsRsaEncodeOaep
  rw [if_neg (by omega), hready, hscratch]
  dsimp only
  rw [if_neg (not_not.2 rfl), if_neg (by omega), hps, hwrites, show n - 32 - 1 = n - 33 by omega]
  have hblock : (oaepBlock hash.bytes label message n).length = n - 33 := length_oaepBlock hash.length_bytes hfit
  rw [oaepEncode]
  -- the plain message, and the two masks
  have hout := read_mask outbuf (0x00 :: (seed.val ++ oaepBlock hash.bytes label message n))
    (show _ = n by simp only [length_cons, length_append, seed.property, hblock]; omega)
  rw [show hash.bytes label ++ (replicate (n - message.length - 66) 0 ++ 0x01 :: message) =
    oaepBlock hash.bytes label message n from rfl]
  generalize outbuf.write 0 (0x00 :: (seed.val ++ oaepBlock hash.bytes label message n)) = out at hout
  generalize oaepBlock hash.bytes label message n = db at hblock hout
  have hseed : out.read 1 32 = seed.val := by
    have h := read_part hout (show 1 + 32 ≤ n by omega)
    rwa [drop_one, tail_cons, take_left' seed.property] at h
  have hdb : out.read 33 (n - 33) = db := by
    have h := read_part hout (show 33 + (n - 33) ≤ n by omega)
    rwa [drop_succ_cons, drop_left' seed.property, take_of_length_le (by omega)] at h
  have hmask := length_mgf1 hash.length_bytes seed.val (n - 33)
  rw [hseed, tlsMgf1_eq (by unfold uintRange; omega), getD_some, xorMask_eq out _ 33, read_mask _ _ hmask, hdb]
  obtain ⟨masked, hmasked⟩ : ∃ masked, xorBytes db (mgf1 hash.bytes seed.val (n - 33)) = masked := ⟨_, rfl⟩
  have hlen : masked.length = n - 33 := by rw [← hmasked, length_xorBytes, hblock, hmask, Nat.min_self]
  have hlen' : (xorBytes seed.val (mgf1 hash.bytes masked 32)).length = 32 := by
    rw [length_xorBytes, seed.property, length_mgf1 hash.length_bytes, Nat.min_self]
  have hread : (out.write 33 masked).read 33 (n - 33) = masked := hlen ▸ read_write out 33 masked
  rw [hmasked, hread, tlsMgf1_eq (by decide), getD_some, xorMask_eq, read_write_before (by decide), hseed,
    read_mask _ _ (length_mgf1 hash.length_bytes ..)]
  refine ⟨_, _, rfl, ?_⟩
  have hinside := read_write_inside out 0 masked (k := 33) (n := n) (by omega)
  rw [hout, take_succ_cons, take_left' seed.property, drop_eq_nil_of_le (by simp [seed.property, hblock]; omega),
    append_nil] at hinside
  have hfinal := read_write_inside (out.write 33 masked) 0 (xorBytes seed.val (mgf1 hash.bytes masked 32)) (k := 1) (n := n)
    (by omega)
  rw [hinside, hlen', cons_append, take_succ_cons, drop_succ_cons,
    drop_left' seed.property] at hfinal
  exact hfinal

/-- **The OAEP round trip**: what has been encoded is decoded under the same label, and refused under one with another hash. -/
theorem oaep_round_trip {rsa ecc : Option Mem} {ctx₀ ctx : TlsCtx} (hash : Hash) (hinit : ctx₀.tlsInit rsa ecc = (true, ctx)) (n : ℕ)
    (h₁ : 128 ≤ n) (h₂ : n ≤ 512) (message : Bytes) (hpos : 1 ≤ message.length) (hfit : message.length ≤ n - 66) (label : Bytes)
    (seed : Arr 32) (outbuf : Mem) :
    ∃ out ctx', tlsRsaEncodeOaep hash ctx message outbuf n label seed tlsHashSha256 = (true, out, ctx') ∧
      (∀ outbuf' r, tlsRsaDecodeOaep hash ctx' (out.read 0 n) outbuf' label tlsHashSha256 = r →
        r.1 = message.length ∧ r.2.1.read 0 r.1 = message) ∧
      ∀ label' outbuf', hash.bytes label' ≠ hash.bytes label →
        (tlsRsaDecodeOaep hash ctx' (out.read 0 n) outbuf' label' tlsHashSha256).1 = 0 := by
  have hready := tlsInit_initialized hinit
  have hroom : message.length + 66 ≤ n := by omega
  obtain ⟨out, m', hout, hem⟩ := tlsRsaEncodeOaep_eq hash label hready h₁ h₂ hpos hroom outbuf seed
  have hready' : (ctx.setScratch m').initialized = true := hready
  have hlen : (out.read 0 n).length = n := length_read ..
  have hdb : oaepDb hash.bytes (out.read 0 n) = oaepBlock hash.bytes label message n :=
    hem ▸ oaepDb_encode hash.length_bytes seed.property hroom
  have htake : (oaepDb hash.bytes (out.read 0 n)).take 32 = hash.bytes label := hdb ▸ take_left' (hash.length_bytes label)
  have hdrop : (oaepDb hash.bytes (out.read 0 n)).drop 32 = replicate (n - message.length - 66) 0 ++ 0x01 :: message :=
    hdb ▸ drop_left' (hash.length_bytes label)
  have hcut : (replicate (n - message.length - 66) 0 ++ 0x01 :: message).dropWhile (· ≠ 0x01) = 0x01 :: message := by
    rw [dropWhile_append_of_pos (by simp), dropWhile_cons_of_neg (by simp)]
  refine ⟨out, _, hout, fun outbuf' r hr => ?_, fun label' outbuf' hne => ?_⟩
  · obtain ⟨hn, hmessage⟩ := (decode_spec hready' (by omega) (by omega) hdrop hr).2 htake
    rw [hcut, length_cons] at hn
    have heq := hmessage (by omega)
    rw [hcut] at heq
    exact ⟨hn, (List.cons.inj heq).2.symm⟩
  · refine (decode_spec hready' (by omega) (by omega) hdrop rfl).1 ?_
    rw [htake]
    exact hne.symm

theorem oaep_round_trip_hi : ∃ out ctx', tlsRsaEncodeOaep sha256 (TlsCtx.initial.tlsInit (some fun _ => 0) (some fun _ => 0)).2
    (ascii "hi") (fun _ => 0) 128 [] (.zero 32) tlsHashSha256 = (true, out, ctx') ∧
      ∃ r, tlsRsaDecodeOaep sha256 ctx' (out.read 0 128) (fun _ => 0) [] tlsHashSha256 = r ∧ r.1 = 2 ∧ r.2.1.read 0 r.1 = ascii "hi" := by
  obtain ⟨out, ctx', hout, hsame, -⟩ := oaep_round_trip sha256 tlsInit_zeros 128 (by decide) (by decide) (ascii "hi") (by decide) (by decide) []
    (.zero 32) (fun _ => 0)
  obtain ⟨hlen, hmessage⟩ := hsame (fun _ => 0) _ rfl
  exact ⟨out, ctx', hout, _, rfl, hlen, hmessage⟩

end Oaep

/-! ### The public operation -/

lemma pow_odd_mod_succ (x k : ℕ) : x ^ (2 * k + 1) % (x + 1) = x := by
  have hsq : x ^ 2 ≡ 1 [MOD x + 1] := by
    refine (modEq_of_dvd ⟨1 - x, ?_⟩)
    push_cast
    ring
  have h : x ^ (2 * k + 1) ≡ x [MOD x + 1] := by
    rw [pow_succ, pow_mul]
    simpa using (hsq.pow k).mul_right x
  rw [h, mod_eq_of_lt (lt_succ_self x)]

def PublicOp (k : ℕ) : Prop :=
  ∀ pubkey : Bytes, pubkey.length = k → beNat pubkey % 2 = 1 →
    (∀ block : Bytes, block.length = k → beNat block < beNat pubkey →
      tlsRsaDecryptSignature block pubkey = some (be k (beNat block ^ 65537 % beNat pubkey))) ∧
    ∀ (hash : Hash) (ctx ctx' : TlsCtx) (inbuf : Bytes) (outbuf block : Mem) (seed : Arr 32) (hashAlg : ℕ),
      rsaEncryptBlock hash ctx inbuf outbuf pubkey seed hashAlg = (true, block, ctx') →
        ∃ out, tlsRsaEncrypt hash ctx inbuf outbuf pubkey seed hashAlg = (true, out, ctx') ∧
          out.read 0 k = be k (beNat (block.read 0 k) ^ 65537 % beNat pubkey)

lemma powmodExpU24_eq {k e : ℕ} {block pubkey : Bytes} (h1 : 0 < k) (h2 : k ≤ 256) (hblock : block.length = k)
    (hkey : pubkey.length = k) : powmodExpU24 (k % 256) block e pubkey = be k (beNat block ^ e % beNat pubkey) := by
  have hsize : (if k % 256 = 0 then 256 else k % 256) = k := by split_ifs <;> omega
  unfold powmodExpU24
  dsimp only
  rw [hsize, take_of_length_le hblock.le, take_of_length_le hkey.le, drop_eq_nil_of_le hblock.le, append_nil]

lemma lastByte_odd {pubkey : Bytes} (hodd : beNat pubkey % 2 = 1) : pubkey.getD (pubkey.length - 1) 0 &&& 1 ≠ 0 := by
  induction pubkey using reverseRecOn with
  | nil => exact absurd hodd (by decide)
  | append_singleton bs b =>
    intro h
    have hand : b.toNat &&& 1 = 0 := by simpa using congrArg UInt8.toNat h
    rw [beNat_concat] at hodd
    rw [and_one_is_mod] at hand
    omega

lemma tlsRsaDecryptSignature_eq {k : ℕ} {block pubkey : Bytes} (hblock : block.length = k) (hkey : pubkey.length = k) (h1 : 128 ≤ k)
    (h2 : k ≤ 512) (hodd : beNat pubkey % 2 = 1) :
    tlsRsaDecryptSignature block pubkey = some (powmodExpU24 (k % 256) block 65537 pubkey) := by
  have hlast := lastByte_odd hodd
  rw [hkey] at hlast
  unfold tlsRsaDecryptSignature
  rw [hkey, if_neg (by rintro (h | h | h | h) <;> first | omega | exact hlast h), take_of_length_le hblock.le]

lemma publicOp_of_le {k : ℕ} (h1 : 128 ≤ k) (h2 : k ≤ 256) : PublicOp k := by
  intro pubkey hkey hodd
  refine ⟨fun block hblock _ => ?_, fun hash ctx ctx' inbuf outbuf block seed hashAlg h => ?_⟩
  · rw [tlsRsaDecryptSignature_eq hblock hkey h1 (by omega) hodd, powmodExpU24_eq (by omega) h2 hblock hkey]
  · have hread := length_read block 0 k
    refine ⟨block.write 0 (be k (beNat (block.read 0 k) ^ 65537 % beNat pubkey)), ?_, ?_⟩
    · unfold tlsRsaEncrypt
      rw [h, hkey]
      dsimp only
      rw [if_pos rfl, powmodExpU24_eq (by omega) h2 hread hkey]
    · exact (congrArg _ (length_be k _).symm).trans (read_write ..)

/-- A modulus of ones and the number before it: the leading bytes are equal, and become zeros. -/
lemma decrypt_ones {k : ℕ} (h1 : 256 < k) (h2 : k ≤ 512) :
    let block := replicate (k - 1) 0xff ++ [0xfe]
    let pubkey := replicate k 0xff
    beNat pubkey % 2 = 1 ∧ beNat block < beNat pubkey ∧
      tlsRsaDecryptSignature block pubkey ≠ some (be k (beNat block ^ 65537 % beNat pubkey)) := by
  intro block pubkey
  have hblock : block.length = k := by simp [block]; omega
  have hones : ∀ n, beNat (replicate (n + 1) 0xff) = 256 * beNat (replicate n 0xff) + 255 := fun n => by
    rw [replicate_succ', beNat_concat]
    rfl
  have hkey : beNat pubkey = beNat block + 1 := by
    rw [beNat_concat, show pubkey = replicate (k - 1 + 1) 0xff by rw [Nat.sub_add_cancel (by omega)], hones]
    rfl
  have hodd : beNat pubkey % 2 = 1 := by
    rw [hkey, beNat_concat, show UInt8.toNat 0xfe = 254 by rfl]
    omega
  refine ⟨hodd, by omega, fun h => ?_⟩
  rw [tlsRsaDecryptSignature_eq hblock length_replicate (by omega) h2 hodd, hkey, show 65537 = 2 * 32768 + 1 by rfl,
    pow_odd_mod_succ, some_inj] at h
  unfold powmodExpU24 at h
  generalize hn : (if k % 256 = 0 then 256 else k % 256) = n at h
  have hpos : 0 < n ∧ n ≤ k - 1 := by split_ifs at hn <;> omega
  have hsame : block.take n = replicate n 0xff := by rw [take_append_of_le_length (by simpa using hpos.2), take_replicate, min_eq_left hpos.2]
  have hhead := congrArg (fun bs => beNat (bs.take n)) h
  rw [take_left' (length_be ..), beNat_be, hsame, take_replicate, min_eq_left (by omega), mod_eq_zero_of_dvd (dvd_pow_self _ (by decide)),
    zero_mod, ← hblock, be_beNat, hsame, ← succ_pred_eq_of_pos hpos.1, hones] at hhead
  omega

/-- RSA-3072. -/
theorem decrypt_ones_384 :
    let block := replicate (384 - 1) 0xff ++ [0xfe]
    let pubkey := replicate 384 0xff
    beNat pubkey % 2 = 1 ∧ beNat block < beNat pubkey ∧
      tlsRsaDecryptSignature block pubkey ≠ some (be 384 (beNat block ^ 65537 % beNat pubkey)) :=
  decrypt_ones (by decide) (by decide)

/-- **The public operation** is that of RSA for the moduli of at most 256 bytes: the size of the assembly has eight bits. -/
theorem public_op_iff (k : ℕ) (h1 : 128 ≤ k) (h2 : k ≤ 512) : PublicOp k ↔ k ≤ 256 := by
  refine ⟨fun h => ?_, publicOp_of_le h1⟩
  by_contra hk
  obtain ⟨hodd, hlt, hne⟩ := decrypt_ones (Nat.lt_of_not_le hk) h2
  exact hne ((h _ length_replicate hodd).1 _ (by simp; omega) hlt)

theorem public_op_256 : PublicOp 256 := (public_op_iff 256 (by decide) (by decide)).2 (by decide)

end LwftpCe.Tls
