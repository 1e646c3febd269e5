import LwftpCe.Lib.Aes
import LwftpCe.Lib.Memory
import LwftpCe.Lib.Uint

/-!
# AES in GCM and CBC mode

`aes.c` from `ghash` on.  The block cipher and the product of GCM are parameters (`Prims`); the round keys of a context
are represented by the key they are made from.  A call that reads from a buffer and writes to another one also returns
the ranges of the two that it has accessed, so that one can say that it stays inside the bytes it was given.
-/

namespace LwftpCe.Tls

open Lib List

/-- `enum tls_aes_modes`. -/
inductive AesMode
  | gcm
  | cbc
deriving DecidableEq

/-- `enum _aes_op_assoc`. -/
inductive AesOp
  | none
  | encrypt
  | decrypt
deriving DecidableEq

/-- `enum GCM_OPS_ALLOWED`. -/
inductive GcmLock
  | allowAll
  | allowEncrypt
  | allowNone
deriving DecidableEq

/-- `aes_encrypt_block` and `aes_decrypt_block` with the round keys of a key, and `gf128_mul`. -/
structure Prims where
  encryptBlock : Bytes → Block → Block
  decryptBlock : Bytes → Block → Block
  gf128Mul : Block → Block → Block

/-- AES, its inverse, and the product of SP 800-38D. -/
def aesPrims : Prims := ⟨Aes.cipher, Aes.decipher, gfMul⟩

/-- `struct tls_aes_context`. -/
structure AesCtx where
  mode : AesMode
  /-- the key of the `round_keys` -/
  key : Bytes
  iv : Block
  opAssoc : AesOp
  ghashKey : Block
  authTag : Block
  lastBlock : Block
  lastBlockLen : ℕ
  /-- the first `aad_cache_len` bytes of `aad_cache` -/
  aadCache : Bytes
  authJ0 : Block
  aadLen : ℕ
  ctLen : ℕ
  lock : GcmLock

/-! ### The hash -/

def ghashLoop (mul : Block → Block → Block) (key : Block) (s : Block × Bytes) (data : Bytes) : Block × Bytes :=
  (List.range ((data.length + 15) / 16)).foldl
    (fun s i =>
      let bytesCopy := min 16 (data.length - 16 * i)
      if bytesCopy < 16 then (s.1, (data.drop (16 * i)).take bytesCopy)
      else (mul (s.1 ^^^ .ofBytes ((data.drop (16 * i)).take 16)) key, s.2))
    s

def ghash (mul : Block → Block → Block) (key out : Block) (cache data : Bytes) : Block × Bytes :=
  if cache.length ≠ 0 then
    let dataOffset := min data.length (16 - cache.length)
    if dataOffset + cache.length < 16 then (out, cache ++ data.take dataOffset)
    else ghashLoop mul key (mul (out ^^^ .ofBytes (cache ++ data.take dataOffset)) key, []) (data.drop dataOffset)
  else ghashLoop mul key (out, cache) data

def AesCtx.ghash (P : Prims) (ctx : AesCtx) (data : Bytes) : AesCtx :=
  let s := Tls.ghash P.gf128Mul ctx.ghashKey ctx.authTag ctx.aadCache data
  { ctx with authTag := s.1, aadCache := s.2 }

/-- `bytelen_to_bitlen`: three times `add hl, hl` and `adc a, a`, then `a`, `h` and `l` behind five zeros. -/
def bytelenToBitlen (size : ℕ) : Bytes :=
  let twice := fun r : ℕ × ℕ => (2 * r.1 % 2 ^ 24, 2 * r.2 + 2 * r.1 / 2 ^ 24)
  let r := twice (twice (twice (size, 0)))
  [0, 0, 0, 0, 0, UInt8.ofNat r.2, UInt8.ofNat (r.1 / 256), UInt8.ofNat r.1]

@[simp] lemma length_bytelenToBitlen (size : ℕ) : (bytelenToBitlen size).length = 8 := rfl

def incrementBytes (start : ℕ) : ℕ → Bytes → Bytes
  | 0, iv => iv
  | size + 1, iv =>
    let b := iv.getD (start + size) 0 + 1
    let iv := iv.set (start + size) b
    if b ≠ 0 then iv else incrementBytes start size iv

@[simp] lemma length_incrementBytes (start size : ℕ) (iv : Bytes) : (incrementBytes start size iv).length = iv.length := by
  induction size generalizing iv with
  | zero => rfl
  | succ size ih =>
    unfold incrementBytes
    dsimp only
    split
    · exact length_set
    · rw [ih, length_set]

def incrementIv (iv : Block) : Block := ⟨incrementBytes 12 4 iv.bytes, by simp⟩

/-! ### Contexts -/

/-- `aes_gcm_prepare_iv`, for a context that has the key of the hash and whose `iv` has the bytes of `iv`. -/
def aesGcmPrepareIv (P : Prims) (ctx : AesCtx) (iv : Bytes) : AesCtx :=
  if iv.length = 12 then { ctx with iv := ⟨ctx.iv.bytes.set 15 1, by simp⟩ }
  else
    let s := ghash P.gf128Mul ctx.ghashKey 0 ctx.aadCache (Block.ofBytes iv).bytes
    let t := ghash P.gf128Mul ctx.ghashKey s.1 s.2 (List.replicate 8 0 ++ bytelenToBitlen iv.length)
    { ctx with iv := t.1, aadCache := t.2 }

def AesCtx.blank (mode : AesMode) (key iv : Bytes) : AesCtx where
  mode := mode
  key := key
  iv := .ofBytes iv
  opAssoc := .none
  ghashKey := 0
  authTag := 0
  lastBlock := 0
  lastBlockLen := 0
  aadCache := []
  authJ0 := 0
  aadLen := 0
  ctLen := 0
  lock := .allowAll

def tlsAesInit (P : Prims) (mode : AesMode) (key iv : Bytes) : Option AesCtx :=
  let keyLen := umul key.length 8
  if iv.length > 16 then none
  else if keyLen ≠ 128 ∧ keyLen ≠ 192 ∧ keyLen ≠ 256 then none
  else
    let ctx := AesCtx.blank mode (key.take (keyLen / 8)) iv
    match mode with
    | .gcm =>
      let ctx := { ctx with ghashKey := P.encryptBlock ctx.key 0 }
      let ctx := aesGcmPrepareIv P ctx iv
      some { ctx with authTag := 0, authJ0 := ctx.iv, iv := incrementIv ctx.iv }
    | .cbc => some ctx

def tlsAesUpdateAad (P : Prims) (ctx : AesCtx) (aad : Bytes) : Option AesCtx :=
  if ctx.mode ≠ .gcm then none
  else if ctx.lock ≠ .allowAll then none
  else some { ctx.ghash P aad with aadLen := uadd ctx.aadLen aad.length }

def tlsAesDigest (P : Prims) (ctx : AesCtx) : Option (AesCtx × Block) :=
  if ctx.mode ≠ .gcm then none
  else
    let ctx := { ctx with lock := .allowNone }
    let ctx := ctx.ghash P (List.replicate (16 - ctx.aadCache.length) 0)
    let ctx := ctx.ghash P (bytelenToBitlen ctx.aadLen ++ bytelenToBitlen ctx.ctLen)
    some (ctx, P.encryptBlock ctx.key ctx.authJ0 ^^^ ctx.authTag)

/-! ### Encryption and decryption -/

/-- What a call of `tls_aes_encrypt` or `tls_aes_decrypt` leaves: its result, the context, the output buffer, and the ranges
`(offset, length)` that were read and written, the latest first. -/
structure AesCall where
  ok : Bool
  ctx : AesCtx
  out : Mem
  reads : List (ℕ × ℕ)
  writes : List (ℕ × ℕ)

def AesCall.refused (ctx : AesCtx) (out : Mem) : AesCall := ⟨false, ctx, out, [], []⟩

/-- Both loops of GCM, at `idx`: `memcpy`, `aes_encrypt_block(iv, buf)`, `xor_buf`, `increment_iv`, and the keystream
block of the last turn is kept. -/
def ctrStep (P : Prims) (inbuf : Mem) (inLen bytesOffset blocks : ℕ) (s : AesCall) (idx : ℕ) : AesCall :=
  let bytesToCopy := min 16 (usub (usub inLen bytesOffset) (umul idx 16))
  let pos := idx * 16 + bytesOffset
  let buf := P.encryptBlock s.ctx.key s.ctx.iv
  let ctx := { s.ctx with iv := incrementIv s.ctx.iv }
  { s with
    out := s.out.write pos (xorBytes (inbuf.read pos bytesToCopy) buf.bytes)
    ctx := if idx = blocks then { ctx with lastBlock := buf, lastBlockLen := bytesToCopy } else ctx
    reads := (pos, bytesToCopy) :: s.reads
    writes := (pos, bytesToCopy) :: s.writes }

def ctrCrypt (P : Prims) (ctx : AesCtx) (inbuf : Mem) (inLen : ℕ) (out : Mem) : AesCall :=
  let bytesToCopy := ctx.lastBlockLen
  if bytesToCopy % 16 ≠ 0 then
    let bytesOffset := usub 16 bytesToCopy
    let out := out.write 0 (xorBytes (inbuf.read 0 bytesOffset) (ctx.lastBlock.bytes.drop bytesToCopy))
    let blocks := usub inLen bytesOffset / 16
    (List.range (blocks + 1)).foldl (ctrStep P inbuf inLen bytesOffset blocks)
      ⟨true, ctx, out, [(0, bytesOffset)], [(0, bytesOffset)]⟩
  else
    let blocks := inLen / 16
    (List.range (blocks + 1)).foldl (ctrStep P inbuf inLen 0 blocks) ⟨true, ctx, out, [], []⟩

def AesCtx.padAad (P : Prims) (ctx : AesCtx) : AesCtx :=
  if ctx.lock = .allowAll ∧ ctx.aadCache.length ≠ 0 then ctx.ghash P (List.replicate (16 - ctx.aadCache.length) 0)
  else ctx

def AesCtx.bind (ctx : AesCtx) (op : AesOp) : AesCtx := { ctx with opAssoc := op }

def AesCtx.allowText (ctx : AesCtx) : AesCtx := { ctx with lock := .allowEncrypt }

def AesCtx.countText (ctx : AesCtx) (len : ℕ) : AesCtx := { ctx with ctLen := uadd ctx.ctLen len }

def cbcEncryptStep (P : Prims) (inbuf : Mem) (inLen : ℕ) (s : AesCall) (idx : ℕ) : AesCall :=
  let bytesToCopy := min 16 (usub inLen (umul idx 16))
  let bytesToPad := 16 - bytesToCopy
  let buf := inbuf.read (idx * 16) bytesToCopy ++ List.replicate bytesToPad (UInt8.ofNat bytesToPad)
  let c := P.encryptBlock s.ctx.key (.ofBytes buf ^^^ s.ctx.iv)
  { s with
    out := s.out.write (idx * 16) c.bytes
    ctx := { s.ctx with iv := c }
    reads := (idx * 16, bytesToCopy) :: s.reads
    writes := (idx * 16, 16) :: s.writes }

def cbcDecryptStep (P : Prims) (inbuf : Mem) (s : AesCall) (idx : ℕ) : AesCall :=
  let bufIn := Block.ofBytes (inbuf.read (idx * 16) 16)
  { s with
    out := s.out.write (idx * 16) (P.decryptBlock s.ctx.key bufIn ^^^ s.ctx.iv).bytes
    ctx := { s.ctx with iv := bufIn }
    reads := (idx * 16, 16) :: s.reads
    writes := (idx * 16, 16) :: s.writes }

def gcmEncrypt (P : Prims) (ctx : AesCtx) (inbuf : Mem) (inLen : ℕ) (outbuf : Mem) : AesCall :=
  let s := ctrCrypt P (ctx.padAad P).allowText inbuf inLen outbuf
  { s with ctx := (s.ctx.ghash P (s.out.read 0 inLen)).countText inLen }

def cbcEncrypt (P : Prims) (ctx : AesCtx) (inbuf : Mem) (inLen : ℕ) (outbuf : Mem) : AesCall :=
  let blocks := inLen / 16 + if inLen % 16 = 0 then 1 else 0
  (List.range (blocks + 1)).foldl (cbcEncryptStep P inbuf inLen) ⟨true, ctx, outbuf, [], []⟩

def tlsAesEncrypt (P : Prims) (ctx : AesCtx) (inbuf : Mem) (inLen : ℕ) (outbuf : Mem) : AesCall :=
  if inLen = 0 then .refused ctx outbuf
  else if ctx.opAssoc = .decrypt then .refused ctx outbuf
  else if ctx.lock = .allowNone then .refused ctx outbuf
  else
    match ctx.mode with
    | .gcm => gcmEncrypt P (ctx.bind .encrypt) inbuf inLen outbuf
    | .cbc => cbcEncrypt P (ctx.bind .encrypt) inbuf inLen outbuf

def gcmDecrypt (P : Prims) (ctx : AesCtx) (inbuf : Mem) (inLen : ℕ) (outbuf : Mem) : AesCall :=
  let ctx := ((ctx.padAad P).ghash P (inbuf.read 0 inLen)).countText inLen
  let s := ctrCrypt P ctx.allowText inbuf inLen outbuf
  { s with reads := s.reads ++ [(0, inLen)] }

def cbcDecrypt (P : Prims) (ctx : AesCtx) (inbuf : Mem) (inLen : ℕ) (outbuf : Mem) : AesCall :=
  if inLen % 16 ≠ 0 then .refused ctx outbuf
  else (List.range (inLen / 16)).foldl (cbcDecryptStep P inbuf) ⟨true, ctx, outbuf, [], []⟩

def tlsAesDecrypt (P : Prims) (ctx : AesCtx) (inbuf : Mem) (inLen : ℕ) (outbuf : Mem) : AesCall :=
  if inLen = 0 then .refused ctx outbuf
  else if ctx.opAssoc = .encrypt then .refused ctx outbuf
  else if ctx.lock = .allowNone then .refused ctx outbuf
  else
    match ctx.mode with
    | .gcm => gcmDecrypt P (ctx.bind .decrypt) inbuf inLen outbuf
    | .cbc => cbcDecrypt P (ctx.bind .decrypt) inbuf inLen outbuf

end LwftpCe.Tls
