import LwftpCe.Tls.Aes

/-!
# GCM contexts

What the functions of GCM mode do to a context, in terms of what was fed to it.  `afterAad` is the context after the
associated data `A`, `afterText` the one after some text, whose ciphertext is `C`, in addition.
-/

namespace LwftpCe.Tls

open Lib List Function AesCtx UInt8 Mem

/-! ### The counter -/

lemma incrementBytes_eq (p q r : Bytes) : incrementBytes p.length q.length (p ++ q ++ r) = p ++ be q.length (beNat q + 1) ++ r := by
  induction q using reverseRecOn generalizing r with
  | nil => simp [incrementBytes, be]
  | append_singleton q x ih =>
    have hget : (p ++ (q ++ [x]) ++ r).getD (p.length + q.length) 0 = x := by
      rw [getD_eq_getElem?_getD, append_assoc, append_assoc, getElem?_append_right (by omega),
        Nat.add_sub_cancel_left, getElem?_append_right (Nat.le_refl _), Nat.sub_self]
      rfl
    have hset : ∀ b, (p ++ (q ++ [x]) ++ r).set (p.length + q.length) b = p ++ q ++ (b :: r) := by
      simp
    have hx : x.toNat < 256 := x.toNat_lt
    rw [length_append, length_singleton, incrementBytes, hget, beNat_concat, be]
    rw [hset]
    by_cases h : x + 1 ≠ 0
    · -- no carry
      have hlt : x.toNat + 1 < 256 := by
        rcases Nat.lt_or_ge (x.toNat + 1) 256 with hlt | hge
        · exact hlt
        · exact absurd (UInt8.toNat_inj.1 (by rw [UInt8.toNat_add]; simp; omega)) h
      have hdiv : (256 * beNat q + x.toNat + 1) / 256 = beNat q := by omega
      have hmod : UInt8.ofNat (256 * beNat q + x.toNat + 1) = x + 1 := by
        apply UInt8.toNat_inj.1
        rw [toNat_ofNat']
        simp
        omega
      rw [if_pos h, hdiv, be_beNat]
      simp
    · -- the byte becomes zero, and the bytes before it are counted on
      have h0 : x + 1 = 0 := not_not.1 h
      have h255 : x.toNat + 1 = 256 := by
        have := congrArg UInt8.toNat h0
        simp at this
        omega
      have hdiv : (256 * beNat q + x.toNat + 1) / 256 = beNat q + 1 := by omega
      have hmod : UInt8.ofNat (256 * beNat q + x.toNat + 1) = 0 := by
        apply UInt8.toNat_inj.1
        simp
        omega
      rw [ih, hdiv, hmod, h0]
      simp

@[simp] lemma incrementIv_eq (b : Block) : incrementIv b = inc32 b := by
  have h := incrementBytes_eq (b.bytes.take 12) (b.bytes.drop 12) []
  simpa [incrementIv, inc32] using h

/-! ### The hash -/

section Hash

variable {mul : Block → Block → Block} {key : Block}

lemma ghashLoop_eq (y : Block) (d : Bytes) : ghashLoop mul key (y, []) d = absorbed mul key y d := by
  -- the turns of whole blocks
  have hwhole : ∀ k ≤ d.length / 16, (List.range k).foldl
      (fun s i =>
        let bytesCopy := min 16 (d.length - 16 * i)
        if bytesCopy < 16 then (s.1, (d.drop (16 * i)).take bytesCopy)
        else (mul (s.1 ^^^ .ofBytes ((d.drop (16 * i)).take 16)) key, s.2)) (y, ([] : Bytes)) =
      ((List.range k).foldl (fun y i => mul (y ^^^ .ofBytes (d.drop (16 * i))) key) y, []) := by
    intro k hk
    induction k with
    | zero => rfl
    | succ k ih =>
      have hfull : ¬ min 16 (d.length - 16 * k) < 16 := by omega
      have hblock : Block.ofBytes ((d.drop (16 * k)).take 16) = .ofBytes (d.drop (16 * k)) := by
        have := @Block.ofBytes_append ((d.drop (16 * k)).take 16) (by simp; omega) ((d.drop (16 * k)).drop 16)
        rw [← this, take_append_drop]
      rw [range_succ, foldl_append, foldl_append, ih (by omega)]
      simp only [foldl_cons, foldl_nil, if_neg hfull, hblock]
  unfold ghashLoop absorbed hashBlocks
  rcases Nat.eq_zero_or_pos (d.length % 16) with h0 | hpos
  · have hk : (d.length + 15) / 16 = d.length / 16 := by omega
    rw [hk, hwhole _ (Nat.le_refl _), drop_of_length_le (by omega)]
  · -- and the turn of the rest
    have hk : (d.length + 15) / 16 = d.length / 16 + 1 := by omega
    have hrest : min 16 (d.length - 16 * (d.length / 16)) = d.length - 16 * (d.length / 16) := by omega
    have hlt : d.length - 16 * (d.length / 16) < 16 := by omega
    rw [hk, range_succ, foldl_append, hwhole _ (Nat.le_refl _)]
    simp only [foldl_cons, foldl_nil, hrest, if_pos hlt]
    rw [take_of_length_le (by simp)]

lemma ghash_eq (y : Block) {cache : Bytes} (hc : cache.length < 16) (d : Bytes) :
    ghash mul key y cache d = absorbed mul key y (cache ++ d) := by
  unfold ghash
  by_cases h0 : cache.length ≠ 0
  · rw [if_pos h0]
    by_cases hshort : min d.length (16 - cache.length) + cache.length < 16
    · have hmin : min d.length (16 - cache.length) = d.length := by omega
      have hdiv : (cache ++ d).length / 16 = 0 := by rw [length_append]; omega
      rw [if_pos hshort, hmin, take_length, absorbed, hdiv, hashBlocks_short (by rw [length_append]; omega)]
      rfl
    · have hmin : min d.length (16 - cache.length) = 16 - cache.length := by omega
      have hlen : (cache ++ d.take (16 - cache.length)).length = 16 := by simp; omega
      have hsplit : cache ++ d = (cache ++ d.take (16 - cache.length)) ++ d.drop (16 - cache.length) := by simp
      have hfirst : absorbed mul key y (cache ++ d.take (16 - cache.length)) =
          (mul (y ^^^ .ofBytes (cache ++ d.take (16 - cache.length))) key, []) := by
        rw [absorbed_whole ⟨1, hlen⟩, hashBlocks_block hlen]
      rw [if_neg hshort, hmin, hsplit, absorbed_append, ghashLoop_eq, hfirst, nil_append]
  · have hnil : cache = [] := length_eq_zero_iff.1 (not_not.1 h0)
    rw [if_neg h0, hnil, ghashLoop_eq, nil_append]

lemma ghash_absorbed (y : Block) (d e : Bytes) :
    ghash mul key (absorbed mul key y d).1 (absorbed mul key y d).2 e = absorbed mul key y (d ++ e) := by
  rw [ghash_eq _ (by rw [length_absorbed]; omega), ← absorbed_append]

end Hash

/-! ### The bit length -/

lemma bytelenToBitlen_eq (n : ℕ) :
    bytelenToBitlen n = [0, 0, 0, 0, 0, UInt8.ofNat (n / 2 ^ 21), UInt8.ofNat (n / 2 ^ 5), UInt8.ofNat (8 * n)] := by
  have hl : UInt8.ofNat (2 * (2 * (2 * n % 2 ^ 24) % 2 ^ 24) % 2 ^ 24) = UInt8.ofNat (8 * n) := by
    apply UInt8.toNat_inj.1
    rw [toNat_ofNat', toNat_ofNat']
    omega
  have hh : UInt8.ofNat (2 * (2 * (2 * n % 2 ^ 24) % 2 ^ 24) % 2 ^ 24 / 256) = UInt8.ofNat (n / 2 ^ 5) := by
    apply UInt8.toNat_inj.1
    rw [toNat_ofNat', toNat_ofNat']
    omega
  have ha : 2 * (2 * (2 * 0 + 2 * n / 2 ^ 24) + 2 * (2 * n % 2 ^ 24) / 2 ^ 24) +
      2 * (2 * (2 * n % 2 ^ 24) % 2 ^ 24) / 2 ^ 24 = n / 2 ^ 21 := by omega
  simp only [bytelenToBitlen, ha, hl, hh]

lemma bytelenToBitlen_eq_be {n : ℕ} (h : n < 2 ^ 24) : bytelenToBitlen n = be 8 (8 * n) ↔ n < 8192 := by
  rw [bytelenToBitlen_eq n]
  constructor
  · intro heq
    have h4 : (0 : UInt8) = UInt8.ofNat (8 * n / 256 / 256 / 256) := by
      have := congrArg (fun l : Bytes => l.getD 4 0) heq
      simpa [be] using this
    have h5 : UInt8.ofNat (n / 2 ^ 21) = UInt8.ofNat (8 * n / 256 / 256) := by
      have := congrArg (fun l : Bytes => l.getD 5 0) heq
      simpa [be] using this
    have h4 := congrArg UInt8.toNat h4
    have h5 := congrArg UInt8.toNat h5
    rw [toNat_ofNat', UInt8.toNat_zero] at h4
    rw [toNat_ofNat', toNat_ofNat'] at h5
    have e4 : 8 * n / 256 / 256 / 256 = n / 2 ^ 21 := by omega
    have e5 : 8 * n / 256 / 256 = n / 8192 := by omega
    omega
  · intro hn
    have hh : 8 * n / 256 = n / 2 ^ 5 := by omega
    have hz : n / 2 ^ 5 / 256 = 0 := by omega
    have ha : n / 2 ^ 21 = 0 := by omega
    simp only [be, hh, hz, Nat.zero_div, ha]
    rfl

/-- `bytelen_to_bitlen` with its stores in their order: `a`, `h` and `l`, and twice three bytes of the zero that `sbc hl, hl` makes,
as the last `adc a, a` does not carry. -/
def bytelenToBitlenAt (m : Mem) (dst size : ℕ) : Mem :=
  let bs := bytelenToBitlen size
  let m := ((m.write (dst + 5) [bs.getD 5 0]).write (dst + 6) [bs.getD 6 0]).write (dst + 7) [bs.getD 7 0]
  (m.write dst [0, 0, 0]).write (dst + 2) [0, 0, 0]

lemma bytelenToBitlenAt_eq (m : Mem) (dst size : ℕ) : bytelenToBitlenAt m dst size = m.write dst (bytelenToBitlen size) := by
  funext i
  unfold bytelenToBitlenAt bytelenToBitlen Mem.write
  rcases Nat.lt_or_ge i dst with hi | hi
  · simp [show ¬ dst ≤ i by omega, show ¬ dst + 2 ≤ i by omega, show ¬ dst + 5 ≤ i by omega, show ¬ dst + 6 ≤ i by omega,
      show ¬ dst + 7 ≤ i by omega]
  · obtain ⟨k, rfl⟩ := Nat.exists_eq_add_of_le hi
    rcases k with _ | _ | _ | _ | _ | _ | _ | _ | k
    all_goals simp [Nat.add_assoc, Nat.add_sub_add_left]

/-- **The bit length** is right for less than 8192 bytes: bits 16 to 23 are in `hlu`, which is not stored. -/
theorem bitlen_exact_iff (m : Mem) (dst n : ℕ) (h : n < 2 ^ 24) : bytelenToBitlenAt m dst n = m.write dst (be 8 (8 * n)) ↔ n < 8192 := by
  rw [bytelenToBitlenAt_eq, ← bytelenToBitlen_eq_be h]
  refine ⟨fun heq => ?_, congrArg _⟩
  have hread := congrArg (fun m : Mem => m.read dst 8) heq
  have hlen : 8 = (be 8 (8 * n)).length := (length_be ..).symm
  exact (read_write m dst (bytelenToBitlen n)).symm.trans (hread.trans ((congrArg _ hlen).trans (read_write ..)))

theorem bitlen_exact_100 : bytelenToBitlenAt (fun _ => 0xff) 3 100 = Mem.write (fun _ => 0xff) 3 (be 8 800) :=
  (bitlen_exact_iff _ 3 100 (by decide)).2 (by decide)

theorem bitlen_8192 : bytelenToBitlenAt (fun _ => 0) 0 8192 5 = 0 ∧ Mem.write (fun _ => 0) 0 (be 8 (8 * 8192)) 5 = 1 := by decide

/-! ### The text of one call -/

section Text

variable {P : Prims} {inbuf : Mem} {inLen off blocks : ℕ} {s₀ s : AesCall} {j : ℕ}

/-- The fields of a context that a text changes which ends in the keystream block of the counter block `b`, behind its byte `n`. -/
def AesCtx.textDone (P : Prims) (ctx : AesCtx) (b : Block) (n : ℕ) : AesCtx :=
  { ctx with iv := inc32 b, lastBlock := P.encryptBlock ctx.key b, lastBlockLen := n }

/-- A call that has dealt with `n` bytes of text behind the offset: the text, what it left alone, and the ranges. -/
structure TextAt (P : Prims) (inbuf : Mem) (off : ℕ) (s₀ : AesCall) (n : ℕ) (s : AesCall) : Prop where
  ok : s.ok = s₀.ok
  text : s.out.read 0 (off + n) =
    s₀.out.read 0 off ++ ctr (P.encryptBlock s₀.ctx.key) s₀.ctx.iv 0 (inbuf.read off n)
  frame : ∀ i, off + n ≤ i → s.out i = s₀.out i
  reads : ∀ r ∈ s.reads, r ∈ s₀.reads ∨ r.1 + r.2 ≤ off + n
  writes : ∀ r ∈ s.writes, r ∈ s₀.writes ∨ r.1 + r.2 ≤ off + n

lemma ctrStep_copies (hlen : inLen < 2 ^ 24) (hj : off + 16 * j ≤ inLen) :
    min 16 (usub (usub inLen off) (umul j 16)) = min 16 (inLen - off - 16 * j) := by
  rw [usub_of_le hlen (by omega), umul_of_lt (by unfold uintRange; omega), usub_of_le (by unfold uintRange; omega) (by omega),
    Nat.mul_comm]

lemma TextAt.step (h : TextAt P inbuf off s₀ (16 * j) s) (hkey : s.ctx.key = s₀.ctx.key)
    (hiv : s.ctx.iv = inc32^[j] s₀.ctx.iv) (hlen : inLen < 2 ^ 24) (hj : off + 16 * j ≤ inLen) :
    TextAt P inbuf off s₀ (16 * j + min 16 (inLen - off - 16 * j)) (ctrStep P inbuf inLen off blocks s j) := by
  have hcopy := ctrStep_copies hlen hj
  generalize hn : min 16 (inLen - off - 16 * j) = n at hcopy ⊢
  have hpos : j * 16 + off = off + 16 * j := by omega
  have hxor : xorBytes (inbuf.read (off + 16 * j) n) (P.encryptBlock s.ctx.key s.ctx.iv).bytes =
      ctr (P.encryptBlock s₀.ctx.key) s₀.ctx.iv (16 * j) (inbuf.read (off + 16 * j) n) := by
    have hn16 : 0 + (inbuf.read (off + 16 * j) n).length ≤ 16 := by
      rw [length_read]
      omega
    have hshift : ctr (P.encryptBlock s₀.ctx.key) s₀.ctx.iv (16 * j + 0) (inbuf.read (off + 16 * j) n) = _ := ctr_shift ..
    rw [Nat.add_zero] at hshift
    rw [hkey, hiv, hshift, ← xorBytes_eq_ctr hn16]
    rfl
  have hlenx : (ctr (P.encryptBlock s₀.ctx.key) s₀.ctx.iv (16 * j) (inbuf.read (off + 16 * j) n)).length = n := by simp
  refine ⟨h.ok, ?_, ?_, ?_, ?_⟩
  · simp only [ctrStep, hcopy, hpos, hxor]
    generalize hc : ctr (P.encryptBlock s₀.ctx.key) s₀.ctx.iv (16 * j) (inbuf.read (off + 16 * j) n) = c at hlenx
    rw [← Nat.add_assoc, read_add, read_write_before (by omega), h.text, Nat.zero_add, ← hlenx,
      read_write, read_add inbuf, ctr_append, hlenx, length_read, Nat.zero_add, hc, append_assoc]
  · intro i hi
    simp only [ctrStep, hcopy, hpos, hxor]
    rw [write_behind _ (by rw [hlenx]; omega)]
    exact h.frame i (by omega)
  · intro r hr
    simp only [ctrStep, hcopy, hpos, mem_cons] at hr
    rcases hr with rfl | hr
    · exact .inr (by simp only; omega)
    · exact (h.reads r hr).imp_right fun hle => by omega
  · intro r hr
    simp only [ctrStep, hcopy, hpos, mem_cons] at hr
    rcases hr with rfl | hr
    · exact .inr (by simp only; omega)
    · exact (h.writes r hr).imp_right fun hle => by omega

lemma ctrLoop_whole (hlen : inLen < 2 ^ 24) (hoff : off ≤ inLen) {k : ℕ} (hk : k ≤ (inLen - off) / 16) :
    let s := (List.range k).foldl (ctrStep P inbuf inLen off ((inLen - off) / 16)) s₀
    TextAt P inbuf off s₀ (16 * k) s ∧ s.ctx = { s₀.ctx with iv := inc32^[k] s₀.ctx.iv } := by
  induction k with
  | zero =>
    refine ⟨⟨rfl, ?_, fun _ _ => rfl, fun _ hr => .inl hr, fun _ hr => .inl hr⟩, rfl⟩
    simp [Mem.read]
  | succ k ih =>
    obtain ⟨htext, hctx⟩ := ih (by omega)
    generalize hs : (List.range k).foldl (ctrStep P inbuf inLen off ((inLen - off) / 16)) s₀ = s at htext hctx
    have hmin : 16 * (k + 1) = 16 * k + min 16 (inLen - off - 16 * k) := by omega
    rw [range_succ, foldl_append, foldl_cons, foldl_nil, hs, hmin]
    refine ⟨htext.step (by rw [hctx]) (by rw [hctx]) hlen (by omega), ?_⟩
    have hne : k ≠ (inLen - off) / 16 := by omega
    simp only [ctrStep, if_neg hne, hctx, incrementIv_eq, iterate_succ_apply']

lemma ctrLoop_spec (hlen : inLen < 2 ^ 24) (hoff : off ≤ inLen) :
    let s := (List.range ((inLen - off) / 16 + 1)).foldl (ctrStep P inbuf inLen off ((inLen - off) / 16)) s₀
    TextAt P inbuf off s₀ (inLen - off) s ∧
      s.ctx = s₀.ctx.textDone P (inc32^[(inLen - off) / 16] s₀.ctx.iv) ((inLen - off) % 16) := by
  obtain ⟨htext, hctx⟩ := ctrLoop_whole hlen hoff (Nat.le_refl _)
  generalize hk : (inLen - off) / 16 = k at htext hctx ⊢
  generalize hs : (List.range k).foldl (ctrStep P inbuf inLen off k) s₀ = s at htext hctx
  have hrest : inLen - off = 16 * k + min 16 (inLen - off - 16 * k) := by omega
  have hmod : min 16 (inLen - off - 16 * k) = (inLen - off) % 16 := by omega
  have hle : off + 16 * k ≤ inLen := by omega
  rw [range_succ, foldl_append, foldl_cons, foldl_nil, hs]
  constructor
  · rw [hrest]
    exact htext.step (by rw [hctx]) (by rw [hctx]) hlen hle
  · simp only [ctrStep, if_true, ctrStep_copies hlen hle, hctx, incrementIv_eq, hmod, textDone]

end Text

/-! ### Contexts by what was fed to them -/

section Fed

variable (P : Prims) (key : Bytes) (j0 : Block)

def afterAad (A : Bytes) : AesCtx where
  mode := .gcm
  key := key
  iv := inc32 j0
  opAssoc := .none
  ghashKey := P.encryptBlock key 0
  authTag := (absorbed P.gf128Mul (P.encryptBlock key 0) 0 A).1
  lastBlock := 0
  lastBlockLen := 0
  aadCache := (absorbed P.gf128Mul (P.encryptBlock key 0) 0 A).2
  authJ0 := j0
  aadLen := A.length % uintRange
  ctLen := 0
  lock := .allowAll

def afterText (op : AesOp) (A C : Bytes) : AesCtx where
  mode := .gcm
  key := key
  iv := inc32^[C.length / 16 + 1] (inc32 j0)
  opAssoc := op
  ghashKey := P.encryptBlock key 0
  authTag := (absorbed P.gf128Mul (P.encryptBlock key 0) 0 (zeroPad A ++ C)).1
  lastBlock := P.encryptBlock key (inc32^[C.length / 16] (inc32 j0))
  lastBlockLen := C.length % 16
  aadCache := (absorbed P.gf128Mul (P.encryptBlock key 0) 0 (zeroPad A ++ C)).2
  authJ0 := j0
  aadLen := A.length % uintRange
  ctLen := C.length % uintRange
  lock := .allowEncrypt

def ivBlock (iv : Bytes) : Block :=
  if iv.length = 12 then .ofBytes (iv ++ [0, 0, 0, 1])
  else hashBlocks P.gf128Mul (P.encryptBlock key 0) 0
    ((Block.ofBytes iv).bytes ++ (List.replicate 8 0 ++ bytelenToBitlen iv.length))

variable {P key j0} {iv d : Bytes}

lemma ivBlock_eq (h0 : iv ≠ []) (h : iv.length ≤ 16) : ivBlock P key iv = preCounter (P.encryptBlock key) P.gf128Mul iv := by
  have hpos : 0 < iv.length := length_pos_iff.2 h0
  have hpad : (Block.ofBytes iv).bytes = zeroPad iv := by
    have : (16 - iv.length % 16) % 16 = 16 - iv.length := by omega
    simp [Block.ofBytes, zeroPad, take_of_length_le h, this]
  have hlen : bytelenToBitlen iv.length = be 8 (8 * iv.length) := (bytelenToBitlen_eq_be (by omega)).2 (by omega)
  unfold ivBlock preCounter
  rw [hpad, hlen, append_assoc]

lemma aesGcmPrepareIv_iv (iv : Bytes) {ctx : AesCtx} (hiv : ctx.iv = .ofBytes iv) (hc : ctx.aadCache = [])
    (hk : ctx.ghashKey = P.encryptBlock key 0) : aesGcmPrepareIv P ctx iv = { ctx with iv := ivBlock P key iv } := by
  unfold aesGcmPrepareIv ivBlock
  by_cases h12 : iv.length = 12
  · have hset : (Block.ofBytes iv).bytes.set 15 1 = (Block.ofBytes (iv ++ [0, 0, 0, 1])).bytes := by
      simp [Block.ofBytes, h12, take_of_length_le, replicate]
    rw [if_pos h12, if_pos h12]
    congr 1
    simp only [hiv, hset]
  · rw [if_neg h12, if_neg h12, hc, hk]
    simp only [@ghash_eq _ _ 0 [] (by simp), nil_append, ghash_absorbed]
    rw [absorbed_whole (by simp)]

def ValidKey (key : Bytes) : Prop := key.length = 16 ∨ key.length = 24 ∨ key.length = 32

instance : DecidablePred ValidKey := fun _ => inferInstanceAs (Decidable (_ ∨ _ ∨ _))

lemma ValidKey.bits (h : ValidKey key) : umul key.length 8 = 8 * key.length := by
  unfold ValidKey at h
  rw [umul_of_lt (by unfold uintRange; omega), Nat.mul_comm]

lemma tlsAesInit_gcm (hk : ValidKey key) (hiv : iv.length ≤ 16) :
    tlsAesInit P .gcm key iv = some (afterAad P key (ivBlock P key iv) []) := by
  have hbits := hk.bits
  have hvalid : ¬ (8 * key.length ≠ 128 ∧ 8 * key.length ≠ 192 ∧ 8 * key.length ≠ 256) := by
    unfold ValidKey at hk
    omega
  have htake : key.take (8 * key.length / 8) = key := by simp
  unfold tlsAesInit
  dsimp only
  rw [hbits, if_neg (by omega), if_neg hvalid, aesGcmPrepareIv_iv iv rfl rfl rfl]
  simp [blank, afterAad, absorbed, hashBlocks]

lemma afterAad_ghash (A d : Bytes) : (afterAad P key j0 A).ghash P d =
    { afterAad P key j0 (A ++ d) with aadLen := A.length % uintRange } := by
  simp only [AesCtx.ghash, afterAad, ghash_absorbed]

lemma tlsAesUpdateAad_eq (A aad : Bytes) : tlsAesUpdateAad P (afterAad P key j0 A) aad = some (afterAad P key j0 (A ++ aad)) := by
  unfold tlsAesUpdateAad
  rw [afterAad_ghash]
  simp [afterAad, uadd, Nat.mod_add_mod]

lemma zeroPad_eq_self (h : d.length % 16 = 0) : zeroPad d = d := by
  simp [zeroPad, h]

lemma zeroPad_eq_append (h : d.length % 16 ≠ 0) : zeroPad d = d ++ replicate (16 - d.length % 16) 0 := by
  rw [zeroPad, Nat.mod_eq_of_lt (by omega)]

lemma padAad_eq (op : AesOp) (A : Bytes) : ((afterAad P key j0 A).bind op).padAad P = { afterAad P key j0 A with
      opAssoc := op
      authTag := (absorbed P.gf128Mul (P.encryptBlock key 0) 0 (zeroPad A)).1
      aadCache := (absorbed P.gf128Mul (P.encryptBlock key 0) 0 (zeroPad A)).2 } := by
  have hlen : (absorbed P.gf128Mul (P.encryptBlock key 0) 0 A).2.length = A.length % 16 := length_absorbed ..
  unfold padAad
  by_cases h : A.length % 16 = 0
  · rw [if_neg (by simp [AesCtx.bind, afterAad, hlen, h]), zeroPad_eq_self h]
    rfl
  · rw [if_pos (by simp [AesCtx.bind, afterAad, hlen, h]), zeroPad_eq_append h]
    simp only [AesCtx.ghash, AesCtx.bind, afterAad, hlen, ghash_absorbed]

end Fed

/-! ### A call of `tls_aes_encrypt` or `tls_aes_decrypt` -/

section Call

variable {P : Prims} {key : Bytes} {j0 : Block} {A C : Bytes} {inbuf out : Mem} {n : ℕ} {icb : Block} {m : ℕ} {ctx : AesCtx}

/-- The text part of a context is ready for `n` more bytes after `m` bytes: it starts with a new keystream block, or
there are enough bytes for what is left of the last one. -/
def Ready (P : Prims) (icb : Block) (m n : ℕ) (ctx : AesCtx) : Prop :=
  m % 16 = 0 ∧ ctx.lastBlockLen = 0 ∧ ctx.iv = inc32^[m / 16] icb ∨
    m % 16 ≠ 0 ∧ ctx.lastBlockLen = m % 16 ∧ ctx.iv = inc32^[m / 16 + 1] icb ∧
      ctx.lastBlock = P.encryptBlock ctx.key (inc32^[m / 16] icb) ∧ 16 ≤ m % 16 + n

structure Wrote (s : AesCall) (n : ℕ) (out : Mem) (text : Bytes) : Prop where
  ok : s.ok = true
  text : s.out.read 0 n = text
  frame : ∀ i, n ≤ i → s.out i = out i
  reads : ∀ r ∈ s.reads, r.1 + r.2 ≤ n
  writes : ∀ r ∈ s.writes, r.1 + r.2 ≤ n

lemma ctrCrypt_fresh (hn : n < 2 ^ 24) (hm : m % 16 = 0) (hlast : ctx.lastBlockLen = 0) (hiv : ctx.iv = inc32^[m / 16] icb) :
    Wrote (ctrCrypt P ctx inbuf n out) n out (ctr (P.encryptBlock ctx.key) icb m (inbuf.read 0 n)) ∧
      (ctrCrypt P ctx inbuf n out).ctx = ctx.textDone P (inc32^[(m + n) / 16] icb) ((m + n) % 16) := by
  obtain ⟨htext, hctx⟩ := @ctrLoop_spec P inbuf n 0 ⟨true, ctx, out, [], []⟩ hn (Nat.zero_le n)
  rw [Nat.sub_zero] at htext hctx
  unfold ctrCrypt
  rw [hlast, if_neg (by simp)]
  have hshift : ctr (P.encryptBlock ctx.key) icb m (inbuf.read 0 n) =
      ctr (P.encryptBlock ctx.key) ctx.iv 0 (inbuf.read 0 n) := by
    rw [hiv, ← ctr_shift]
    congr 1
    omega
  have hdone := htext.text
  rw [Nat.zero_add] at hdone
  refine ⟨⟨htext.ok, by rw [hdone, hshift]; rfl, fun i hi => htext.frame i (by omega), ?_, ?_⟩, ?_⟩
  · intro r hr
    simpa using htext.reads r hr
  · intro r hr
    simpa using htext.writes r hr
  · have h1 : (m + n) / 16 = n / 16 + m / 16 := by omega
    have h2 : (m + n) % 16 = n % 16 := by omega
    rw [hctx, h1, h2, iterate_add_apply, ← hiv]

lemma ctrCrypt_carry (hn : n < 2 ^ 24) (hm : m % 16 ≠ 0) (hlast : ctx.lastBlockLen = m % 16) (hiv : ctx.iv = inc32^[m / 16 + 1] icb)
    (hblock : ctx.lastBlock = P.encryptBlock ctx.key (inc32^[m / 16] icb)) (hle : 16 ≤ m % 16 + n) :
    Wrote (ctrCrypt P ctx inbuf n out) n out (ctr (P.encryptBlock ctx.key) icb m (inbuf.read 0 n)) ∧
      (ctrCrypt P ctx inbuf n out).ctx = ctx.textDone P (inc32^[(m + n) / 16] icb) ((m + n) % 16) := by
  have hoff : usub 16 (m % 16) = 16 - m % 16 := usub_of_le (by decide) (by omega)
  generalize hk : 16 - m % 16 = off at hoff
  -- what is left of the last block
  have hhead : xorBytes (inbuf.read 0 off) (ctx.lastBlock.bytes.drop (m % 16)) =
      ctr (P.encryptBlock ctx.key) icb m (inbuf.read 0 off) := by
    have hshift : ctr (P.encryptBlock ctx.key) icb (16 * (m / 16) + m % 16) (inbuf.read 0 off) = _ := ctr_shift ..
    rw [hblock, xorBytes_eq_ctr (by rw [length_read]; omega), ← hshift, Nat.div_add_mod]
  unfold ctrCrypt
  rw [hlast, if_pos (by omega), hoff]
  dsimp only
  rw [hhead, usub_of_le hn (by omega)]
  generalize hc : ctr (P.encryptBlock ctx.key) icb m (inbuf.read 0 off) = c
  have hlen : c.length = off := by rw [← hc]; simp
  obtain ⟨htext, hctx⟩ := @ctrLoop_spec P inbuf n off ⟨true, ctx, out.write 0 c, [(0, off)], [(0, off)]⟩ hn (by omega)
  generalize (List.range ((n - off) / 16 + 1)).foldl _ _ = s at htext hctx ⊢
  have hn' : n = off + (n - off) := by omega
  refine ⟨⟨htext.ok, ?_, ?_, ?_, ?_⟩, ?_⟩
  · have hrest : ctr (P.encryptBlock ctx.key) icb (m + off) (inbuf.read off (n - off)) =
        ctr (P.encryptBlock ctx.key) ctx.iv 0 (inbuf.read off (n - off)) := by
      rw [hiv, ← ctr_shift]
      congr 1
      omega
    have hread : (out.write 0 c).read 0 off = c := by rw [← hlen]; exact read_write out 0 c
    calc s.out.read 0 n = s.out.read 0 (off + (n - off)) := by rw [← hn']
      _ = c ++ ctr (P.encryptBlock ctx.key) ctx.iv 0 (inbuf.read off (n - off)) := by rw [htext.text, hread]
      _ = ctr (P.encryptBlock ctx.key) icb m (inbuf.read 0 (off + (n - off))) := by
        rw [read_add, ctr_append, length_read, hc, Nat.zero_add, hrest]
      _ = ctr (P.encryptBlock ctx.key) icb m (inbuf.read 0 n) := by rw [← hn']
  · intro i hi
    rw [htext.frame i (by omega)]
    have hbehind : 0 + c.length ≤ i := by omega
    exact write_behind i hbehind
  · intro r hr
    rcases htext.reads r hr with h | h
    · rw [mem_singleton.1 h]
      omega
    · omega
  · intro r hr
    rcases htext.writes r hr with h | h
    · rw [mem_singleton.1 h]
      omega
    · omega
  · have h1 : (m + n) / 16 = (n - off) / 16 + (m / 16 + 1) := by omega
    have h2 : (n - off) % 16 = (m + n) % 16 := by omega
    rw [hctx, h1, h2, iterate_add_apply, ← hiv]

lemma ctrCrypt_spec (hn : n < 2 ^ 24) (h : Ready P icb m n ctx) :
    Wrote (ctrCrypt P ctx inbuf n out) n out (ctr (P.encryptBlock ctx.key) icb m (inbuf.read 0 n)) ∧
      (ctrCrypt P ctx inbuf n out).ctx = ctx.textDone P (inc32^[(m + n) / 16] icb) ((m + n) % 16) := by
  rcases h with ⟨hm, hlast, hiv⟩ | ⟨hm, hlast, hiv, hblock, hle⟩
  · exact ctrCrypt_fresh hn hm hlast hiv
  · exact ctrCrypt_carry hn hm hlast hiv hblock hle

def fed (P : Prims) (key : Bytes) (j0 : Block) (op : AesOp) (A C : Bytes) : AesCtx :=
  if C = [] then afterAad P key j0 A else afterText P key j0 op A C

def started (P : Prims) (key : Bytes) (j0 : Block) (op : AesOp) (A C : Bytes) : AesCtx :=
  { fed P key j0 op A C with
    opAssoc := op
    authTag := (absorbed P.gf128Mul (P.encryptBlock key 0) 0 (zeroPad A ++ C)).1
    aadCache := (absorbed P.gf128Mul (P.encryptBlock key 0) 0 (zeroPad A ++ C)).2
    lock := .allowEncrypt }

variable {op : AesOp}

lemma fed_padAad (op : AesOp) (A C : Bytes) : (((fed P key j0 op A C).bind op).padAad P).allowText = started P key j0 op A C := by
  unfold started fed
  by_cases h : C = []
  · rw [if_pos h, padAad_eq, h, append_nil]
    rfl
  · rw [if_neg h]
    simp [padAad, AesCtx.bind, allowText, afterText]

def Follows (C : Bytes) (n : ℕ) : Prop := C = [] ∨ C.length % 16 ≠ 0 ∧ 16 ≤ C.length % 16 + n

lemma Follows.ready (h : Follows C n) : Ready P (inc32 j0) C.length n (started P key j0 op A C) := by
  rcases h with rfl | ⟨hm, hle⟩
  · exact .inl ⟨rfl, rfl, rfl⟩
  · have hne : C ≠ [] := by
      rintro rfl
      exact hm rfl
    refine .inr ⟨hm, ?_, ?_, ?_, hle⟩ <;> simp [started, fed, afterText, hne]

lemma started_text (op : AesOp) (A C : Bytes) {c : Bytes} (hc : c ≠ []) :
    (((started P key j0 op A C).ghash P c).countText c.length).textDone P
      (inc32^[(C.length + c.length) / 16] (inc32 j0)) ((C.length + c.length) % 16) = fed P key j0 op A (C ++ c) := by
  have hne : C ++ c ≠ [] := by simp [hc]
  by_cases h : C = []
  · subst h
    simp [fed, hc, started, afterAad, afterText, AesCtx.textDone, AesCtx.countText, AesCtx.ghash, ghash_absorbed, uadd,
      iterate_succ_apply']
  · simp [fed, hne, h, started, afterText, AesCtx.textDone, AesCtx.countText, AesCtx.ghash, ghash_absorbed, uadd,
      Nat.mod_add_mod, iterate_succ_apply']

@[simp] lemma started_key : (started P key j0 op A C).key = key := by
  unfold started fed
  split <;> rfl

@[simp] lemma fed_mode : (fed P key j0 op A C).mode = .gcm := by
  unfold fed
  split <;> rfl

lemma fed_lock : (fed P key j0 op A C).lock ≠ .allowNone := by
  unfold fed
  split <;> simp [afterAad, afterText]

lemma fed_opAssoc : (fed P key j0 op A C).opAssoc = .none ∨ (fed P key j0 op A C).opAssoc = op := by
  unfold fed
  split
  · exact .inl rfl
  · exact .inr rfl

lemma tlsAesEncrypt_fed (h0 : 0 < n) : tlsAesEncrypt P (fed P key j0 .encrypt A C) inbuf n out =
    let s := ctrCrypt P (started P key j0 .encrypt A C) inbuf n out
    { s with ctx := (s.ctx.ghash P (s.out.read 0 n)).countText n } := by
  have hop : (fed P key j0 .encrypt A C).opAssoc ≠ .decrypt := by
    rcases @fed_opAssoc P key j0 A C .encrypt with h | h <;> simp [h]
  unfold tlsAesEncrypt
  rw [if_neg (by omega), if_neg hop, if_neg fed_lock, fed_mode]
  simp only [gcmEncrypt, fed_padAad]

lemma tlsAesDecrypt_fed (h0 : 0 < n) : tlsAesDecrypt P (fed P key j0 .decrypt A C) inbuf n out =
    let s := ctrCrypt P (((started P key j0 .decrypt A C).ghash P (inbuf.read 0 n)).countText n) inbuf n out
    { s with reads := s.reads ++ [(0, n)] } := by
  have hop : (fed P key j0 .decrypt A C).opAssoc ≠ .encrypt := by
    rcases @fed_opAssoc P key j0 A C .decrypt with h | h <;> simp [h]
  have hstart : (((((fed P key j0 .decrypt A C).bind .decrypt).padAad P).ghash P (inbuf.read 0 n)).countText n).allowText =
      ((started P key j0 .decrypt A C).ghash P (inbuf.read 0 n)).countText n := by
    rw [← fed_padAad]
    rfl
  unfold tlsAesDecrypt
  rw [if_neg (by omega), if_neg hop, if_neg fed_lock, fed_mode]
  simp only [gcmDecrypt, hstart]

lemma tlsAesEncrypt_gcm (h0 : 0 < n) (hn : n < 2 ^ 24) (h : Follows C n) :
    Wrote (tlsAesEncrypt P (fed P key j0 .encrypt A C) inbuf n out) n out
        (ctr (P.encryptBlock key) (inc32 j0) C.length (inbuf.read 0 n)) ∧
      (tlsAesEncrypt P (fed P key j0 .encrypt A C) inbuf n out).ctx =
        fed P key j0 .encrypt A (C ++ ctr (P.encryptBlock key) (inc32 j0) C.length (inbuf.read 0 n)) := by
  obtain ⟨hw, hctx⟩ := ctrCrypt_spec hn
    (h.ready)
  rw [started_key] at hw
  rw [tlsAesEncrypt_fed h0]
  generalize hc : ctr (P.encryptBlock key) (inc32 j0) C.length (inbuf.read 0 n) = c at hw ⊢
  have hlen : c.length = n := by simp [← hc]
  have hne : c ≠ [] := length_pos_iff.1 (by omega)
  refine ⟨⟨hw.ok, hw.text, hw.frame, hw.reads, hw.writes⟩, ?_⟩
  rw [← started_text _ _ _ hne, hlen]
  dsimp only
  rw [hw.text, hctx]
  rfl

lemma tlsAesDecrypt_gcm (h0 : 0 < n) (hn : n < 2 ^ 24) (h : Follows C n) :
    Wrote (tlsAesDecrypt P (fed P key j0 .decrypt A C) inbuf n out) n out
        (ctr (P.encryptBlock key) (inc32 j0) C.length (inbuf.read 0 n)) ∧
      (tlsAesDecrypt P (fed P key j0 .decrypt A C) inbuf n out).ctx = fed P key j0 .decrypt A (C ++ inbuf.read 0 n) := by
  have hready : Ready P (inc32 j0) C.length n (((started P key j0 .decrypt A C).ghash P (inbuf.read 0 n)).countText n) :=
    h.ready
  have hkey : (((started P key j0 .decrypt A C).ghash P (inbuf.read 0 n)).countText n).key = key := started_key
  obtain ⟨hw, hctx⟩ := ctrCrypt_spec hn hready
  rw [hkey] at hw
  rw [tlsAesDecrypt_fed h0]
  have hlen : (inbuf.read 0 n).length = n := length_read ..
  have hne : inbuf.read 0 n ≠ [] := length_pos_iff.1 (by omega)
  refine ⟨⟨hw.ok, hw.text, hw.frame, ?_, hw.writes⟩, ?_⟩
  · intro r hr
    rcases mem_append.1 hr with hr | hr
    · exact hw.reads r hr
    · rw [mem_singleton.1 hr, Nat.zero_add]
  · rw [← started_text _ _ _ hne, hlen]
    exact hctx

def codeTagInput (aad ct : Bytes) : Bytes :=
  zeroPad aad ++ ct ++ List.replicate (16 - ct.length % 16) 0 ++
    (bytelenToBitlen (aad.length % uintRange) ++ bytelenToBitlen (ct.length % uintRange))

lemma tlsAesDigest_fed (hC : C ≠ []) : (tlsAesDigest P (fed P key j0 op A C)).map Prod.snd =
    some (P.encryptBlock key j0 ^^^ hashBlocks P.gf128Mul (P.encryptBlock key 0) 0 (codeTagInput A C)) := by
  have hcache : (absorbed P.gf128Mul (P.encryptBlock key 0) 0 (zeroPad A ++ C)).2.length = C.length % 16 := by
    have := dvd_length_zeroPad A
    rw [length_absorbed, length_append]
    omega
  have hfed : fed P key j0 op A C = afterText P key j0 op A C := if_neg hC
  unfold tlsAesDigest
  rw [hfed]
  simp only [AesCtx.ghash, afterText, hcache, ghash_absorbed]
  rfl

end Call

end LwftpCe.Tls
