import LwftpCe.Tls.Context
import LwftpCe.Tls.Gcm
import Mathlib.Data.List.Nodup

/-!
# Record protection

`tls_encrypt_data` and `tls_decrypt_data`.  Both use GCM with one call for the text, so that what is wrong with the tag of
a message without a partial block is wrong on both sides alike: what one side has encrypted, the other one decrypts.
-/

namespace LwftpCe.Tls

open Lib List Function Nat HsCtx

variable {iv : Bytes} {ctx : HsCtx}

def nonceOf (iv : Bytes) (seq : ℕ) : Bytes :=
  (List.range 8).foldl (fun nonce i => nonce.set (12 - 8 + i) (nonce.getD (12 - 8 + i) 0 ^^^ UInt8.ofNat (seq >>> (56 - i * 8)))) iv

def recordHeader (len : ℕ) : Bytes := [0x17, 0x03, 0x03, UInt8.ofNat (len >>> 8), UInt8.ofNat len]

def nextSeq (seq : ℕ) : ℕ := (seq + 1) % 2 ^ 64

structure DataCall where
  ok : Bool
  ctx : HsCtx
  out : Mem
  written : ℕ

def tlsEncryptData (P : Prims) (ctx : HsCtx) (plaintext : Mem) (plaintextLen : ℕ) (ciphertext : Mem) (ciphertextLen : ℕ) :
    DataCall :=
  if ciphertextLen < uadd plaintextLen 16 then ⟨false, ctx, ciphertext, 0⟩
  else
    let nonce := nonceOf ctx.keys.clientApplicationIv.val ctx.clientSeqNum
    let aad := recordHeader (uadd plaintextLen 16)
    match (tlsAesInit P .gcm ctx.keys.clientApplicationKey.val nonce).bind (tlsAesUpdateAad P · aad) with
    | none => ⟨false, ctx, ciphertext, 0⟩
    | some aes =>
      let s := tlsAesEncrypt P aes plaintext plaintextLen ciphertext
      if s.ok then
        match tlsAesDigest P s.ctx with
        | none => ⟨false, ctx, s.out, 0⟩
        | some (_, authTag) =>
          ⟨true, { ctx with clientSeqNum := nextSeq ctx.clientSeqNum }, s.out.write plaintextLen authTag.bytes,
            uadd plaintextLen 16⟩
      else ⟨false, ctx, s.out, 0⟩

def tagDiff (computed : Block) (received : Bytes) : UInt8 :=
  (List.range 16).foldl (fun diff i => diff ||| (computed.byte i ^^^ received.getD i 0)) 0

def tlsDecryptData (P : Prims) (ctx : HsCtx) (ciphertext : Mem) (ciphertextLen : ℕ) (plaintext : Mem) (plaintextLen : ℕ) :
    DataCall :=
  if ciphertextLen < 16 then ⟨false, ctx, plaintext, 0⟩
  else
    let actualPlaintextLen := ciphertextLen - 16
    if plaintextLen < actualPlaintextLen then ⟨false, ctx, plaintext, 0⟩
    else
      let nonce := nonceOf ctx.keys.serverApplicationIv.val ctx.serverSeqNum
      let aad := recordHeader ciphertextLen
      match (tlsAesInit P .gcm ctx.keys.serverApplicationKey.val nonce).bind (tlsAesUpdateAad P · aad) with
      | none => ⟨false, ctx, plaintext, 0⟩
      | some aes =>
        let s := tlsAesDecrypt P aes ciphertext actualPlaintextLen plaintext
        if s.ok then
          match tlsAesDigest P s.ctx with
          | none => ⟨false, ctx, s.out, 0⟩
          | some (_, computedTag) =>
            if tagDiff computedTag (ciphertext.read actualPlaintextLen 16) ≠ 0 then
              ⟨false, ctx, s.out.fill 0 actualPlaintextLen 0, 0⟩
            else ⟨true, { ctx with serverSeqNum := nextSeq ctx.serverSeqNum }, s.out, actualPlaintextLen⟩
        else ⟨false, ctx, s.out, 0⟩

/-! ### Nonces -/

lemma be_eight (n : ℕ) : be 8 n = (List.range 8).map fun i => UInt8.ofNat (n >>> (56 - i * 8)) := by
  simp [be, range_succ, shiftRight_eq_div_pow, Nat.div_div_eq_div_mul]

lemma nonceOf_eq (h : iv.length = 12) (seq : ℕ) : nonceOf iv seq = iv.take 4 ++ xorBytes (iv.drop 4) (be 8 seq) := by
  match iv, h with
  | [_, _, _, _, _, _, _, _, _, _, _, _], _ =>
    rw [be_eight]
    rfl

lemma length_nonceOf (h : iv.length = 12) (seq : ℕ) : (nonceOf iv seq).length = 12 := by
  rw [nonceOf_eq h]
  simp [h]

lemma nonceOf_inj (h : iv.length = 12) {m n : ℕ} (hm : m < 2 ^ 64) (hn : n < 2 ^ 64) (heq : nonceOf iv m = nonceOf iv n) : m = n := by
  rw [nonceOf_eq h, nonceOf_eq h] at heq
  have hxor := append_cancel_left heq
  refine be_inj (k := 8) hm hn ?_
  -- the IV is taken away again
  have hback : ∀ k, xorBytes (iv.drop 4) (xorBytes (iv.drop 4) (be 8 k)) = be 8 k := by
    intro k
    refine ext_getElem (by simp [h]) fun i _ _ => ?_
    simp only [xorBytes, getElem_zipWith, ← UInt8.xor_assoc, UInt8.xor_self, UInt8.zero_xor]
  rw [← hback m, hxor, hback]

/-! ### The tag -/

lemma or_eq_zero (a b : UInt8) : a ||| b = 0 ↔ a = 0 ∧ b = 0 := by
  rw [← UInt8.toNat_inj, ← UInt8.toNat_inj, ← UInt8.toNat_inj]
  exact or_eq_zero_iff

lemma tagDiff_eq_zero {b : Block} {r : Bytes} (hr : r.length = 16) : tagDiff b r = 0 ↔ b.bytes = r := by
  have hfold : ∀ k d, (List.range k).foldl (fun diff i => diff ||| (b.byte i ^^^ r.getD i 0)) d = 0 ↔
      d = 0 ∧ ∀ i < k, b.byte i = r.getD i 0 := by
    intro k d
    induction k with
    | zero => simp
    | succ k ih =>
      rw [range_succ, foldl_append, foldl_cons, foldl_nil, or_eq_zero, ih, UInt8.xor_eq_zero_iff]
      constructor
      · rintro ⟨⟨hd, hlt⟩, hk⟩
        refine ⟨hd, fun i hi => ?_⟩
        rcases Nat.lt_succ_iff_lt_or_eq.1 hi with hi | rfl
        · exact hlt i hi
        · exact hk
      · rintro ⟨hd, hlt⟩
        exact ⟨⟨hd, fun i hi => hlt i (by omega)⟩, hlt k (by omega)⟩
  rw [tagDiff, hfold]
  constructor
  · rintro ⟨-, hbytes⟩
    have hb : b = ⟨r, hr⟩ := Block.ext_byte hbytes
    rw [hb]
  · rintro rfl
    exact ⟨rfl, fun _ _ => rfl⟩

/-! ### The two calls -/

def recordTag (P : Prims) (key : Arr 16) (iv : Arr 12) (seq : ℕ) (ct : Bytes) : Block :=
  P.encryptBlock key.val (ivBlock P key.val (nonceOf iv.val seq)) ^^^
    hashBlocks P.gf128Mul (P.encryptBlock key.val 0) 0 (codeTagInput (recordHeader (ct.length + 16)) ct)

def recordText (P : Prims) (key : Arr 16) (iv : Arr 12) (seq : ℕ) (d : Bytes) : Bytes :=
  ctr (P.encryptBlock key.val) (inc32 (ivBlock P key.val (nonceOf iv.val seq))) 0 d

@[simp] lemma length_recordText (P : Prims) (key : Arr 16) (iv : Arr 12) (seq : ℕ) (d : Bytes) :
    (recordText P key iv seq d).length = d.length := length_ctr ..

lemma recordText_recordText (P : Prims) (key : Arr 16) (iv : Arr 12) (seq : ℕ) (d : Bytes) :
    recordText P key iv seq (recordText P key iv seq d) = d := ctr_ctr ..

def HsCtx.sent (ctx : HsCtx) : HsCtx := { ctx with clientSeqNum := nextSeq ctx.clientSeqNum }

def HsCtx.received (ctx : HsCtx) : HsCtx := { ctx with serverSeqNum := nextSeq ctx.serverSeqNum }

section Calls

variable {P : Prims} {ctx : HsCtx} {inbuf out : Mem} {n cap : ℕ}

lemma recordInit (key : Arr 16) (iv : Arr 12) (seq : ℕ) (aad : Bytes) (op : AesOp) :
    (tlsAesInit P .gcm key.val (nonceOf iv.val seq)).bind (tlsAesUpdateAad P · aad) =
      some (fed P key.val (ivBlock P key.val (nonceOf iv.val seq)) op aad []) := by
  have hnonce : (nonceOf iv.val seq).length ≤ 16 := by rw [length_nonceOf iv.property]; decide
  rw [tlsAesInit_gcm (.inl key.property) hnonce, Option.bind_some, tlsAesUpdateAad_eq]
  rfl

lemma recordDigest (key : Arr 16) (iv : Arr 12) (seq : ℕ) (op : AesOp) {ct : Bytes} (hct : ct ≠ []) :
    ∃ aes, tlsAesDigest P (fed P key.val (ivBlock P key.val (nonceOf iv.val seq)) op (recordHeader (ct.length + 16)) ct) =
      some (aes, recordTag P key iv seq ct) := by
  have hdigest : (tlsAesDigest P (fed P key.val (ivBlock P key.val (nonceOf iv.val seq)) op
      (recordHeader (ct.length + 16)) ct)).map Prod.snd = some (recordTag P key iv seq ct) := tlsAesDigest_fed hct
  obtain ⟨⟨aes, tag⟩, hd, htag⟩ := Option.map_eq_some_iff.1 hdigest
  exact ⟨aes, by rw [hd, ← htag]⟩

variable (P ctx inbuf out) in
lemma tlsEncryptData_eq (h0 : 0 < n) (hn : n + 16 < 2 ^ 24) (hcap : n + 16 ≤ cap) : ∃ out', tlsEncryptData P ctx inbuf n out cap =
        ⟨true, ctx.sent, out', n + 16⟩ ∧
      out'.read 0 n = recordText P ctx.keys.clientApplicationKey ctx.keys.clientApplicationIv ctx.clientSeqNum
        (inbuf.read 0 n) ∧
      out'.read n 16 = (recordTag P ctx.keys.clientApplicationKey ctx.keys.clientApplicationIv ctx.clientSeqNum
        (out'.read 0 n)).bytes := by
  unfold tlsEncryptData sent
  rw [uadd_of_lt hn, if_neg (by omega)]
  dsimp only
  rw [recordInit _ _ _ _ .encrypt]
  generalize ctx.keys.clientApplicationKey = key
  generalize ctx.keys.clientApplicationIv = iv
  generalize hseq : ctx.clientSeqNum = seq
  have hcall : Wrote (tlsAesEncrypt P (fed P key.val (ivBlock P key.val (nonceOf iv.val seq)) .encrypt
      (recordHeader (n + 16)) []) inbuf n out) n out (recordText P key iv seq (inbuf.read 0 n)) ∧
      (tlsAesEncrypt P (fed P key.val (ivBlock P key.val (nonceOf iv.val seq)) .encrypt (recordHeader (n + 16)) [])
        inbuf n out).ctx = fed P key.val (ivBlock P key.val (nonceOf iv.val seq)) .encrypt (recordHeader (n + 16))
          (recordText P key iv seq (inbuf.read 0 n)) := tlsAesEncrypt_gcm h0 (by omega) (.inl rfl)
  obtain ⟨hw, hctx⟩ := hcall
  dsimp only
  generalize hs : tlsAesEncrypt P _ inbuf n out = s at hw hctx ⊢
  have hlen : (recordText P key iv seq (inbuf.read 0 n)).length = n := by simp
  obtain ⟨aes, hdigest⟩ := recordDigest (P := P) key iv seq .encrypt
    (length_pos_iff.1 (hlen.symm ▸ h0 : 0 < (recordText P key iv seq (inbuf.read 0 n)).length))
  rw [hlen] at hdigest
  rw [if_pos hw.ok, hctx, hdigest]
  have hfront : (s.out.write n (recordTag P key iv seq (recordText P key iv seq (inbuf.read 0 n))).bytes).read 0 n =
      recordText P key iv seq (inbuf.read 0 n) := by
    rw [Mem.read_write_before (by omega), hw.text]
  have hback := Mem.read_write s.out n (recordTag P key iv seq (recordText P key iv seq (inbuf.read 0 n))).bytes
  rw [Block.length_bytes] at hback
  exact ⟨_, rfl, hfront, by rw [hfront, hback]⟩

variable (P ctx inbuf out) in
lemma tlsDecryptData_eq (h16 : 16 < n) (hn : n < 2 ^ 24) (hcap : n - 16 ≤ cap) : ∃ out', tlsDecryptData P ctx inbuf n out cap =
        (if (recordTag P ctx.keys.serverApplicationKey ctx.keys.serverApplicationIv ctx.serverSeqNum
            (inbuf.read 0 (n - 16))).bytes = inbuf.read (n - 16) 16 then
          ⟨true, ctx.received, out', n - 16⟩
        else ⟨false, ctx, out'.fill 0 (n - 16) 0, 0⟩) ∧
      out'.read 0 (n - 16) = recordText P ctx.keys.serverApplicationKey ctx.keys.serverApplicationIv ctx.serverSeqNum
        (inbuf.read 0 (n - 16)) ∧
      ∀ i, n - 16 ≤ i → out' i = out i := by
  unfold tlsDecryptData received
  rw [if_neg (by omega)]
  dsimp only
  rw [if_neg (by omega), recordInit _ _ _ _ .decrypt]
  generalize ctx.keys.serverApplicationKey = key
  generalize ctx.keys.serverApplicationIv = iv
  generalize hseq : ctx.serverSeqNum = seq
  obtain ⟨m, rfl⟩ : ∃ m, n = m + 16 := ⟨n - 16, by omega⟩
  rw [Nat.add_sub_cancel]
  have hm : 0 < m := by omega
  have hcall : Wrote (tlsAesDecrypt P (fed P key.val (ivBlock P key.val (nonceOf iv.val seq)) .decrypt
      (recordHeader (m + 16)) []) inbuf m out) m out (recordText P key iv seq (inbuf.read 0 m)) ∧
      (tlsAesDecrypt P (fed P key.val (ivBlock P key.val (nonceOf iv.val seq)) .decrypt (recordHeader (m + 16)) [])
        inbuf m out).ctx = fed P key.val (ivBlock P key.val (nonceOf iv.val seq)) .decrypt (recordHeader (m + 16))
          (inbuf.read 0 m) := tlsAesDecrypt_gcm hm (by omega) (.inl rfl)
  obtain ⟨hw, hctx⟩ := hcall
  dsimp only
  generalize hs : tlsAesDecrypt P _ inbuf m out = s at hw hctx ⊢
  have hlen : (inbuf.read 0 m).length = m := by simp
  obtain ⟨aes, hdigest⟩ := recordDigest (P := P) key iv seq .decrypt
    (length_pos_iff.1 (hlen.symm ▸ hm : 0 < (inbuf.read 0 m).length))
  rw [hlen] at hdigest
  rw [if_pos hw.ok, hctx, hdigest]
  refine ⟨s.out, ?_, hw.text, hw.frame⟩
  dsimp only
  simp only [ne_eq, tagDiff_eq_zero (Mem.length_read inbuf m 16), ite_not]

lemma tlsDecryptData_unread (h : n ≤ 16 ∨ cap < n - 16) : tlsDecryptData P ctx inbuf n out cap = ⟨false, ctx, out, 0⟩ := by
  unfold tlsDecryptData
  by_cases h16 : n < 16
  · rw [if_pos h16]
  by_cases hcap : cap < n - 16
  · rw [if_neg h16, if_pos hcap]
  have hn : n - 16 = 0 := by omega
  rw [if_neg h16]
  dsimp only
  rw [recordInit _ _ _ _ .decrypt]
  simp only [hn, tlsAesDecrypt, if_pos, AesCall.refused]
  rfl

end Calls

/-! ### Runs of records -/

structure DataArgs where
  inbuf : Mem
  len : ℕ
  out : Mem
  cap : ℕ

def callAll (call : HsCtx → DataArgs → DataCall) : HsCtx → List DataArgs → List (HsCtx × DataCall)
  | _, [] => []
  | ctx, a :: as => (ctx, call ctx a) :: callAll call (call ctx a).ctx as

def encryptAll (P : Prims) : HsCtx → List DataArgs → List (HsCtx × DataCall) :=
  callAll fun ctx a => tlsEncryptData P ctx a.inbuf a.len a.out a.cap

def decryptAll (P : Prims) : HsCtx → List DataArgs → List (HsCtx × DataCall) :=
  callAll fun ctx a => tlsDecryptData P ctx a.inbuf a.len a.out a.cap

def DataArgs.Plain (a : DataArgs) : Prop := 0 < a.len ∧ a.len ≤ 2 ^ 14 ∧ a.len + 16 ≤ a.cap

/-- The arguments with which an output is decrypted: its bytes, and room for its text. -/
structure Delivers (sent : HsCtx × DataCall) (a : DataArgs) : Prop where
  len : a.len = sent.2.written
  bytes : a.inbuf.read 0 a.len = sent.2.out.read 0 a.len
  room : a.len - 16 ≤ a.cap

/-- The contexts of the two ends of a connection: what the one writes with, the other one reads with. -/
structure Matching (A B : HsCtx) : Prop where
  key : A.keys.clientApplicationKey = B.keys.serverApplicationKey
  iv : A.keys.clientApplicationIv = B.keys.serverApplicationIv
  seq : A.clientSeqNum = B.serverSeqNum

lemma Matching.next {A B : HsCtx} (h : Matching A B) : Matching A.sent B.received :=
  ⟨h.key, h.iv, congrArg nextSeq h.seq⟩

@[simp] lemma length_callAll (call : HsCtx → DataArgs → DataCall) (ctx : HsCtx) (args : List DataArgs) :
    (callAll call ctx args).length = args.length := by
  induction args generalizing ctx with
  | nil => rfl
  | cons a args ih => exact congrArg (· + 1) (ih _)

lemma callAll_contexts {call : HsCtx → DataArgs → DataCall} {bump : HsCtx → HsCtx} {args : List DataArgs}
    (h : ∀ s ∈ callAll call ctx args, s.2.ctx = bump s.1) :
    (callAll call ctx args).map Prod.fst = (List.range args.length).map fun i => bump^[i] ctx := by
  induction args generalizing ctx with
  | nil => rfl
  | cons a args ih =>
    have hhead : (call ctx a).ctx = bump ctx := h (ctx, call ctx a) mem_cons_self
    have htail := ih fun s hs => h s (mem_cons_of_mem _ hs)
    rw [length_cons, range_succ_eq_map, map_cons, map_map]
    refine congrArg (ctx :: ·) (htail.trans ?_)
    rw [hhead]
    rfl

lemma iterate_sent (h : ctx.clientSeqNum < 2 ^ 64) (i : ℕ) :
    sent^[i] ctx = { ctx with clientSeqNum := (ctx.clientSeqNum + i) % 2 ^ 64 } := by
  induction i with
  | zero => rw [Nat.add_zero, mod_eq_of_lt h]; rfl
  | succ i ih =>
    rw [iterate_succ_apply', ih, sent]
    dsimp only [nextSeq]
    rw [mod_add_mod, Nat.add_assoc]

lemma iterate_received (h : ctx.serverSeqNum < 2 ^ 64) (i : ℕ) :
    received^[i] ctx = { ctx with serverSeqNum := (ctx.serverSeqNum + i) % 2 ^ 64 } := by
  induction i with
  | zero => rw [Nat.add_zero, mod_eq_of_lt h]; rfl
  | succ i ih =>
    rw [iterate_succ_apply', ih, received]
    dsimp only [nextSeq]
    rw [mod_add_mod, Nat.add_assoc]

lemma nodup_nonces (iv : Arr 12) (seq : ℕ) {k : ℕ} (hk : k < 2 ^ 64) :
    ((List.range k).map fun i => nonceOf iv.val ((seq + i) % 2 ^ 64)).Nodup := by
  refine List.Nodup.map_on ?_ nodup_range
  intro i hi j hj heq
  have hmod := nonceOf_inj iv.property (mod_lt _ (by decide)) (mod_lt _ (by decide)) heq
  have hi := mem_range.1 hi
  have hj := mem_range.1 hj
  omega

section RoundTrip

variable {P : Prims} {A B : HsCtx} {args : List DataArgs} {a : DataArgs}

lemma encryptAll_ok (h : ∀ a ∈ args, a.Plain) : ∀ s ∈ encryptAll P A args, s.2.ok = true ∧ s.2.ctx = s.1.sent := by
  induction args generalizing A with
  | nil => exact fun s hs => absurd hs not_mem_nil
  | cons a args ih =>
    intro s hs
    rcases mem_cons.1 hs with rfl | hs
    · obtain ⟨h0, hle, hcap⟩ := h a mem_cons_self
      obtain ⟨out', heq, -⟩ := tlsEncryptData_eq P A a.inbuf a.out h0 (by omega) hcap
      exact ⟨congrArg DataCall.ok heq, congrArg DataCall.ctx heq⟩
    · exact ih (fun b hb => h b (mem_cons_of_mem _ hb)) s hs

lemma decrypt_encrypt {r : DataArgs} (hm : Matching A B) (ha : a.Plain)
    (hr : Delivers (A, tlsEncryptData P A a.inbuf a.len a.out a.cap) r) :
    (tlsEncryptData P A a.inbuf a.len a.out a.cap).ctx = A.sent ∧
      ∃ out', tlsDecryptData P B r.inbuf r.len r.out r.cap = ⟨true, B.received, out', a.len⟩ ∧
        out'.read 0 a.len = a.inbuf.read 0 a.len := by
  obtain ⟨h0, hle, hcap⟩ := ha
  obtain ⟨ct, heq, htext, htag⟩ :=
    tlsEncryptData_eq P A a.inbuf a.out h0 (by omega) hcap
  obtain ⟨hlen, hbytes, hroom⟩ := hr
  rw [heq] at hlen hbytes
  dsimp only at hlen hbytes
  refine ⟨by rw [heq], ?_⟩
  have hsub : r.len - 16 = a.len := by omega
  rw [hlen, Mem.read_add, Mem.read_add, Nat.zero_add] at hbytes
  obtain ⟨hfront, hback⟩ := append_inj hbytes (by simp)
  obtain ⟨out', hdec, hout, -⟩ :=
    tlsDecryptData_eq P B r.inbuf r.out (by omega) (by omega) hroom
  rw [hsub, hfront, hback, ← hm.key, ← hm.iv, ← hm.seq, if_pos htag.symm] at hdec
  rw [hsub, hfront, ← hm.key, ← hm.iv, ← hm.seq, htext, recordText_recordText] at hout
  exact ⟨out', hdec, hout⟩

lemma decryptAll_encryptAll {recvs : List DataArgs} (hm : Matching A B) (h : ∀ a ∈ args, a.Plain)
    (hr : List.Forall₂ Delivers (encryptAll P A args) recvs) :
    ((decryptAll P B recvs).map fun s => (s.2.ok, s.2.out.read 0 s.2.written)) =
        args.map (fun a => (true, a.inbuf.read 0 a.len)) ∧
      ∀ s ∈ decryptAll P B recvs, s.2.ctx = s.1.received := by
  induction args generalizing A B recvs with
  | nil =>
    cases hr
    exact ⟨rfl, fun s hs => absurd hs not_mem_nil⟩
  | cons a args ih =>
    obtain _ | ⟨hhead, htail⟩ := hr
    rename_i r rs
    obtain ⟨hsent, out', hdec, hout⟩ := decrypt_encrypt hm (h a mem_cons_self) hhead
    have hnext : Matching (tlsEncryptData P A a.inbuf a.len a.out a.cap).ctx
        (tlsDecryptData P B r.inbuf r.len r.out r.cap).ctx := by
      rw [hsent, hdec]
      exact hm.next
    obtain ⟨htexts, hctxs⟩ := ih hnext (fun b hb => h b (mem_cons_of_mem _ hb)) htail
    refine ⟨?_, ?_⟩
    · refine cons_eq_cons.2 ⟨?_, htexts⟩
      dsimp only
      rw [hdec, hout]
    · intro s hs
      rcases mem_cons.1 hs with rfl | hs
      · exact congrArg DataCall.ctx hdec
      · exact hctxs s hs

lemma tlsDecryptData_refused (hlt : a.len < 2 ^ 24)
    (htag : a.inbuf.read (a.len - 16) 16 ≠ (recordTag P B.keys.serverApplicationKey B.keys.serverApplicationIv
      B.serverSeqNum (a.inbuf.read 0 (a.len - 16))).bytes) :
    let s := tlsDecryptData P B a.inbuf a.len a.out a.cap
    s.ok = false ∧ s.ctx = B ∧ (∀ i < a.len - 16, a.len - 16 ≤ a.cap → s.out i = 0) ∧
      (∀ i ≥ a.len - 16, s.out i = a.out i) ∧ (a.cap < a.len - 16 → s.out = a.out) := by
  intro s
  by_cases hread : 16 < a.len ∧ a.len - 16 ≤ a.cap
  · obtain ⟨h16, hcap⟩ := hread
    obtain ⟨out', hdec, -, hframe⟩ :=
      tlsDecryptData_eq P B a.inbuf a.out h16 hlt hcap
    rw [if_neg (Ne.symm htag)] at hdec
    have hs : s = ⟨false, B, out'.fill 0 (a.len - 16) 0, 0⟩ := hdec
    rw [hs]
    refine ⟨rfl, rfl, ?_, ?_, fun h => absurd hcap (by omega)⟩
    · intro i hi _
      exact if_pos ⟨Nat.zero_le i, by omega⟩
    · intro i hi
      exact (if_neg (by omega)).trans (hframe i hi)
  · have hs : s = ⟨false, B, a.out, 0⟩ := tlsDecryptData_unread (by omega)
    rw [hs]
    exact ⟨rfl, rfl, fun i hi hcap => absurd hread (by omega), fun _ _ => rfl, fun _ => rfl⟩

/-- **Record protection round trip.**  What one end of a connection encrypts, the other one decrypts; each record steps the two
sequence numbers, and no nonce is used twice.  A ciphertext without the tag that is computed over it is refused, and what had
been decrypted of it is zeroed. -/
theorem records_round_trip {A B : HsCtx} {args recvs : List DataArgs} (hm : Matching A B) (hseq : A.clientSeqNum < 2 ^ 64)
    (hcount : args.length < 2 ^ 64) (hargs : ∀ a ∈ args, a.Plain)
    (hrecvs : List.Forall₂ Delivers (encryptAll P A args) recvs) :
    (∀ s ∈ encryptAll P A args, s.2.ok = true) ∧
      ((decryptAll P B recvs).map fun s => (s.2.ok, s.2.out.read 0 s.2.written)) =
        args.map (fun a => (true, a.inbuf.read 0 a.len)) ∧
      (∀ s ∈ encryptAll P A args, s.2.ctx = { s.1 with clientSeqNum := nextSeq s.1.clientSeqNum }) ∧
      (∀ s ∈ decryptAll P B recvs, s.2.ctx = { s.1 with serverSeqNum := nextSeq s.1.serverSeqNum }) ∧
      ((encryptAll P A args).map fun s => nonceOf s.1.keys.clientApplicationIv.val s.1.clientSeqNum).Nodup ∧
      ((decryptAll P B recvs).map fun s => nonceOf s.1.keys.serverApplicationIv.val s.1.serverSeqNum).Nodup ∧
      ∀ (C : HsCtx) (a : DataArgs), a.len < 2 ^ 24 →
        a.inbuf.read (a.len - 16) 16 ≠ (recordTag P C.keys.serverApplicationKey C.keys.serverApplicationIv C.serverSeqNum
          (a.inbuf.read 0 (a.len - 16))).bytes →
        let s := tlsDecryptData P C a.inbuf a.len a.out a.cap
        s.ok = false ∧ s.ctx = C ∧ (∀ i < a.len - 16, a.len - 16 ≤ a.cap → s.out i = 0) ∧
          (∀ i ≥ a.len - 16, s.out i = a.out i) ∧ (a.cap < a.len - 16 → s.out = a.out) := by
  have hsent := encryptAll_ok (P := P) (A := A) hargs
  obtain ⟨htexts, hreceived⟩ := decryptAll_encryptAll hm hargs hrecvs
  have hlen : recvs.length = args.length := by
    rw [← hrecvs.length_eq, encryptAll, length_callAll]
  refine ⟨fun s hs => (hsent s hs).1, htexts, fun s hs => (hsent s hs).2, hreceived, ?_, ?_,
    fun C a hlt htag => tlsDecryptData_refused hlt htag⟩
  · have hctxs : (encryptAll P A args).map Prod.fst = _ := callAll_contexts fun s hs => (hsent s hs).2
    have hmap := congrArg (List.map fun c : HsCtx => nonceOf c.keys.clientApplicationIv.val c.clientSeqNum) hctxs
    rw [map_map, map_map] at hmap
    refine hmap ▸ ?_
    simp only [comp_def, iterate_sent hseq]
    exact nodup_nonces _ _ hcount
  · have hctxs : (decryptAll P B recvs).map Prod.fst = _ := callAll_contexts hreceived
    have hmap := congrArg (List.map fun c : HsCtx => nonceOf c.keys.serverApplicationIv.val c.serverSeqNum) hctxs
    rw [map_map, map_map] at hmap
    refine hmap ▸ ?_
    simp only [comp_def, iterate_received (hm.seq ▸ hseq)]
    exact nodup_nonces _ _ (hlen ▸ hcount)

def deliver (sent : HsCtx × DataCall) : DataArgs := ⟨sent.2.out, sent.2.written, fun _ => 0, sent.2.written⟩

lemma forall₂_deliver (l : List (HsCtx × DataCall)) : List.Forall₂ Delivers l (l.map deliver) := by
  refine forall₂_map_right_iff.2 (forall₂_same.2 fun s _ => ⟨rfl, rfl, sub_le ..⟩)

theorem records_round_trip_two :
    let args : List DataArgs := [⟨Mem.ofBytes [1, 2, 3], 3, fun _ => 0, 32⟩, ⟨fun _ => 7, 16, fun _ => 0, 32⟩]
    let recvs := (encryptAll aesPrims .zero args).map deliver
    ((decryptAll aesPrims .zero recvs).map fun s => (s.2.ok, s.2.out.read 0 s.2.written)) =
      [(true, [1, 2, 3]), (true, replicate 16 7)] :=
  (records_round_trip ⟨rfl, rfl, rfl⟩ (by decide) (by decide) (by simp [DataArgs.Plain]) (forall₂_deliver _)).2.1

end RoundTrip

end LwftpCe.Tls
