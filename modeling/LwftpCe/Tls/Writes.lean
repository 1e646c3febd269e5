import LwftpCe.Tls.Conn

/-!
# Writing application data

Runs of `altcp_tls_ce_write`.  A call encrypts its data, which steps the sequence number, before TCP takes the record or
refuses it.
-/

namespace LwftpCe.Tls

open Lib List Function Conn

structure WriteCall where
  dataptr : Mem
  len : ℕ
  len_lt : len < 2 ^ 16
  ciphertext : Mem
  err : Err

namespace WriteCall

variable (w : WriteCall)

def Fits : Prop := 0 < w.len ∧ w.len ≤ 2032

instance : Decidable w.Fits := inferInstanceAs (Decidable (_ ∧ _))

def Taken : Prop := w.Fits ∧ w.err = .ok

instance : Decidable w.Taken := inferInstanceAs (Decidable (_ ∧ _))

def Refused : Prop := w.Fits ∧ w.err ≠ .ok

instance : Decidable w.Refused := inferInstanceAs (Decidable (_ ∧ _))

def text : Bytes := w.dataptr.read 0 w.len

def args : DataArgs := ⟨w.dataptr, w.len, w.ciphertext, 2048⟩

lemma plain {w : WriteCall} (h : w.Fits) : w.args.Plain := by
  obtain ⟨h0, hle⟩ := h
  unfold DataArgs.Plain args
  dsimp only
  omega

end WriteCall

def Conn.writeCall (P : Prims) (s : Conn) (w : WriteCall) : Err × Conn := s.write P w.dataptr w.len w.ciphertext w.err

def Conn.writeAll (P : Prims) : Conn → List WriteCall → List Err × Conn
  | s, [] => ([], s)
  | s, w :: ws =>
    let r := s.writeCall P w
    let rest := writeAll P r.2 ws
    (r.1 :: rest.1, rest.2)

def Mark.record? : Mark → Option Bytes
  | .wrote r => some r
  | _ => none

def Conn.records (s : Conn) : List Bytes := s.trail.reverse.filterMap Mark.record?

def okTexts (ws : List WriteCall) (errs : List Err) : List Bytes :=
  (ws.zip errs).filterMap fun (w, e) => if e = .ok then some w.text else none

/-- The arguments with which a peer decrypts a record. -/
structure Carries (record : Bytes) (a : DataArgs) : Prop where
  len : a.len = record.length
  bytes : a.inbuf.read 0 a.len = record
  room : a.len - 16 ≤ a.cap

def Reads (P : Prims) (B : HsCtx) (records texts : List Bytes) : Prop :=
  ∀ recvs, List.Forall₂ Carries records recvs →
    ((decryptAll P B recvs).map fun s => (s.2.ok, s.2.out.read 0 s.2.written)) = texts.map fun t => (true, t)

def ReadsAll (P : Prims) (s : Conn) (B : HsCtx) (ws : List WriteCall) : Prop :=
  Reads P B (s.writeAll P ws).2.records (okTexts ws (s.writeAll P ws).1)

def NoneBehindRefused (ws : List WriteCall) : Prop := ws.Pairwise fun a b => ¬ (a.Refused ∧ b.Taken)

/-! ### One call -/

section Call

variable {P : Prims} {s : Conn} {w : WriteCall}

lemma encrypt_unfit {ctx : HsCtx} (h : ¬ w.Fits) : (tlsEncryptData P ctx w.dataptr w.len w.ciphertext 2048).ok = false ∧
      (tlsEncryptData P ctx w.dataptr w.len w.ciphertext 2048).ctx = ctx := by
  have hlt := w.len_lt
  unfold tlsEncryptData
  rw [uadd_of_lt (by unfold uintRange; omega)]
  by_cases hbig : 2048 < w.len + 16
  · rw [if_pos hbig]
    exact ⟨rfl, rfl⟩
  · have hzero : w.len = 0 := by
      unfold WriteCall.Fits at h
      omega
    dsimp only
    rw [recordInit _ _ _ _ .encrypt, hzero]
    exact ⟨rfl, rfl⟩

lemma writeCall_unfit (hdone : s.handshakeDone = true) (h : ¬ w.Fits) : s.writeCall P w = (.mem, s) := by
  obtain ⟨hok, hctx⟩ := encrypt_unfit h
  unfold writeCall Conn.write
  rw [if_neg (by simp [hdone])]
  dsimp only
  rw [hok, hctx]
  rfl

def Conn.sealedRecord (P : Prims) (s : Conn) (w : WriteCall) : Bytes :=
  let r := tlsEncryptData P s.ctx w.dataptr w.len w.ciphertext 2048
  r.out.read 0 r.written

lemma writeCall_fit (hdone : s.handshakeDone = true) (h : w.Fits) :
    ∃ s', s.writeCall P w = (w.err, s') ∧ s'.handshakeDone = true ∧ s'.ctx = s.ctx.sent ∧
      s'.records = s.records ++ if w.err = .ok then [s.sealedRecord P w] else [] := by
  obtain ⟨h0, hle, hcap⟩ := WriteCall.plain h
  have hroom : w.len + 16 ≤ 2048 := hcap
  obtain ⟨out', heq, -⟩ := tlsEncryptData_eq P s.ctx w.dataptr w.ciphertext (n := w.len) h0
    (by unfold WriteCall.Fits at h; omega) hroom
  unfold writeCall Conn.write sealedRecord
  rw [if_neg (by simp [hdone]), heq]
  dsimp only
  by_cases herr : w.err = .ok
  · rw [herr]
    exact ⟨_, rfl, hdone, rfl, by simp [records, mark, setCtx, Mark.record?]⟩
  · rw [if_neg herr, if_neg herr]
    exact ⟨_, rfl, hdone, rfl, by simp [records, setCtx]⟩

end Call

/-! ### One record -/

section Record

variable {P : Prims} {B : HsCtx} {key : Arr 16} {iv : Arr 12} {m n : ℕ} {r : Bytes} {rs ts : List Bytes}

def recordMask (P : Prims) (key : Arr 16) (iv : Arr 12) (seq : ℕ) : Block :=
  P.encryptBlock key.val (ivBlock P key.val (nonceOf iv.val seq))

lemma recordMask_ne (hinj : Function.Injective (P.encryptBlock key.val))
    (hm : m < 2 ^ 64) (hn : n < 2 ^ 64) (hne : m ≠ n) : recordMask P key iv m ≠ recordMask P key iv n := by
  intro heq
  have hlen : ∀ k, (nonceOf iv.val k).length = 12 := fun k => length_nonceOf iv.property k
  have hblock := hinj heq
  unfold ivBlock at hblock
  rw [if_pos (hlen m), if_pos (hlen n)] at hblock
  have hbytes := congrArg Block.bytes hblock
  rw [Block.bytes_ofBytes (by simp [hlen]), Block.bytes_ofBytes (by simp [hlen])] at hbytes
  exact hne (nonceOf_inj iv.property hm hn (append_cancel_right hbytes))

lemma recordTag_ne (hne : recordMask P key iv m ≠ recordMask P key iv n) (ct : Bytes) :
    recordTag P key iv m ct ≠ recordTag P key iv n ct := by
  intro heq
  change recordMask P key iv m ^^^ _ = recordMask P key iv n ^^^ _ at heq
  rw [Block.xor_comm, Block.xor_comm (recordMask P key iv n)] at heq
  exact hne (Block.xor_right_inj.1 heq)

lemma decrypt_other {A : HsCtx} {a r : DataArgs} (hkey : A.keys.clientApplicationKey = B.keys.serverApplicationKey)
    (hiv : A.keys.clientApplicationIv = B.keys.serverApplicationIv)
    (hne : recordMask P B.keys.serverApplicationKey B.keys.serverApplicationIv B.serverSeqNum ≠
      recordMask P B.keys.serverApplicationKey B.keys.serverApplicationIv A.clientSeqNum) (ha : a.Plain)
    (hr : Delivers (A, tlsEncryptData P A a.inbuf a.len a.out a.cap) r) :
    (tlsDecryptData P B r.inbuf r.len r.out r.cap).ok = false := by
  obtain ⟨h0, hle, hcap⟩ := ha
  obtain ⟨ct, heq, -, htag⟩ := tlsEncryptData_eq P A a.inbuf a.out h0 (by omega) hcap
  obtain ⟨hlen, hbytes, hroom⟩ := hr
  rw [heq] at hlen hbytes
  dsimp only at hlen hbytes
  have hsub : r.len - 16 = a.len := by omega
  rw [hlen, Mem.read_add, Mem.read_add, Nat.zero_add] at hbytes
  obtain ⟨hfront, hback⟩ := append_inj hbytes (by simp)
  obtain ⟨out', hdec, -, -⟩ := tlsDecryptData_eq P B r.inbuf r.out (by omega) (by omega) hroom
  rw [hsub, hfront, hback, htag, hkey, hiv, if_neg fun h => recordTag_ne hne (ct.read 0 a.len) (Block.ext h)] at hdec
  rw [hdec]

lemma exists_carries (records : List Bytes) : ∃ recvs, List.Forall₂ Carries records recvs := by
  refine ⟨records.map fun r => ⟨.ofBytes r, r.length, fun _ => 0, r.length⟩, ?_⟩
  rw [forall₂_map_right_iff]
  refine forall₂_same.2 fun r _ => ⟨rfl, ?_, Nat.sub_le ..⟩
  rw [Mem.read_ofBytes (by simp)]
  simp

lemma reads_cons {B' : HsCtx} {t : Bytes}
    (h : ∀ a, Carries r a → ∃ out' n, tlsDecryptData P B a.inbuf a.len a.out a.cap = ⟨true, B', out', n⟩ ∧ out'.read 0 n = t) :
    Reads P B (r :: rs) (t :: ts) ↔ Reads P B' rs ts := by
  constructor
  · intro hreads recvs hrecvs
    obtain ⟨_, hone⟩ := exists_carries [r]
    obtain _ | ⟨ha, -⟩ := hone
    obtain ⟨out', n, hdec, htext⟩ := h _ ha
    have hall := hreads (_ :: recvs) (.cons ha hrecvs)
    unfold decryptAll callAll at hall
    rw [hdec] at hall
    exact (List.cons.inj hall).2
  · rintro hreads _ (_ | ⟨ha, hrecvs⟩)
    obtain ⟨out', n, hdec, htext⟩ := h _ ha
    unfold decryptAll callAll
    rw [hdec]
    exact cons_eq_cons.2 ⟨congrArg (Prod.mk true) htext, hreads _ hrecvs⟩

lemma not_reads_cons
    (h : ∀ a, Carries r a → (tlsDecryptData P B a.inbuf a.len a.out a.cap).ok = false) : ¬ Reads P B (r :: rs) ts := by
  intro hreads
  obtain ⟨recvs, hrecvs⟩ := exists_carries (r :: rs)
  have hall := hreads recvs hrecvs
  obtain _ | ⟨ha, -⟩ := hrecvs
  cases ts with
  | nil => cases hall
  | cons t ts =>
    have hok := congrArg Prod.fst (List.cons.inj hall).1
    dsimp only at hok
    rw [h _ ha] at hok
    cases hok

end Record

/-! ### Runs of calls -/

section Runs

variable {P : Prims} {s : Conn} {B : HsCtx}

def newRecords (P : Prims) : Conn → List WriteCall → List Bytes
  | _, [] => []
  | s, w :: ws => (if w.Taken then [s.sealedRecord P w] else []) ++ newRecords P (s.writeCall P w).2 ws

lemma records_writeAll (hdone : s.handshakeDone = true) (ws : List WriteCall) :
    (s.writeAll P ws).2.records = s.records ++ newRecords P s ws := by
  induction ws generalizing s with
  | nil => simp [writeAll, newRecords]
  | cons w ws ih =>
    unfold writeAll newRecords
    by_cases hfit : w.Fits
    · obtain ⟨s', hcall, hdone', -, hrec⟩ := writeCall_fit hdone hfit
      have htaken : w.Taken ↔ w.err = .ok := and_iff_right hfit
      rw [hcall, ih hdone', hrec, append_assoc]
      simp only [htaken]
    · have htaken : ¬ w.Taken := fun h => hfit h.1
      rw [writeCall_unfit hdone hfit, ih hdone, if_neg htaken, nil_append]

lemma okTexts_cons (w : WriteCall) (ws : List WriteCall) (e : Err) (es : List Err) :
    okTexts (w :: ws) (e :: es) = if e = .ok then w.text :: okTexts ws es else okTexts ws es := by
  unfold okTexts
  split_ifs with h
  · simp [h]
  · simp [h]

lemma Carries.delivers {w : WriteCall} {a : DataArgs} (h : Carries (s.sealedRecord P w) a) :
    Delivers (s.ctx, tlsEncryptData P s.ctx w.args.inbuf w.args.len w.args.out w.args.cap) a := by
  obtain ⟨hlen, hbytes, hroom⟩ := h
  have hwritten : a.len = (tlsEncryptData P s.ctx w.dataptr w.len w.ciphertext 2048).written :=
    hlen.trans (Mem.length_read ..)
  refine ⟨hwritten, ?_, hroom⟩
  rw [hbytes, sealedRecord, ← hwritten]
  rfl

lemma reads_apart {d : ℕ} (hdone : s.handshakeDone = true) (hkey : s.ctx.keys.clientApplicationKey = B.keys.serverApplicationKey)
    (hiv : s.ctx.keys.clientApplicationIv = B.keys.serverApplicationIv)
    (hinj : Function.Injective (P.encryptBlock B.keys.serverApplicationKey.val)) (hB : B.serverSeqNum < 2 ^ 64)
    (hseq : s.ctx.clientSeqNum = (B.serverSeqNum + d) % 2 ^ 64) (hd : 0 < d) (ws : List WriteCall)
    (hlen : d + ws.length ≤ 2 ^ 64) :
    Reads P B (newRecords P s ws) (okTexts ws (s.writeAll P ws).1) ↔ ∀ w ∈ ws, ¬ w.Taken := by
  induction ws generalizing s d with
  | nil => exact iff_of_true (by rintro _ ⟨⟩; rfl) (by simp)
  | cons w ws ih =>
    rw [length_cons] at hlen
    unfold newRecords writeAll
    rw [okTexts_cons, forall_mem_cons]
    by_cases hfit : w.Fits
    · obtain ⟨s', hcall, hdone', hctx, -⟩ := writeCall_fit hdone hfit
      rw [hcall]
      by_cases herr : w.err = .ok
      · have htaken : w.Taken := ⟨hfit, herr⟩
        have hne : B.serverSeqNum ≠ s.ctx.clientSeqNum := by omega
        rw [if_pos htaken]
        refine iff_of_false (not_reads_cons fun a ha => ?_) fun h => h.1 htaken
        exact decrypt_other hkey hiv (recordMask_ne hinj hB (by omega) hne) (WriteCall.plain hfit) ha.delivers
      · have hnot : ¬ w.Taken := fun h => herr h.2
        rw [if_neg hnot, if_neg herr, and_iff_right hnot]
        refine ih hdone' (by rw [hctx]; exact hkey) (by rw [hctx]; exact hiv) (d := d + 1) ?_ (by omega) (by omega)
        rw [hctx]
        change nextSeq s.ctx.clientSeqNum = _
        unfold nextSeq
        omega
    · have hnot : ¬ w.Taken := fun h => hfit h.1
      rw [writeCall_unfit hdone hfit, if_neg hnot, and_iff_right hnot]
      exact ih hdone hkey hiv hseq hd (by omega)

lemma reads_matching (hdone : s.handshakeDone = true) (hm : Matching s.ctx B)
    (hinj : Function.Injective (P.encryptBlock B.keys.serverApplicationKey.val)) (hB : B.serverSeqNum < 2 ^ 64)
    (ws : List WriteCall) (hlen : ws.length < 2 ^ 64) :
    Reads P B (newRecords P s ws) (okTexts ws (s.writeAll P ws).1) ↔ NoneBehindRefused ws := by
  induction ws generalizing s B with
  | nil => exact iff_of_true (by rintro _ ⟨⟩; rfl) .nil
  | cons w ws ih =>
    rw [length_cons] at hlen
    unfold newRecords writeAll NoneBehindRefused
    rw [okTexts_cons, pairwise_cons]
    by_cases hfit : w.Fits
    · obtain ⟨s', hcall, hdone', hctx, -⟩ := writeCall_fit hdone hfit
      rw [hcall]
      by_cases herr : w.err = .ok
      · have htaken : w.Taken := ⟨hfit, herr⟩
        have hnot : ∀ b ∈ ws, ¬ (w.Refused ∧ b.Taken) := fun b _ h => h.1.2 herr
        have hread : ∀ a, Carries (s.sealedRecord P w) a → ∃ out' n,
            tlsDecryptData P B a.inbuf a.len a.out a.cap = ⟨true, B.received, out', n⟩ ∧ out'.read 0 n = w.text := by
          intro a ha
          obtain ⟨-, out', hdec, htext⟩ := decrypt_encrypt hm (WriteCall.plain hfit) ha.delivers
          exact ⟨out', w.len, hdec, htext⟩
        rw [if_pos htaken, if_pos herr, and_iff_right hnot]
        refine (reads_cons hread).trans (ih hdone' (by rw [hctx]; exact hm.next) hinj (Nat.mod_lt _ (by decide)) (by omega))
      · have hrefused : w.Refused := ⟨hfit, herr⟩
        rw [if_neg fun h => herr h.2, if_neg herr]
        have hapart := reads_apart hdone' (by rw [hctx]; exact hm.key) (by rw [hctx]; exact hm.iv) hinj hB
          (by rw [hctx, ← hm.seq]; rfl) (by decide) ws (by omega)
        refine hapart.trans ⟨fun h => ⟨fun b hb hand => h b hb hand.2, ?_⟩, fun h b hb ht => h.1 b hb ⟨hrefused, ht⟩⟩
        exact pairwise_of_forall_mem_list fun a _ b hb hand => h b hb hand.2
    · have hnot : ∀ b ∈ ws, ¬ (w.Refused ∧ b.Taken) := fun b _ h => hfit h.1.1
      rw [writeCall_unfit hdone hfit, if_neg fun h => hfit h.1, and_iff_right hnot]
      exact ih hdone hm hinj hB (by omega)

/-- **When the peer reads what was written.** -/
theorem reads_all_iff (P : Prims) (s : Conn) (B : HsCtx) (ws : List WriteCall) (hdone : s.handshakeDone = true)
    (hnew : s.records = []) (hm : Matching s.ctx B)
    (hinj : Function.Injective (P.encryptBlock B.keys.serverApplicationKey.val)) (hseq : B.serverSeqNum < 2 ^ 64)
    (hlen : ws.length < 2 ^ 64) : ReadsAll P s B ws ↔ NoneBehindRefused ws := by
  unfold ReadsAll
  rw [records_writeAll hdone, hnew]
  exact reads_matching hdone hm hinj hseq ws hlen

lemma ringSize_pos : 0 < 4096 := by decide

def established (ctx : HsCtx) : Conn := { Conn.setup false ctx (fun _ => 0) 4096 ringSize_pos .none with handshakeDone := true }

theorem reads_all_two : ReadsAll aesPrims (established .zero) .zero
    [⟨.ofBytes [1, 2, 3], 3, by decide, fun _ => 0, .ok⟩, ⟨.ofBytes [4], 1, by decide, fun _ => 0, .mem⟩] := by
  have hinj : Function.Injective (aesPrims.encryptBlock HsCtx.zero.keys.serverApplicationKey.val) :=
    Aes.cipher_injective (by decide +kernel)
  refine (reads_all_iff _ _ _ _ rfl rfl ⟨rfl, rfl, rfl⟩ hinj (by decide) (by decide)).2 ?_
  unfold NoneBehindRefused
  decide

/-- A record that TCP refuses, and one that it takes: the peer cannot decrypt the second one. -/
theorem reads_refused_first : ¬ ReadsAll aesPrims (established .zero) .zero
    [⟨.ofBytes [4], 1, by decide, fun _ => 0, .mem⟩, ⟨.ofBytes [4], 1, by decide, fun _ => 0, .ok⟩] := by
  have hfit : WriteCall.Fits ⟨.ofBytes [4], 1, by decide, fun _ => 0, .mem⟩ := by decide
  have hfit' : WriteCall.Fits ⟨.ofBytes [4], 1, by decide, fun _ => 0, .ok⟩ := by decide
  obtain ⟨s', hcall, -, hctx, -⟩ := writeCall_fit (s := established .zero) rfl hfit
  unfold ReadsAll
  rw [records_writeAll rfl, newRecords, hcall, newRecords]
  refine not_reads_cons fun a ha => ?_
  have hmask : recordMask aesPrims (.zero 16) (.zero 12) 0 ≠
      recordMask aesPrims (.zero 16) (.zero 12) 1 := by decide +kernel
  refine decrypt_other ?_ ?_ ?_ (WriteCall.plain hfit') ha.delivers
  · rw [hctx]
    rfl
  · rw [hctx]
    rfl
  · rw [hctx]
    exact hmask

end Runs

end LwftpCe.Tls
