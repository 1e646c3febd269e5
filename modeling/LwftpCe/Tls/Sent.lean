import LwftpCe.Tls.Handshake
import LwftpCe.Tls.Writes

/-!
# Acknowledgements

`altcp_tls_ce_lower_sent` divides what TCP acknowledges into the bytes of the tags, which `overhead_bytes_adjust` counts, and
the rest, which it reports to the application.  The messages of the handshake are not counted: their bytes are reported as
if the application had written them.
-/

namespace LwftpCe.Tls

open Lib List Mark Option

/-! ### The runs -/

namespace Mark

def reported : Mark → ℕ
  | .sent n => n
  | _ => 0

def written : Mark → ℕ
  | .wrote record => record.length - 16
  | _ => 0

def sealed : Mark → ℕ
  | .wrote record => record.length
  | _ => 0

def greeting : Mark → ℕ
  | .clientHello m | .clientFinished m => m.length
  | _ => 0

def tag : Mark → ℕ
  | .wrote _ => 16
  | _ => 0

def plain : Mark → Bool
  | .wrote _ | .sent _ => false
  | _ => true

end Mark

def total (f : Mark → ℕ) (trail : List Mark) : ℕ := (trail.map f).sum

namespace Conn

def Act.sized : Act → Bool
  | .write _ len _ _ => len < 2 ^ 16
  | _ => true

def Reply.acts : Reply → List Act
  | .ok as | .refused as => as
  | _ => []

def Env.acts (env : Env) : List Act := env.reply.acts ++ env.bufs.flatMap fun b => b.2.acts

def Event.acts : Event → List Act
  | .connected env _ _ | .recv env _ | .closed env | .poll env => env.acts
  | .act a => [a]
  | .sent _ => []

end Conn

/-- A connection, and how many bytes TCP has acknowledged. -/
structure Line where
  conn : Conn
  acked : ℕ

namespace Line

def sent (l : Line) : ℕ := total Mark.greeting l.conn.trail + total Mark.sealed l.conn.trail

/-- TCP reports the connection before it takes a byte, and it acknowledges bytes that it has taken; it does not hold more
than 16 bits of them. -/
def possible (l : Line) (e : Conn.Event) : Bool :=
  e.acts.all Conn.Act.sized && match e with
    | .connected .. => l.sent = 0
    | .sent len => l.acked + len ≤ l.sent ∧ l.sent ≤ l.acked + 0xFFFF
    | _ => true

def ackedAfter (l : Line) : Conn.Event → ℕ
  | .sent len => l.acked + len
  | _ => l.acked

def step (pl : Platform) : Line → Conn.Event → Option Line :=
  guarded possible fun l e => (l.conn.step pl e).map (⟨·, l.ackedAfter e⟩)

def Exact (l : Line) : Prop :=
  total Mark.reported l.conn.trail ≤ total Mark.written l.conn.trail ∧
    (l.acked = l.sent → total Mark.reported l.conn.trail = total Mark.written l.conn.trail)

def Within (l : Line) : Conn.Event → Prop
  | .sent len => l.acked + len ≤ total Mark.sealed l.conn.trail
  | _ => True

end Line

/-! ### The books -/

structure Balanced (acked p : ℕ) (s : Conn) : Prop where
  adjust : s.overheadBytesAdjust = p % uintRange
  reported : total Mark.reported s.trail + total Mark.tag s.trail = acked + p
  within : acked + p ≤ total Mark.sealed s.trail
  sealed : total Mark.written s.trail + total Mark.tag s.trail = total Mark.sealed s.trail

def Books (acked : ℕ) (s : Conn) : Prop := ∃ p, Balanced acked p s

namespace Books

variable {acked : ℕ} {s s' : Conn} {P : Prims} {pl : Platform} {as : List Conn.Act}

def Sized (as : List Conn.Act) : Prop := ∀ a ∈ as, a.sized = true

lemma total_plain {f : Mark → ℕ} (hf : ∀ m : Mark, m.plain = true → f m = 0) {ms : List Mark}
    (hms : ∀ m ∈ ms, m.plain = true) (t : List Mark) : total f (ms ++ t) = total f t := by
  unfold total
  rw [map_append, sum_append, sum_eq_zero (by simpa using fun m hm => hf m (hms m hm)), Nat.zero_add]

lemma marks (h : Books acked s) (ms : List Mark) (ho : s'.overheadBytesAdjust = s.overheadBytesAdjust)
    (ht : s'.trail = ms ++ s.trail) (hms : ∀ m ∈ ms, m.plain = true) : Books acked s' := by
  have hf : ∀ f ∈ [reported, tag, sealed, written], total f s'.trail = total f s.trail := by
    intro f hf
    rw [ht]
    refine total_plain (fun m hm => ?_) hms _
    simp only [mem_cons, not_mem_nil, or_false] at hf
    rcases hf with rfl | rfl | rfl | rfl <;> cases m <;> first | rfl | cases hm
  simp only [forall_mem_cons, not_mem_nil, false_implies, implies_true, and_true] at hf
  obtain ⟨hreported, htag, hsealed, hwritten⟩ := hf
  obtain ⟨p, hp⟩ := h
  refine ⟨p, ho.trans hp.adjust, ?_, ?_, ?_⟩
  · rw [hreported, htag, hp.reported]
  · rw [hsealed]
    exact hp.within
  · rw [hwritten, htag, hsealed, hp.sealed]

lemma frame (h : Books acked s) (ho : s'.overheadBytesAdjust = s.overheadBytesAdjust) (ht : s'.trail = s.trail) : Books acked s' :=
  h.marks [] ho ht (by simp)

lemma mark (h : Books acked s) {m : Mark} (hm : m.plain = true) : Books acked (s.mark m) :=
  h.marks [m] rfl rfl (by simpa using hm)

lemma write_spec (s : Conn) (dataptr : Mem) {len : ℕ} (hlen : len < 2 ^ 16) (ciphertext : Mem) (err : Err) :
    ((s.write P dataptr len ciphertext err).1 = .ok ∧ ∃ record : Bytes, record.length = len + 16 ∧
      (s.write P dataptr len ciphertext err).2.trail = .wrote record :: s.trail ∧
      (s.write P dataptr len ciphertext err).2.overheadBytesAdjust = uadd (usub s.overheadBytesAdjust len) (len + 16)) ∨
    ((s.write P dataptr len ciphertext err).1 ≠ .ok ∧ (s.write P dataptr len ciphertext err).2.trail = s.trail ∧
      (s.write P dataptr len ciphertext err).2.overheadBytesAdjust = s.overheadBytesAdjust) := by
  have hw : (tlsEncryptData P s.ctx dataptr len ciphertext 2048).ok = true →
      (tlsEncryptData P s.ctx dataptr len ciphertext 2048).written = len + 16 := by
    intro hok
    by_cases hfits : 0 < len ∧ len ≤ 2032
    · obtain ⟨out', heq, -⟩ := tlsEncryptData_eq P s.ctx dataptr ciphertext hfits.1 (by omega) (by omega : len + 16 ≤ 2048)
      rw [heq]
    · exact absurd (hok.symm.trans (encrypt_unfit (w := ⟨dataptr, len, hlen, ciphertext, err⟩) hfits).1) (by decide)
  unfold Conn.write
  dsimp only
  split_ifs with hdone hok herr
  · exact .inr ⟨by simp, rfl, rfl⟩
  · exact .inr ⟨by simp, rfl, rfl⟩
  · rw [hw (by simpa using hok)]
    exact .inl ⟨rfl, _, Mem.length_read .., rfl, rfl⟩
  · exact .inr ⟨herr, rfl, rfl⟩

section

variable (h : Books acked s)

include h

lemma write (dataptr : Mem) {len : ℕ} (hlen : len < 2 ^ 16) (ciphertext : Mem) (err : Err) :
    Books acked (s.write P dataptr len ciphertext err).2 := by
  rcases write_spec s dataptr hlen ciphertext err with ⟨-, record, hrec, ht, ho⟩ | ⟨-, ht, ho⟩
  · obtain ⟨p, hp⟩ := h
    have hadjust := hp.adjust
    have hreported := hp.reported
    have hwithin := hp.within
    have hsealed := hp.sealed
    refine ⟨p + 16, ?_, ?_, ?_, ?_⟩
    · rw [ho, hadjust]
      unfold uadd usub uintRange
      omega
    all_goals
      rw [ht]
      unfold total at *
      simp only [map_cons, sum_cons, reported, tag, sealed, written, hrec]
      omega
  · exact h.frame ho ht

lemma act {a : Conn.Act} (ha : a.sized = true) : Books acked (s.act P a) := by
  cases a with
  | recved len =>
    unfold Conn.act Conn.recved
    dsimp only
    generalize (if len > s.rxPassedUnrecved then s.rxPassedUnrecved else len) = n
    generalize (if s.rxThrottlePending > Conn.intMax then Conn.intMax else s.rxThrottlePending) = chunk
    split_ifs
    · exact h
    · exact h.frame rfl rfl
    · exact h.marks [.credit n, .credit chunk] rfl rfl (by simp [plain])
    · exact h.marks [.credit n] rfl rfl (by simp [plain])
    · exact h.frame rfl rfl
    · exact h.marks [.credit n] rfl rfl (by simp [plain])
  | throttle level =>
    unfold Conn.act Conn.setRxThrottle
    dsimp only
    split_ifs
    · exact h.marks [.credit _] rfl rfl (by simp [plain])
    · exact h.frame rfl rfl
  | write dataptr len ciphertext err => exact h.write dataptr (of_decide_eq_true ha) ciphertext err

lemma acts (has : Sized as) : Books acked (s.acts P as) := by
  induction as generalizing s with
  | nil => exact h
  | cons a as ih => exact ih (h.act (has a mem_cons_self)) fun b hb => has b (mem_cons_of_mem _ hb)

lemma passRxData {reply : Conn.Reply} (has : Sized reply.acts) : Books acked (Conn.passRxData P s reply).2 := by
  unfold Conn.passRxData
  split_ifs
  · cases reply with
    | absent | aborted => exact h.frame rfl rfl
    | ok as => exact acts (h.marks [.delivered _] rfl rfl (by simp [plain])) has
    | refused as =>
      have hpassed : Books acked { s with rxApp := [], rxPassedUnrecved := s.rxPassedUnrecved + s.rxApp.length, upperCalled := true } :=
        h.frame rfl rfl
      exact (hpassed.acts has).frame rfl rfl
  · cases reply with
    | absent | aborted => exact h.frame rfl rfl
    | ok as | refused as => exact acts (h.frame rfl rfl) has
  · exact h

lemma afterBlock (ctx : HsCtx) (ctLen : ℕ) (plaintext : Bytes) :
    Books acked (s.afterBlock ctx ctLen plaintext) := by
  unfold Conn.afterBlock
  split_ifs
  · exact h.marks [.credit _] rfl rfl (by simp [plain])
  · exact h.frame rfl rfl

end

lemma handleLoop (bufs : List (Mem × Conn.Reply)) (h : Books acked s)
    (has : Sized (bufs.flatMap fun b => b.2.acts)) : Books acked (Conn.handleLoop pl s bufs).2 := by
  induction bufs generalizing s with
  | nil => exact h
  | cons b bufs ih =>
    obtain ⟨hreply, hbufs⟩ := forall_mem_append.1 has
    unfold Conn.handleLoop
    dsimp only
    generalize tlsDecryptData pl.prims _ _ _ _ _ = r
    have hpass := passRxData (P := pl.prims) (h.afterBlock r.ctx (s.nextBlock pl).length (r.out.read 0 r.written)) hreply
    generalize Conn.passRxData pl.prims _ _ = x at hpass ⊢
    obtain ⟨err, s'⟩ := x
    split_ifs
    · exact h
    · exact h.frame rfl rfl
    · cases err with
      | ok => exact ih hpass hbufs
      | _ => exact hpass

lemma handleRxAppldata (h : Books acked s) {bufs : List (Mem × Conn.Reply)}
    (has : Sized (bufs.flatMap fun b => b.2.acts)) : Books acked (s.handleRxAppldata pl bufs).2 := by
  unfold Conn.handleRxAppldata
  split_ifs
  · exact h
  · exact handleLoop bufs h has

variable {env : Conn.Env}

variable (h : Books acked s)

include h

lemma establish (has : Sized env.acts) : Books acked (s.establish pl env).2 := by
  obtain ⟨hreply, hbufs⟩ := forall_mem_append.1 has
  have hgo : ∀ s : Conn, Books acked s →
      Books acked (if s.rx = [] then (Err.ok, s) else s.handleRxAppldata pl env.bufs).2 := by
    intro s hs
    split_ifs
    · exact hs
    · exact hs.handleRxAppldata hbufs
  have hdone : Books acked { s.mark .done with handshakeDone := true, ctx := { s.ctx with state := .handshakeComplete } } :=
    h.marks [.done] rfl rfl (by simp [plain])
  unfold Conn.establish
  revert hreply
  cases env.reply with
  | absent => exact fun _ => hgo _ hdone
  | ok as => exact fun hreply => hgo _ ((hdone.mark rfl).acts hreply)
  | refused as => exact fun hreply => (hdone.mark rfl).acts hreply
  | aborted => exact fun _ => (hdone.mark rfl).frame rfl rfl

lemma finishHandshake (has : Sized env.acts) : Books acked (s.finishHandshake pl env).2 := by
  unfold Conn.finishHandshake
  dsimp only
  split_ifs
  · exact h.frame rfl rfl
  unfold Conn.sendFinished
  split
  · exact h.frame rfl rfl
  split_ifs
  · exact h.frame rfl rfl
  · unfold Conn.deriveApplication
    dsimp only
    split_ifs
    · exact h.marks [.secrets _, .clientFinished _] rfl rfl (by simp [plain])
    · refine establish ?_ has
      exact h.marks [.secrets _, .clientFinished _] rfl rfl (by simp [plain])

lemma lowerRecvProcess (has : Sized env.acts) {r : Err × Conn}
    (hr : Conn.lowerRecvProcess pl env s = some r) : Books acked r.2 := by
  obtain ⟨-, hbufs⟩ := forall_mem_append.1 has
  cases hdone : s.handshakeDone with
  | true =>
    unfold Conn.lowerRecvProcess at hr
    rw [if_neg (by simp [hdone])] at hr
    cases hr
    exact h.handleRxAppldata hbufs
  | false =>
    refine Conn.lowerRecvProcess_inv (Books acked) (Books acked) hdone h (fun _ _ => trivial) ?_ ?_ ?_ ?_ hr
    · intro s record totalLen scan hs _ _ _
      rw [Conn.afterRecord_eq]
      exact hs.marks (.discard totalLen :: (List.map accepted _).reverse) rfl rfl (by simp [plain])
    · exact fun s ctx hs => hs.frame rfl rfl
    · exact fun s hs _ => hs.finishHandshake has
    · exact fun s hs _ => hs.handleRxAppldata hbufs

lemma lowerRecv (has : Sized env.acts) {p : List Bytes} {r : Err × Conn}
    (hr : s.lowerRecv pl env p = some r) : Books acked r.2 := by
  have hseg := h.mark (m := .segment p.flatten.length) rfl
  unfold Conn.lowerRecv at hr
  dsimp only at hr
  split_ifs at hr
  · split at hr
    · cases hr
      exact hseg.frame rfl rfl
    · refine lowerRecvProcess ?_ has hr
      exact hseg.frame rfl rfl
  · refine lowerRecvProcess ?_ has hr
    exact hseg.frame rfl rfl

lemma lowerRecvClosed (has : Sized env.acts) : Books acked (s.lowerRecvClosed pl env).2 := by
  obtain ⟨hreply, hbufs⟩ := forall_mem_append.1 has
  unfold Conn.lowerRecvClosed
  split_ifs
  · refine handleRxAppldata ?_ hbufs
    exact h.frame rfl rfl
  · have hclosed : Books acked { s with rxClosed := true } := h.frame rfl rfl
    revert hreply
    cases env.reply with
    | absent => exact fun _ => hclosed
    | ok as | refused as => exact fun hreply => hclosed.acts hreply
    | aborted => exact fun _ => hclosed.frame rfl rfl
  · exact h.frame rfl rfl

lemma lowerConnected (h0 : total sealed s.trail = 0) (has : Sized env.acts)
    {clientHello : Mem} {helloErr : Err} {r : Err × Conn} (hr : s.lowerConnected pl env clientHello helloErr = some r) :
    Books acked r.2 := by
  have hs : Books acked { s with overheadBytesAdjust := 0 } := by
    obtain ⟨p, hp⟩ := h
    have hwithin := hp.within
    obtain rfl : p = 0 := by omega
    exact ⟨0, rfl, hp.reported, hp.within, hp.sealed⟩
  unfold Conn.lowerConnected Conn.writeHello at hr
  dsimp only at hr
  split_ifs at hr
  · cases hr
    exact hs.frame rfl rfl
  · cases hr
    exact hs.frame rfl rfl
  · refine lowerRecvProcess ?_ has hr
    exact hs.marks [.clientHello _] rfl rfl (by simp [plain])
  · exact hs.lowerRecvProcess has hr

lemma lowerSent {len : ℕ} (hlt : total sealed s.trail ≤ acked + 0xFFFF)
    (hle : acked + len ≤ total sealed s.trail) : Books (acked + len) (s.lowerSent len) := by
  obtain ⟨p, hp⟩ := h
  have hwithin := hp.within
  have hp24 : p < uintRange := by
    unfold uintRange
    omega
  have ho : s.overheadBytesAdjust = p := hp.adjust.trans (Nat.mod_eq_of_lt hp24)
  have hreported := hp.reported
  unfold Conn.lowerSent Conn.reportSent
  rw [ho]
  by_cases hmore : p > len
  · rw [if_pos hmore, if_neg (by omega)]
    refine ⟨p - len, ?_, ?_, ?_, hp.sealed⟩
    · rw [usub_of_le hp24 hmore.le, Nat.mod_eq_of_lt (by omega)]
    · show total reported s.trail + total tag s.trail = _
      omega
    · show _ ≤ total sealed s.trail
      omega
  rw [if_neg hmore]
  by_cases heq : len = p
  · rw [if_neg (by omega)]
    refine ⟨0, ?_, ?_, hle, hp.sealed⟩
    · rw [heq, usub_of_le hp24 le_rfl, Nat.sub_self]
      rfl
    · show total reported s.trail + total tag s.trail = _
      omega
  · rw [if_pos (by omega)]
    refine ⟨0, ?_, ?_, ?_, ?_⟩
    · have hlen : len < uintRange := by
        unfold uintRange
        omega
      rw [usub_of_lt hlen.le (by omega)]
      unfold uadd
      rw [show p + uintRange - len + (len - p) = uintRange by omega, Nat.mod_self, Nat.zero_mod]
    all_goals
      have hsealed := hp.sealed
      unfold Conn.mark total at *
      simp only [map_cons, sum_cons, reported, tag, sealed, written]
      omega

end Books

/-! ### Runs -/

variable {pl : Platform} {l l' : Line} {e : Conn.Event}

lemma Line.books_step (h : Books l.acked l.conn) (hin : l.Within e) (hs : l.step pl e = some l') : Books l'.acked l'.conn := by
  obtain ⟨hposs, hs⟩ := guarded_some.1 hs
  obtain ⟨c, hc, rfl⟩ := map_eq_some_iff.1 hs
  obtain ⟨has, hposs⟩ := (Bool.and_eq_true_iff ..).1 hposs
  have has := all_eq_true.1 has
  obtain ⟨-, hc⟩ := (ite_none_left_eq_some ..).1 hc
  cases e with
  | connected env clientHello helloErr =>
    obtain ⟨r, hr, rfl⟩ := map_eq_some_iff.1 hc
    have h0 : l.sent = 0 := of_decide_eq_true hposs
    exact h.lowerConnected (Nat.add_eq_zero_iff.1 h0).2 has hr
  | recv env p =>
    obtain ⟨r, hr, rfl⟩ := map_eq_some_iff.1 hc
    exact h.lowerRecv has hr
  | closed env =>
    cases hc
    exact h.lowerRecvClosed has
  | poll env =>
    cases hc
    exact h.handleRxAppldata (forall_mem_append.1 has).2
  | sent len =>
    cases hc
    obtain ⟨-, hlt⟩ : l.acked + len ≤ l.sent ∧ l.sent ≤ l.acked + 0xFFFF := of_decide_eq_true hposs
    refine h.lowerSent (le_trans ?_ hlt) hin
    exact Nat.le_add_left ..
  | act a =>
    cases hc
    exact h.act (has a mem_cons_self)

lemma Books.exact (h : Books l.acked l.conn) : l.Exact := by
  obtain ⟨p, hp⟩ := h
  have hreported := hp.reported
  have hwithin := hp.within
  have hsealed := hp.sealed
  unfold Line.Exact Line.sent
  constructor
  · omega
  · omega

/-- **Acknowledgements are reported exactly**, in the runs where what TCP has acknowledged never exceeds the bytes of the
records. -/
theorem sent_exact (pl : Platform) (isServer : Bool) (ctx : HsCtx) (mem : Mem) (size : ℕ) (hsize : 0 < size) (level : Buffer.Level)
    {es : List Conn.Event} {l : Line}
    (hin : Along Line.Within (Line.step pl) ⟨.setup isServer ctx mem size hsize level, 0⟩ es)
    (h : run (Line.step pl) ⟨.setup isServer ctx mem size hsize level, 0⟩ es = some l) : l.Exact := by
  have h0 : Books 0 (Conn.setup isServer ctx mem size hsize level) := ⟨0, rfl, rfl, le_rfl, rfl⟩
  exact Books.exact (run_inv_along (fun l : Line => Books l.acked l.conn) (fun _ _ _ hl hin hs => Line.books_step hl hin hs) h0 hin h)

def threeWritten : List Conn.Event :=
  Conn.oneRecord .ok (HelloArgs.helloMessage [0x13, 0x01] HelloArgs.bothExtensions) ++
    [.act (.write (fun _ => 0) 3 (fun _ => 0) .ok)]

theorem sent_exact_three : ∃ l, run (Line.step Conn.realPlatform) ⟨Conn.zeroConn, 0⟩ (threeWritten ++ [.sent 19]) = some l ∧
    total Mark.reported l.conn.trail = 3 ∧ l.Exact := by
  have hlast : (run (Line.step Conn.realPlatform) ⟨Conn.zeroConn, 0⟩ threeWritten).all (fun l =>
      decide (l.acked + 19 ≤ total sealed l.conn.trail)) = true := by decide +kernel
  have hrun : (run (Line.step Conn.realPlatform) ⟨Conn.zeroConn, 0⟩ (threeWritten ++ [.sent 19])).any (fun l =>
      decide (total reported l.conn.trail = 3)) = true := by decide +kernel
  obtain ⟨l, hl, hthree⟩ := (any_eq_true _ _).1 hrun
  have hin : Along Line.Within (Line.step Conn.realPlatform) ⟨Conn.zeroConn, 0⟩ (threeWritten ++ [.sent 19]) := by
    refine ⟨trivial, fun l1 h1 => ⟨trivial, fun l2 h2 => ⟨trivial, fun l3 h3 => ⟨?_, fun _ _ => trivial⟩⟩⟩⟩
    have hl3 := run_cons_some.2 ⟨l1, h1, run_cons_some.2 ⟨l2, h2, run_cons_some.2 ⟨l3, h3, run_nil l3⟩⟩⟩
    have hroom := of_decide_eq_true ((all_eq_true _ _).1 hlast l3 hl3)
    exact hroom
  exact ⟨l, hl, of_decide_eq_true hthree, sent_exact Conn.realPlatform _ _ _ _ _ _ hin hl⟩

/-- The ClientHello is acknowledged before anything is written. -/
theorem hello_reported : ∃ l, run (Line.step Conn.realPlatform) ⟨Conn.zeroConn, 0⟩
    [.connected (Conn.easy .ok) (fun _ => 0) .ok, .sent 115] = some l ∧ ¬ l.Exact := by
  have h : (run (Line.step Conn.realPlatform) ⟨Conn.zeroConn, 0⟩ [.connected (Conn.easy .ok) (fun _ => 0) .ok, .sent 115]).any
      (fun l => decide (total written l.conn.trail < total reported l.conn.trail)) = true := by decide +kernel
  obtain ⟨l, hl, hlt⟩ := (any_eq_true _ _).1 h
  exact ⟨l, hl, fun hexact => absurd hexact.1 (Nat.not_le.2 (of_decide_eq_true hlt))⟩

end LwftpCe.Tls
