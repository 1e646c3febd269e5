import LwftpCe.Tls.Records

/-!
# When is a connection reported as established?

`altcp_tls_ce_lower_recv_process` reports a connection as soon as a ServerHello has been accepted and TCP has taken the
Finished of the client.  No Finished of the server is asked for: `tls_recv_finished` is not called.
-/

namespace LwftpCe.Tls

open Lib Relation List HelloArgs Scan Mark

/-! ### The context after a record -/

section Context

variable {payload : Mem} {recordLen fuel : ℕ} {s s' : Scan}

lemma messageStep_goOn (hR : recordLen < 2 ^ 16) (h : messageStep fuel payload recordLen s = some (.goOn s')) :
    Follow payload recordLen s.ctx.cipherSuite s.key s'.key ∧
      (s'.ctx = s.ctx ∨ s.key.1 = true ∧ s'.ctx.state = .serverHelloReceived) := by
  refine ⟨((messageStep_spec hR h).follow _).2 ⟨s', rfl, rfl⟩, ?_⟩
  obtain ⟨-, ok, n, heq, -⟩ | ⟨hhas, htype, heq⟩ | ⟨-, -, heq⟩ | ⟨-, -, -, heq⟩ := messageStep_cases fuel payload recordLen s
  · cases heq.symm.trans h
  · have hnext := Option.some.inj (heq.symm.trans h)
    obtain ⟨hstate, -, hok, hctx⟩ | ⟨-, hok, -⟩ := hello_cases (hhas.offset_le hR) htype
    · rw [hok, if_pos rfl] at hnext
      cases hnext
      exact .inr ⟨by simp [key, hstate], (congrArg HsCtx.state hctx :)⟩
    · rw [hok] at hnext
      cases hnext
  · obtain ⟨r, -, hr⟩ := Option.map_eq_some_iff.1 (heq.symm.trans h)
    cases hok : r.ok with
    | true =>
      rw [hok, if_pos rfl] at hr
      cases hr
      exact .inl rfl
    | false =>
      rw [hok] at hr
      cases hr
  · cases heq.symm.trans h
    exact .inl rfl

lemma messageStep_done (h : messageStep fuel payload recordLen s = some (.done true s')) : s'.ctx = s.ctx ∧ s'.key = s.key := by
  obtain ⟨-, ok, n, heq, -⟩ | ⟨hhas, htype, heq⟩ | ⟨-, -, heq⟩ | ⟨-, -, -, heq⟩ := messageStep_cases fuel payload recordLen s
  · cases heq.symm.trans h
    exact ⟨rfl, rfl⟩
  · have hnext := Option.some.inj (heq.symm.trans h)
    split_ifs at hnext
    all_goals cases hnext
  · obtain ⟨r, -, hr⟩ := Option.map_eq_some_iff.1 (heq.symm.trans h)
    split_ifs at hr
    all_goals cases hr
  · cases heq.symm.trans h

lemma messageLoop_true (hR : recordLen < 2 ^ 16) (n : ℕ) : ∀ s s', messageLoop fuel payload recordLen n s = some (true, s') →
    ReflTransGen (Follow payload recordLen s.ctx.cipherSuite) s.key s'.key ∧
      (s'.ctx = s.ctx ∨ s.key.1 = true ∧ s'.ctx.state = .serverHelloReceived) := by
  induction n with
  | zero => exact fun s s' h => nomatch h
  | succ n ih =>
    intro s s' h
    unfold messageLoop at h
    cases hx : messageStep fuel payload recordLen s with
    | none =>
      rw [hx] at h
      cases h
    | some x =>
      rw [hx] at h
      cases x with
      | done ok m =>
        cases h
        obtain ⟨hctx, hkey⟩ := messageStep_done hx
        exact ⟨by rw [hkey], .inl hctx⟩
      | goOn m =>
        obtain ⟨hfollow, hctx⟩ := messageStep_goOn hR hx
        obtain ⟨hreach, hctx'⟩ := ih m s' h
        have hsuite : m.ctx.cipherSuite = s.ctx.cipherSuite := (messageStep_spec hR hx).suite
        rw [hsuite] at hreach
        refine ⟨.head hfollow hreach, ?_⟩
        rcases hctx with hctx | ⟨hs, hm⟩
        · have hkey : m.key.1 = s.key.1 := by rw [key, key, hctx]
          rwa [hctx, hkey] at hctx'
        · rcases hctx' with hctx' | ⟨hm', -⟩
          · exact .inr ⟨hs, hctx' ▸ hm⟩
          · -- a second ServerHello is not awaited
            simp [key, hm] at hm'

end Context

def HelloMet (suite : ℕ) (data : Mem) (dataLen : ℕ) : Prop :=
  RecordFramed data dataLen ∧
    ∃ offset, ReflTransGen (Follow (fromOffset data 5) (be16At data 3) suite) (true, 0) (false, offset)

def OnlyHello (suite : ℕ) (data : Mem) (dataLen : ℕ) : Prop :=
  RecordFramed data dataLen → ∀ awaited k k', ReflTransGen (Follow (fromOffset data 5) (be16At data 3) suite) (awaited, 0) k →
    Follow (fromOffset data 5) (be16At data 3) suite k k' → fromOffset data 5 k.2 = 0x02

/-- A record that is one ServerHello carries no other message. -/
lemma OnlyHello.of_whole {suite dataLen : ℕ} {data : Mem} (htype : fromOffset data 5 0 = 0x02)
    (hend : msgEnd (fromOffset data 5) 0 = be16At data 3) : OnlyHello suite data dataLen := by
  intro _ awaited k k' hreach hfollow
  have hk : k.2 = 0 ∨ k.2 = be16At data 3 := by
    clear hfollow
    induction hreach with
    | refl => exact .inl rfl
    | tail _ hstep ih =>
      rcases ih with hzero | hlast
      · right
        cases hstep <;> cases hzero <;> exact hend
      · have := hstep.hasMessage.1
        omega
  rcases hk with hzero | hlast
  · rw [hzero]
    exact htype
  · have := hfollow.hasMessage.1
    omega

section Records

variable {ctx : HsCtx} {data : Mem} {dataLen fuel : ℕ} {scan : Scan}

lemma tlsProcessRecord_true (h : tlsProcessRecord fuel ctx data dataLen = some (true, scan)) : RecordFramed data dataLen ∧
      (scan.ctx = ctx ∨ ctx.state = .clientHelloSent ∧ scan.ctx.state = .serverHelloReceived ∧
        HelloMet ctx.cipherSuite data dataLen) := by
  by_cases hframed : RecordFramed data dataLen
  · rw [tlsProcessRecord_framed fuel hframed] at h
    obtain ⟨hreach, hctx⟩ := messageLoop_true (be16At_lt ..) fuel _ _ h
    refine ⟨hframed, hctx.imp_right fun ⟨hs, hs'⟩ => ⟨by simpa [key] using hs, hs', hframed, scan.offset, ?_⟩⟩
    have hstart : key ⟨ctx, 0, 0, []⟩ = (true, 0) := Prod.ext hs rfl
    have hend : scan.key = (false, scan.offset) := by simp [key, hs']
    rwa [hstart, hend] at hreach
  · rw [tlsProcessRecord_unframed fuel hframed] at h
    cases h

lemma acceptedMessages_eq_nil (h : tlsProcessRecord fuel ctx data dataLen = some (true, scan)) (hctx : scan.ctx = ctx)
    (honly : OnlyHello ctx.cipherSuite data dataLen) :
    Conn.acceptedMessages fuel (fromOffset data 5) (be16At data 3) fuel ⟨ctx, 0, 0, []⟩ = [] := by
  obtain ⟨hframed, -⟩ := tlsProcessRecord_true h
  rw [tlsProcessRecord_framed fuel hframed] at h
  cases fuel with
  | zero => rfl
  | succ n =>
    unfold Conn.acceptedMessages
    unfold messageLoop at h
    cases hx : messageStep (n + 1) (fromOffset data 5) (be16At data 3) ⟨ctx, 0, 0, []⟩ with
    | none => rfl
    | some x =>
      cases x with
      | done ok s => rfl
      | goOn s =>
        rw [hx] at h
        obtain ⟨hfollow, -⟩ := messageStep_goOn (be16At_lt ..) hx
        have htype := honly hframed _ _ _ .refl hfollow
        obtain ⟨⟨hawaited, -⟩, hkey⟩ := (follow_hello hfollow.hasMessage htype).1 hfollow
        -- the loop goes on with a context that awaits no ServerHello, and keeps it
        have hs : s.key.1 = false := congrArg Prod.fst hkey
        obtain ⟨-, hend | ⟨hs', -⟩⟩ := messageLoop_true (be16At_lt ..) n s scan h
        · have hsame : s.key.1 = (key ⟨ctx, 0, 0, []⟩).1 := by rw [key, key, ← hend, hctx]
          exact absurd (hs.symm.trans (hsame.trans hawaited)) Bool.false_ne_true
        · exact absurd (hs.symm.trans hs') Bool.false_ne_true

end Records

namespace Mark

variable {m : Mark}

def counts : Mark → Bool
  | .segment _ | .credit _ | .sent _ | .discard _ => true
  | _ => false

def late : Mark → Bool
  | .clientFinished _ | .secrets _ | .done | .connected => true
  | _ => false

def message : Mark → Bytes
  | .clientHello m | .accepted m | .clientFinished m => m
  | _ => []

lemma counts_late (h : m.counts = true) : m.late = false := by
  cases m <;> first | rfl | cases h

lemma counts_message (h : m.counts = true) : m.message = [] := by
  cases m <;> first | rfl | cases h

end Mark

def transcriptOf (trail : List Mark) : Bytes := (trail.reverse.map Mark.message).flatten

@[simp] lemma transcriptOf_cons (m : Mark) (t : List Mark) : transcriptOf (m :: t) = transcriptOf t ++ m.message := by
  simp [transcriptOf]

lemma transcriptOf_append_counts {ms t : List Mark} (h : ∀ m ∈ ms, m.counts = true) : transcriptOf (ms ++ t) = transcriptOf t := by
  induction ms with
  | nil => rfl
  | cons m ms ih =>
    rw [cons_append, transcriptOf_cons, counts_message (h m mem_cons_self), append_nil,
      ih fun m' hm' => h m' (mem_cons_of_mem _ hm')]

namespace Conn

/-! ### The steps of the handshake -/

section Steps

variable {pl : Platform} {env : Env} {s : Conn} {r : Err × Conn} {e : Event} {s' : Conn}

def Event.arrives (s : Conn) : Event → Option (Env × RxRing)
  | .connected env _ _ => some (env, s.ring)
  | .recv env p => (s.ring.tlsRingWritePbuf p).map fun ring => (env, ring)
  | _ => none

def Quiet (s : Conn) (e : Event) : Prop :=
  ∀ env ring, e.arrives s = some (env, ring) →
    env.finishedErr ≠ .ok ∨ ∀ rec ∈ ringRecords env.block ring.len ring, ¬ HelloMet s.ctx.cipherSuite rec.1 rec.2

def Bare (s : Conn) (e : Event) : Prop :=
  ∀ env ring, e.arrives s = some (env, ring) → ∀ rec ∈ ringRecords env.block ring.len ring,
    OnlyHello s.ctx.cipherSuite rec.1 rec.2 ∧ (env.finishedErr ≠ .ok ∨ ¬ HelloMet s.ctx.cipherSuite rec.1 rec.2)

lemma finishHandshake_refused (pl : Platform) (s : Conn) (h : env.finishedErr ≠ .ok) :
    (s.finishHandshake pl env).2.alive = false ∧ (s.finishHandshake pl env).2.trail = s.trail := by
  unfold finishHandshake
  dsimp only
  split_ifs
  · exact ⟨rfl, rfl⟩
  unfold sendFinished
  split
  · exact ⟨rfl, rfl⟩
  · rw [if_pos h]
    exact ⟨rfl, rfl⟩

lemma lowerRecvProcess_cases (hdone : s.handshakeDone = false) (h : lowerRecvProcess pl env s = some r) :
    r = s.abort ∨ ∃ next, recordLoop env s.ring.len s = some next ∧
      ((∃ s', next = .abort s' ∧ r = s'.abort) ∨ ∃ s', (next = .stop s' ∨ next = .goOn s') ∧
        r = if s'.ctx.state = .serverHelloReceived then s'.finishHandshake pl env else s'.handleRxAppldata pl env.bufs) := by
  unfold lowerRecvProcess at h
  rw [if_pos hdone] at h
  by_cases hserver : s.isServer = true
  · rw [if_pos hserver] at h
    exact .inl (Option.some.inj h).symm
  · rw [if_neg hserver] at h
    obtain ⟨next, hloop, rfl⟩ := Option.map_eq_some_iff.1 h
    refine .inr ⟨next, hloop, ?_⟩
    cases next with
    | abort s' => exact .inl ⟨s', rfl, rfl⟩
    | stop s' => exact .inr ⟨s', .inl rfl, rfl⟩
    | goOn s' => exact .inr ⟨s', .inr rfl, rfl⟩

lemma lowerRecvProcess_inv {C : Mem × ℕ → Prop} (I Q : Conn → Prop)
    (hdone : s.handshakeDone = false) (hs : I s) (hall : ∀ rec ∈ ringRecords env.block s.ring.len s.ring, C rec)
    (hgo : ∀ s record totalLen scan, I s → C (record, totalLen) → firstRecord env.block s.ring = some (record, totalLen) →
      tlsProcessRecord env.fuel s.ctx record totalLen = some (true, scan) → I (s.afterRecord env record totalLen scan.ctx))
    (habort : ∀ s ctx, I s → Q (s.setCtx ctx).abort.2)
    (hfinish : ∀ s, I s → s.ctx.state = .serverHelloReceived → Q (s.finishHandshake pl env).2)
    (hdata : ∀ s, I s → s.ctx.state ≠ .serverHelloReceived → Q (s.handleRxAppldata pl env.bufs).2)
    (h : lowerRecvProcess pl env s = some r) : Q r.2 := by
  rcases lowerRecvProcess_cases hdone h with rfl | ⟨next, hloop, hnext⟩
  · exact habort s s.ctx hs
  rcases recordLoop_inv I hgo s.ring.len s next hs hall hloop with ⟨s', rfl, hs'⟩ | ⟨s', ctx, rfl, hs'⟩
  · rcases hnext with ⟨_, ⟨⟩, -⟩ | ⟨_, ⟨⟨⟩⟩ | ⟨⟨⟩⟩, rfl⟩
    split_ifs with hstate
    · exact hfinish s' hs' hstate
    · exact hdata s' hs' hstate
  · rcases hnext with ⟨_, ⟨⟩, rfl⟩ | ⟨_, ⟨⟨⟩⟩ | ⟨⟨⟩⟩, -⟩
    exact habort s' ctx hs'

structure Idle (s s' : Conn) : Prop where
  ctx : s'.ctx = s.ctx
  done : s'.handshakeDone = s.handshakeDone
  trail : ∃ ms, s'.trail = ms ++ s.trail ∧ ∀ m ∈ ms, m.counts = true

lemma Idle.refl (s : Conn) : Idle s s := ⟨rfl, rfl, [], rfl, by simp⟩

lemma act_idle (hdone : s.handshakeDone = false) (P : Prims) (a : Act) : Idle s (s.act P a) := by
  cases a with
  | recved len =>
    rw [act, recved, if_pos hdone]
    exact .refl s
  | throttle level =>
    unfold act setRxThrottle
    dsimp only
    split_ifs
    · exact ⟨rfl, rfl, [.credit s.rxThrottlePending], rfl, by simp [counts]⟩
    · exact ⟨rfl, rfl, [], rfl, by simp⟩
  | write dataptr len ciphertext err =>
    rw [act, write, if_pos hdone]
    exact .refl s

lemma reportSent_idle (s : Conn) (appLen : ℕ) : Idle s (s.reportSent appLen) := by
  unfold reportSent
  split_ifs
  · exact ⟨rfl, rfl, [.sent appLen], rfl, by simp [counts]⟩
  · exact .refl s

lemma lowerSent_idle (s : Conn) (len : ℕ) : Idle s (s.lowerSent len) := by
  have h := reportSent_idle { s with overheadBytesAdjust := usub s.overheadBytesAdjust len }
    (len - if s.overheadBytesAdjust > len then len else s.overheadBytesAdjust)
  exact ⟨h.ctx, h.done, h.trail⟩

lemma step_idle (hdone : s.handshakeDone = false) (he : e.arrives s = none) (h : step pl s e = some s') : Idle s s' := by
  obtain ⟨-, h⟩ := (Option.ite_none_left_eq_some ..).1 h
  cases e with
  | connected env clientHello helloErr => cases he
  | recv env p =>
    have hring : s.ring.tlsRingWritePbuf p = none := Option.map_eq_none_iff.1 he
    have hrecv : s.lowerRecv pl env p = some (s.mark (.segment p.flatten.length)).abort := by
      have hring' : (s.mark (.segment p.flatten.length)).ring.tlsRingWritePbuf p = none := hring
      unfold lowerRecv
      rw [if_pos (show (s.mark (.segment p.flatten.length)).handshakeDone = false from hdone), hring']
    dsimp only at h
    rw [hrecv] at h
    cases h
    exact ⟨rfl, rfl, [_], rfl, by simp [counts]⟩
  | closed env =>
    cases h
    rw [lowerRecvClosed, if_neg (by simp [hdone])]
    exact ⟨rfl, rfl, [], rfl, by simp⟩
  | poll env =>
    cases h
    rw [lowerPoll, handleRxAppldata, if_pos hdone]
    exact .refl s
  | sent len =>
    cases h
    exact lowerSent_idle s len
  | act a =>
    cases h
    exact act_idle hdone pl.prims a

/-- The connection before the loop over the records: nothing has happened to the handshake, or the ClientHello was sent. -/
structure Before (s m : Conn) : Prop where
  done : m.handshakeDone = s.handshakeDone
  suite : m.ctx.cipherSuite = s.ctx.cipherSuite
  handshake : Idle s m ∨ ∃ hello, m.ctx.state = .clientHelloSent ∧
    m.ctx.transcript = s.ctx.transcript.map (· ++ hello) ∧ m.trail = .clientHello hello :: s.trail

lemma writeHello_cases {r : HelloCall} {helloErr : Err} {hello : Bytes} {out : Err × Conn} (hhello : r.out.read 0 r.written = hello)
    (hctx : r.ok = true → r.ctx = { s.ctx with transcript := s.ctx.transcript.map (· ++ hello), state := .clientHelloSent })
    (h : s.writeHello pl env r helloErr = some out) :
    (out.2.alive = false ∧ out.2.trail = s.trail) ∨ ∃ m, Before s m ∧ m.ring = s.ring ∧ lowerRecvProcess pl env m = some out := by
  unfold writeHello at h
  by_cases hok : r.ok = false
  · rw [if_pos hok] at h
    rw [← Option.some.inj h]
    exact .inl ⟨rfl, rfl⟩
  by_cases herr : helloErr ≠ .ok
  · rw [if_neg hok, if_pos herr] at h
    rw [← Option.some.inj h]
    exact .inl ⟨rfl, rfl⟩
  rw [if_neg hok, if_neg herr, hhello] at h
  have hsent := hctx (by simpa using hok)
  refine .inr ⟨_, ?_, ?_, h⟩
  · refine ⟨rfl, ?_, .inr ⟨hello, rfl, ?_, rfl⟩⟩
    · exact (congrArg HsCtx.cipherSuite hsent :)
    · exact (congrArg HsCtx.transcript hsent :)
  · rfl

lemma step_arrives {ring : RxRing} (hdone : s.handshakeDone = false)
    (he : e.arrives s = some (env, ring)) (h : step pl s e = some s') :
    (s'.alive = false ∧ s'.trail = s.trail) ∨
      ∃ m err, Before s m ∧ m.ring = ring ∧ lowerRecvProcess pl env m = some (err, s') := by
  obtain ⟨-, h⟩ := (Option.ite_none_left_eq_some ..).1 h
  cases e with
  | connected env clientHello helloErr =>
    cases he
    obtain ⟨⟨err, _⟩, hcall, rfl⟩ := Option.map_eq_some_iff.1 h
    unfold lowerConnected at hcall
    by_cases hserver : s.isServer = false
    · rw [if_pos hserver] at hcall
      obtain hend | ⟨m, hm, hring, hm'⟩ := writeHello_cases rfl (tlsSendClientHello_ctx rfl) hcall
      · exact .inl hend
      · exact .inr ⟨m, err, ⟨hm.done, hm.suite, hm.handshake.imp_left fun hi => ⟨hi.ctx, hi.done, hi.trail⟩⟩, hring, hm'⟩
    · rw [if_neg hserver] at hcall
      refine .inr ⟨_, err, ?_, ?_, hcall⟩
      · exact ⟨rfl, rfl, .inl ⟨rfl, rfl, [], rfl, fun m hm => nomatch hm⟩⟩
      · rfl
  | recv env p =>
    obtain ⟨ring', hring, heq⟩ := Option.map_eq_some_iff.1 he
    cases heq
    obtain ⟨⟨err, _⟩, hcall, rfl⟩ := Option.map_eq_some_iff.1 h
    have hring' : (s.mark (.segment p.flatten.length)).ring.tlsRingWritePbuf p = some ring := hring
    unfold lowerRecv at hcall
    rw [if_pos (show (s.mark (.segment p.flatten.length)).handshakeDone = false from hdone), hring'] at hcall
    refine .inr ⟨_, err, ?_, ?_, hcall⟩
    · exact ⟨rfl, rfl, .inl ⟨rfl, rfl, [.segment p.flatten.length], rfl, by simp [counts]⟩⟩
    · rfl
  | closed _ | poll _ | sent _ | act _ => cases he

end Steps

/-! ### Runs -/

section Runs

variable {pl : Platform} {env : Env} {s s' : Conn} {e : Event} {record : Mem} {totalLen : ℕ} {scan : Scan}

def NotReported (s : Conn) : Prop := ∀ m ∈ s.trail, m.late = false

/-- The handshake has not got behind the ClientHello. -/
structure Pending (s : Conn) : Prop where
  notReported : NotReported s
  done : s.handshakeDone = false
  state : s.ctx.state ≠ .serverHelloReceived

lemma Idle.notReported (h : Idle s s') (hs : NotReported s) : NotReported s' := by
  obtain ⟨ms, htrail, hms⟩ := h.trail
  intro m hm
  rw [htrail, mem_append] at hm
  exact hm.elim (fun hm => counts_late (hms m hm)) (hs m)

lemma Idle.pending (h : Idle s s') (hs : Pending s) : Pending s' :=
  ⟨h.notReported hs.notReported, h.done.trans hs.done, h.ctx ▸ hs.state⟩

lemma Before.pending (h : Before s s') (hs : Pending s) : Pending s' := by
  obtain hidle | ⟨hello, hstate, -, htrail⟩ := h.handshake
  · exact hidle.pending hs
  · refine ⟨fun m hm => ?_, h.done.trans hs.done, by simp [hstate]⟩
    rw [htrail, mem_cons] at hm
    exact hm.elim (fun hm => hm ▸ rfl) (hs.notReported m)

lemma afterRecord_notReported {ctx : HsCtx} (hs : NotReported s) : NotReported (s.afterRecord env record totalLen ctx) := by
  intro m hm
  rw [afterRecord_eq] at hm
  simp only [cons_append, mem_cons, mem_append, mem_reverse, mem_map] at hm
  rcases hm with rfl | ⟨b, -, rfl⟩ | hm
  · rfl
  · rfl
  · exact hs m hm

/-- Where TCP refuses the Finished, a ServerHello may have been accepted. -/
structure PendingOr (suite : ℕ) (env : Env) (s : Conn) : Prop where
  notReported : NotReported s
  done : s.handshakeDone = false
  state : s.ctx.state = .serverHelloReceived ∧ env.finishedErr ≠ .ok ∨
    s.ctx.state ≠ .serverHelloReceived ∧ s.ctx.cipherSuite = suite

lemma PendingOr.afterRecord {suite : ℕ} (hs : PendingOr suite env s) (hrec : env.finishedErr ≠ .ok ∨ ¬ HelloMet suite record totalLen)
    (h : tlsProcessRecord env.fuel s.ctx record totalLen = some (true, scan)) :
    PendingOr suite env (s.afterRecord env record totalLen scan.ctx) ∧
      (scan.ctx = s.ctx ∨ scan.ctx.state = .serverHelloReceived) := by
  obtain ⟨-, hsame | ⟨hawaited, hstate, hmet⟩⟩ := tlsProcessRecord_true h
  · refine ⟨⟨afterRecord_notReported hs.notReported, ?_, ?_⟩, .inl hsame⟩
    · rw [afterRecord_eq]
      exact hs.done
    · rw [afterRecord_eq, hsame]
      exact hs.state
  · have hrefused : env.finishedErr ≠ .ok := by
      obtain ⟨hreceived, -⟩ | ⟨-, hsuite⟩ := hs.state
      · rw [hreceived] at hawaited
        cases hawaited
      · exact hrec.resolve_right fun hno => hno (hsuite ▸ hmet)
    refine ⟨⟨afterRecord_notReported hs.notReported, ?_, .inl ⟨?_, hrefused⟩⟩, .inr hstate⟩
    · rw [afterRecord_eq]
      exact hs.done
    · rw [afterRecord_eq]
      exact hstate

lemma alive_of_step (h : step pl s e = some s') : s.alive = true := by
  obtain ⟨halive, -⟩ := (Option.ite_none_left_eq_some ..).1 h
  simpa using halive

def Unreported (s : Conn) : Prop := NotReported s ∧ (s.alive = true → Pending s)

lemma Unreported.step (hs : Unreported s) (hquiet : Quiet s e) (h : s.step pl e = some s') : Unreported s' := by
  have hp := hs.2 (alive_of_step h)
  have hdead : ∀ t : Conn, t.alive = false → NotReported t → Unreported t :=
    fun t ht hr => ⟨hr, fun halive => absurd (ht.symm.trans halive) Bool.false_ne_true⟩
  cases he : e.arrives s with
  | none =>
    have hs' := (step_idle hp.done he h).pending hp
    exact ⟨hs'.notReported, fun _ => hs'⟩
  | some out =>
    obtain ⟨env, ring⟩ := out
    obtain ⟨hend, htrail⟩ | ⟨m, err, hm, hring, hrun⟩ := step_arrives hp.done he h
    · exact hdead s' hend (by rw [NotReported, htrail]; exact hp.notReported)
    have hm' := hm.pending hp
    have hrecords : ∀ rec ∈ ringRecords env.block m.ring.len m.ring,
        env.finishedErr ≠ .ok ∨ ¬ HelloMet s.ctx.cipherSuite rec.1 rec.2 := by
      intro rec hrec
      rw [hring] at hrec
      exact (hquiet env ring he).imp_right fun hno => hno rec hrec
    refine lowerRecvProcess_inv (PendingOr s.ctx.cipherSuite env) Unreported hm'.done
      ⟨hm'.notReported, hm'.done, .inr ⟨hm'.state, hm.suite⟩⟩ hrecords ?_ ?_ ?_ ?_ hrun
    · intro t record totalLen scan ht hrec _ hprocess
      exact (ht.afterRecord hrec hprocess).1
    · intro t ctx ht
      exact hdead _ rfl ht.notReported
    · intro t ht hstate
      obtain ⟨-, hrefused⟩ := ht.state.resolve_right fun hno => hno.1 hstate
      obtain ⟨hend, htrail⟩ := finishHandshake_refused pl t hrefused
      exact hdead _ hend (by rw [NotReported, htrail]; exact ht.notReported)
    · intro t ht hstate
      rw [handleRxAppldata, if_pos ht.done]
      exact ⟨ht.notReported, fun _ => ⟨ht.notReported, ht.done, hstate⟩⟩

/-! ### The transcript -/

def Hashed (s : Conn) : Prop := s.ctx.transcript = some (transcriptOf s.trail)

lemma Idle.hashed (h : Idle s s') (hs : Hashed s) : Hashed s' := by
  obtain ⟨ms, htrail, hms⟩ := h.trail
  rw [Hashed, h.ctx, htrail, transcriptOf_append_counts hms]
  exact hs

lemma Before.hashed (h : Before s s') (hs : Hashed s) : Hashed s' := by
  obtain hidle | ⟨hello, -, htranscript, htrail⟩ := h.handshake
  · exact hidle.hashed hs
  · rw [Hashed, htranscript, htrail, hs, transcriptOf_cons]
    rfl

lemma afterRecord_hashed (hs : Hashed s) (honly : OnlyHello s.ctx.cipherSuite record totalLen)
    (h : tlsProcessRecord env.fuel s.ctx record totalLen = some (true, scan)) (hctx : scan.ctx = s.ctx) :
    Hashed (s.afterRecord env record totalLen scan.ctx) := by
  rw [Hashed, afterRecord_eq, acceptedMessages_eq_nil h hctx honly, hctx]
  rw [map_nil, reverse_nil, cons_append, transcriptOf_cons]
  exact hs.trans (congrArg some (append_nil _).symm)

lemma step_hashed (hs : Pending s) (hh : Hashed s) (hbare : Bare s e) (h : s.step pl e = some s') : s'.alive = true → Hashed s' := by
  have hdead : ∀ t : Conn, t.alive = false → t.alive = true → Hashed t :=
    fun t ht halive => absurd (ht.symm.trans halive) Bool.false_ne_true
  cases he : e.arrives s with
  | none => exact fun _ => (step_idle hs.done he h).hashed hh
  | some out =>
    obtain ⟨env, ring⟩ := out
    obtain ⟨hend, -⟩ | ⟨m, err, hm, hring, hrun⟩ := step_arrives hs.done he h
    · exact hdead s' hend
    have hm' := hm.pending hs
    have hrecords : ∀ rec ∈ ringRecords env.block m.ring.len m.ring, OnlyHello s.ctx.cipherSuite rec.1 rec.2 ∧
        (env.finishedErr ≠ .ok ∨ ¬ HelloMet s.ctx.cipherSuite rec.1 rec.2) := by
      intro rec hrec
      rw [hring] at hrec
      exact hbare env ring he rec hrec
    -- behind a ServerHello the connection ends
    refine lowerRecvProcess_inv
      (fun t => PendingOr s.ctx.cipherSuite env t ∧ (t.ctx.state ≠ .serverHelloReceived → Hashed t))
      (fun t => t.alive = true → Hashed t) hm'.done
      ⟨⟨hm'.notReported, hm'.done, .inr ⟨hm'.state, hm.suite⟩⟩, fun _ => hm.hashed hh⟩ hrecords ?_ ?_ ?_ ?_ hrun
    · intro t record totalLen scan ⟨ht, hhashed⟩ hrec _ hprocess
      obtain ⟨hafter, hctx⟩ := ht.afterRecord hrec.2 hprocess
      refine ⟨hafter, fun hstate => ?_⟩
      rw [afterRecord_eq] at hstate
      have hsame : scan.ctx = t.ctx := hctx.resolve_right hstate
      rw [hsame] at hstate
      obtain ⟨-, hsuite⟩ := ht.state.resolve_left fun hno => hstate hno.1
      exact afterRecord_hashed (hhashed hstate) (hsuite ▸ hrec.1) hprocess hsame
    · intro t ctx _
      exact hdead _ rfl
    · intro t ht hstate
      obtain ⟨-, hrefused⟩ := ht.1.state.resolve_right fun hno => hno.1 hstate
      exact hdead _ (finishHandshake_refused pl t hrefused).1
    · intro t ht hstate _
      rw [handleRxAppldata, if_pos ht.1.done]
      exact ht.2 hstate

end Runs

/-! ### The results -/

section Results

variable (pl : Platform) (psk : Arr 32) (pskIdentity : PskIdentity) (clientRandom : Arr 32) (mem : Mem) (size : ℕ)
  (hsize : 0 < size) (level : Buffer.Level)

def client : Conn := setup false (tlsHandshakeInit psk pskIdentity clientRandom) mem size hsize level

def FinishedChecked (hash : Hash) (past : List Mark) : Prop :=
  ∃ (secret : Arr 32) (before after : List Mark),
    past = after ++ .verified secret (Hkdf.verifyData hash.bytes secret.val (transcriptOf before)) :: before

def Authenticated (hash : Hash) (s : Conn) : Prop :=
  Always (fun m past => m = .done ∨ m = .connected → FinishedChecked hash past) s.trail

/-- The transcript is the one of the messages sent and accepted, and the application secrets are derived from it without
the Finished of the client. -/
def TranscriptExact (s : Conn) : Prop :=
  (s.alive = true → s.ctx.transcript = some (transcriptOf s.trail)) ∧
    Always (fun m past => ∀ t, m = .secrets t → t = some (transcriptOf (past.filter fun m' => !m'.late))) s.trail

variable {pl psk pskIdentity clientRandom mem size hsize level} {s : Conn}

lemma unreported_client : Unreported (client psk pskIdentity clientRandom mem size hsize level) := by
  have hnone : NotReported (client psk pskIdentity clientRandom mem size hsize level) := fun m hm => nomatch hm
  exact ⟨hnone, fun _ => ⟨hnone, rfl, show HsState.init ≠ _ by decide⟩⟩

lemma Bare.quiet {s : Conn} {e : Event} (h : Bare s e) : Quiet s e := by
  intro env ring he
  by_cases hok : env.finishedErr = .ok
  · exact .inr fun rec hrec => (h env ring he rec hrec).2.resolve_left fun hno => hno hok
  · exact .inl hok

lemma NotReported.always {P : Mark → List Mark → Prop} (h : NotReported s)
    (hP : ∀ m past, m.late = false → P m past) : Always P s.trail := by
  have key : ∀ t : List Mark, (∀ m ∈ t, m.late = false) → Always P t := by
    intro t ht
    induction t with
    | nil => trivial
    | cons m t ih =>
      exact ⟨hP m t (ht m mem_cons_self), ih fun m' hm' => ht m' (mem_cons_of_mem _ hm')⟩
  exact key s.trail h

def realPlatform : Platform := ⟨aesPrims, sha256, 256⟩

def easy (finishedErr : Err) : Env := ⟨10, some fun _ => 0, finishedErr, .ok [], []⟩

def zeroConn : Conn := client (.zero 32) ⟨.zero 32, 8, 0⟩ (.zero 32) (fun _ => 0) 4096 (by decide) .none

def oneRecord (finishedErr : Err) (payload : Bytes) : List Event :=
  [.connected (easy finishedErr) (fun _ => 0) .ok,
    .recv (easy finishedErr) [[0x16, 0x03, 0x03] ++ be 2 payload.length, payload]]

/-- **Authentication.**  In the runs where no ServerHello is accepted, or TCP refuses the Finished of the client, no
connection is reported without a Finished of the server that was checked. -/
theorem authenticated_of_quiet {es : List Event} {s' : Conn}
    (hquiet : Along Quiet (step pl) (client psk pskIdentity clientRandom mem size hsize level) es)
    (h : run (step pl) (client psk pskIdentity clientRandom mem size hsize level) es = some s') :
    Authenticated pl.hash s' := by
  have hs' : Unreported s' :=
    run_inv_along Unreported (fun s e s' hs hq hstep => hs.step hq hstep) unreported_client hquiet h
  refine hs'.1.always ?_
  rintro m past hlate (rfl | rfl)
  · cases hlate
  · cases hlate

lemma oneRecord_quiet (payload : Bytes) (s : Conn) (e : Event) (he : e ∈ oneRecord .mem payload) : Quiet s e := by
  have hrefused : (easy .mem).finishedErr ≠ .ok := by decide
  intro env ring harrives
  rcases mem_pair.1 he with rfl | rfl
  · cases harrives
    exact .inl hrefused
  · obtain ⟨ring', -, heq⟩ := Option.map_eq_some_iff.1 harrives
    cases heq
    exact .inl hrefused

theorem authenticated_refused : ∃ s', run (step realPlatform) zeroConn
    (oneRecord .mem (HelloArgs.helloMessage [0x13, 0x01] HelloArgs.bothExtensions)) = some s' ∧ Authenticated sha256 s' := by
  have hsome : (run (step realPlatform) zeroConn
      (oneRecord .mem (helloMessage [0x13, 0x01] bothExtensions))).isSome = true := by decide +kernel
  obtain ⟨s', hs'⟩ := Option.isSome_iff_exists.1 hsome
  have hquiet : Along Quiet (step realPlatform) zeroConn
      (oneRecord .mem (helloMessage [0x13, 0x01] bothExtensions)) :=
    along_of_forall (oneRecord_quiet _) zeroConn
  refine ⟨s', hs', ?_⟩
  have hauth := authenticated_of_quiet hquiet hs'
  exact hauth

lemma not_authenticated {hash : Hash} (hdone : .done ∈ s.trail)
    (hnone : s.trail.all (fun m => m matches .verified _ _ |> not) = true) : ¬ Authenticated hash s := by
  intro h
  obtain ⟨past, hpast, hchecked⟩ := h.of_mem hdone
  obtain ⟨secret, before, after, rfl⟩ := hchecked (.inl rfl)
  have hverified := all_eq_true.1 hnone _ (hpast (mem_append_right _ mem_cons_self))
  cases hverified

/-- A ServerHello alone: the connection is reported. -/
theorem established_unverified : ∃ s', run (step realPlatform) zeroConn
    (oneRecord .ok (HelloArgs.helloMessage [0x13, 0x01] HelloArgs.bothExtensions)) = some s' ∧ ¬ Authenticated sha256 s' := by
  have h : (run (step realPlatform) zeroConn
      (oneRecord .ok (helloMessage [0x13, 0x01] bothExtensions))).any (fun s =>
        decide (done ∈ s.trail) && s.trail.all fun m => m matches .verified _ _ |> not) = true := by decide +kernel
  obtain ⟨s', hs', hp⟩ := (Option.any_eq_true _ _).1 h
  obtain ⟨hdone, hnone⟩ := (Bool.and_eq_true_iff ..).1 hp
  exact ⟨s', hs', not_authenticated (of_decide_eq_true hdone) hnone⟩

/-- **The transcript.**  In the runs where no message but a ServerHello is accepted, and none whose Finished TCP takes, the
transcript is exact. -/
theorem transcriptExact_of_bare {es : List Event} {s' : Conn}
    (hbare : Along Bare (step pl) (client psk pskIdentity clientRandom mem size hsize level) es)
    (h : run (step pl) (client psk pskIdentity clientRandom mem size hsize level) es = some s') : TranscriptExact s' := by
  have hs' : Unreported s' ∧ (s'.alive = true → Hashed s') := by
    refine run_inv_along (fun s => Unreported s ∧ (s.alive = true → Hashed s)) ?_ ⟨unreported_client, fun _ => rfl⟩ hbare h
    intro s e s' ⟨hs, hh⟩ hb hstep
    have halive := alive_of_step hstep
    exact ⟨hs.step hb.quiet hstep, step_hashed (hs.2 halive) (hh halive) hb hstep⟩
  refine ⟨hs'.2, hs'.1.1.always ?_⟩
  rintro m past hlate t rfl
  cases hlate

lemma Bare.of_short {e : Event} (h : ∀ env ring, e.arrives s = some (env, ring) → ring.len < 5) : Bare s e := by
  intro env ring he rec hrec
  have hnone : firstRecord env.block ring = none := if_pos (h env ring he)
  cases hlen : ring.len with
  | zero =>
    rw [hlen] at hrec
    cases hrec
  | succ n =>
    rw [hlen, ringRecords, hnone] at hrec
    cases hrec

/-- A ServerHello, and TCP refuses the Finished. -/
theorem transcriptExact_serverHello : ∃ s', run (step realPlatform) zeroConn
      (oneRecord .mem (HelloArgs.helloMessage [0x13, 0x01] HelloArgs.bothExtensions)) = some s' ∧
    .accepted (HelloArgs.helloMessage [0x13, 0x01] HelloArgs.bothExtensions) ∈ s'.trail ∧ TranscriptExact s' := by
  have haccepted : (run (step realPlatform) zeroConn (oneRecord .mem (helloMessage [0x13, 0x01] bothExtensions))).any
      (fun s => decide (.accepted (helloMessage [0x13, 0x01] bothExtensions) ∈ s.trail)) = true := by decide +kernel
  have hring : (step realPlatform zeroConn (.connected (easy .mem) (fun _ => 0) .ok)).all (fun s => s.ring.len == 0) = true := by
    decide +kernel
  obtain ⟨s', hs', hmem⟩ := (Option.any_eq_true _ _).1 haccepted
  have hbare : Along Bare (step realPlatform) zeroConn (oneRecord .mem (helloMessage [0x13, 0x01] bothExtensions)) := by
    refine ⟨.of_short fun env ring he => ?_, fun m hm => ⟨fun env ring he rec hrec => ?_, fun _ _ => trivial⟩⟩
    · cases he
      decide
    · rw [hm] at hring
      have hempty : m.ring.contents = [] := by
        rw [← length_eq_zero_iff]
        simpa using hring
      obtain ⟨ring', hwrite, heq⟩ := Option.map_eq_some_iff.1 he
      cases heq
      obtain ⟨-, hno⟩ | ⟨r, hr, hcontents, -, -⟩ := RxRing.tlsRingWritePbuf_cases
        [[0x16, 0x03, 0x03] ++ be 2 (helloMessage [0x13, 0x01] bothExtensions).length,
          helloMessage [0x13, 0x01] bothExtensions] m.ring
      · cases hno.symm.trans hwrite
      · cases hr.symm.trans hwrite
        rw [hempty, nil_append] at hcontents
        have hone : ring.len = announced ring.contents := by
          rw [← RxRing.length_contents, hcontents]
          decide +kernel
        -- the record is what the ring contains
        have hread := (ringRecords_single hrec hone).trans hcontents
        have hlen : rec.2 = 61 := by
          rw [← Mem.length_read rec.1 0 rec.2, hread]
          decide +kernel
        have hbyte : ∀ i < 61, rec.1 i = (([[0x16, 0x03, 0x03] ++ be 2 (helloMessage [0x13, 0x01] bothExtensions).length,
            helloMessage [0x13, 0x01] bothExtensions] : List Bytes).flatten)[i]?.getD 0 := by
          intro i hi
          rw [← hread, Mem.getElem?_read, if_pos (hlen ▸ hi), Option.getD_some, Nat.zero_add]
        refine ⟨.of_whole ?_ ?_, .inl (by decide)⟩
        · exact (hbyte 5 (by decide)).trans (by decide +kernel)
        · unfold msgEnd be24At be16At fromOffset
          rw [hbyte 3 (by decide), hbyte 4 (by decide), hbyte 6 (by decide), hbyte 7 (by decide), hbyte 8 (by decide)]
          decide +kernel
  refine ⟨s', hs', of_decide_eq_true hmem, ?_⟩
  exact transcriptExact_of_bare hbare hs'

def secretsLate (s : Conn) : Bool :=
  match s.trail with
  | _ :: _ :: .secrets t :: past => t ≠ some (transcriptOf (past.filter fun m => !m.late))
  | _ => false

/-- EncryptedExtensions are accepted and not hashed; and behind a ServerHello the application secrets are derived from a
transcript with the Finished of the client. -/
theorem transcript_differs : (∃ s', run (step realPlatform) zeroConn (oneRecord .ok [0x08, 0x00, 0x00, 0x02, 0x00, 0x00]) = some s' ∧
      ¬ TranscriptExact s') ∧
    ∃ s', run (step realPlatform) zeroConn
      (oneRecord .ok (HelloArgs.helloMessage [0x13, 0x01] HelloArgs.bothExtensions)) = some s' ∧ ¬ TranscriptExact s' := by
  constructor
  · have h : (run (step realPlatform) zeroConn (oneRecord .ok [0x08, 0x00, 0x00, 0x02, 0x00, 0x00])).any (fun s =>
        s.alive && decide (s.ctx.transcript ≠ some (transcriptOf s.trail))) = true := by decide +kernel
    obtain ⟨s', hs', hp⟩ := (Option.any_eq_true _ _).1 h
    obtain ⟨halive, hne⟩ := (Bool.and_eq_true_iff ..).1 hp
    exact ⟨s', hs', fun hexact => of_decide_eq_true hne (hexact.1 halive)⟩
  · have h : (run (step realPlatform) zeroConn
        (oneRecord .ok (helloMessage [0x13, 0x01] bothExtensions))).any secretsLate = true := by decide +kernel
    obtain ⟨s', hs', hp⟩ := (Option.any_eq_true _ _).1 h
    refine ⟨s', hs', fun hexact => ?_⟩
    unfold secretsLate at hp
    split at hp
    · next t past htrail =>
      obtain ⟨-, -, hsecrets, -⟩ := htrail ▸ hexact.2
      exact of_decide_eq_true hp (hsecrets t rfl)
    · cases hp

end Results

end Conn

end LwftpCe.Tls
