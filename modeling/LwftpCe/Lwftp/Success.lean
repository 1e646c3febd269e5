import LwftpCe.Lwftp.Log

/-!
# When an operation is reported as successful

`done_fn` gets `LWFTP_RESULT_OK` in three places: at the end of a transfer, of a command, and of the connection.  The
monitor `progress` follows the command that is in progress, the last reply to it, and whether the caller has called
`lwftp_close` on this connection.
-/

namespace LwftpCe.Lwftp

open Lib List

variable {K U : Type} {s s' : Session K U} {l o : List (Obs K)} {r : Result} {st st' : State} {v : Verb}

structure Progress where
  /-- the last command of an operation that has not ended, and the last reply since -/
  cmd : Option (Verb × Option ℕ) := none
  /-- the caller has called `lwftp_close` since the connection was established -/
  closing : Bool := false

def Progress.see : Obs K → Progress → Progress
  | .send v _, g => { g with cmd := some (v, none) }
  | .reply code _, g => { g with cmd := g.cmd.map fun p => (p.1, some code) }
  | .done _ r, g => if r.ends then { g with cmd := none } else g
  | .api .close _, g => { g with closing := true }
  | .connected, g => { g with closing := false }
  | _, g => g

def progress (t : List (Obs K)) : Progress := t.foldr Progress.see {}

def Progress.completed (g : Progress) : Bool :=
  match g.cmd with
  | some (v, some code) => v.completion = some code && (v ≠ .quit || g.closing)
  | _ => false

def okJustified : Obs K → Progress → Bool
  | .done _ .ok, g => g.completed
  | _, _ => true

def quitAsked : Obs K → Progress → Bool
  | .reply 221 .quitSent, g => g.closing
  | _, _ => true

def State.awaits : State → Verb → Bool
  | .retrSent, .retr | .storSent, .stor | .mlsdSent, .mlsd => true
  | .xfering, v => v.completion = some 226
  | .quitSent, .quit => true
  | st, v => st.cmd = some v

def State.waits : State → Bool
  | .closed | .connected | .userSent | .passSent | .logged | .typeSent | .pasvSent => false
  | _ => true

lemma see_quiet (o : Obs K) (g : Progress) (h : o.quiet = true) : Progress.see o g = g := by
  cases o with
  | api a st => cases a <;> simp_all [Obs.quiet, Progress.see]
  | done k r => simp_all [Obs.quiet, Progress.see]
  | sink | write | sendNextData | dataOpen | dataConnect | close => rfl
  | connected | reply | send | dataFin | dataErr => cases h

/-! ### The invariant -/

def Justified (l : List (Obs K)) : Prop :=
  Always (fun o t => quitAsked o (progress t)) l → Always (fun o t => okJustified o (progress t)) l

lemma Justified.cons (h : Justified l) {o : Obs K} (ho : ∀ k r, o ≠ .done k r) : Justified (o :: l) := by
  rintro ⟨-, hq⟩
  refine ⟨?_, h hq⟩
  cases o with
  | done k r => exact absurd rfl (ho k r)
  | _ => rfl

lemma Justified.dones (h : Justified l)
    (hr : r = .ok → Always (fun o t => quitAsked o (progress t)) l → (progress l).completed) (s : Session K U) :
    Justified (s.dones r ++ l) := by
  unfold Session.dones
  cases s.user.doneFn with
  | none => exact h
  | some k =>
    rintro ⟨-, hq⟩
    refine ⟨?_, h hq⟩
    cases r with
    | ok => exact hr rfl hq
    | _ => rfl

/-- The invariant: `OK` has been justified, and in a state that waits, the command it waits for is in progress. -/
structure Success (s : Session K U) : Prop where
  ok : Justified s.log
  awaits : s.fault = false → s.controlState.waits →
    ∃ v code, (progress s.log).cmd = some (v, code) ∧ s.controlState.awaits v

lemma Justified.prompted (h : Justified l) (hp : Prompt st o v st') : Justified (o ++ l) := by
  cases hp with
  | start | command => exact h
  | _ => exact h.cons (by simp)

lemma Justified.ended (h : Justified l) (he : Ending st o r st') : Justified (o ++ l) := by
  cases he with
  | hangup => exact h
  | _ => exact h.cons (by simp)

lemma awaits_cmd (hst : st.cmd = some v) : st.waits ∧ ∀ v', st.awaits v' → v' = v := by
  cases st <;> simp_all [State.cmd, State.waits, State.awaits]

lemma Prompt.awaits (h : Prompt st o v st') : st'.waits → st'.awaits v := by
  cases h with
  | advance h | opens h | command h => cases h <;> decide
  | _ => decide

lemma Ending.not_waits (h : Ending st o r st') : ¬ st'.waits := by
  cases h <;> decide

lemma progress_reply (l : List (Obs K)) (code : ℕ) (st : State) {code0 : Option ℕ}
    (h : (progress l).cmd = some (v, code0)) : (progress (.reply code st :: l)).cmd = some (v, some code) := by
  simp only [progress, foldr_cons, Progress.see]
  exact congrArg _ h

lemma Success.completed (h : Success s) (hf : s.fault = false) (hw : s.controlState.waits) {code : ℕ}
    (hv : ∀ v, s.controlState.awaits v → v.completion = some code ∧ (v = .quit → (progress s.log).closing)) :
    (progress (.reply code s.controlState :: s.log)).completed := by
  obtain ⟨v, code0, hcmd, ha⟩ := h.awaits hf hw
  obtain ⟨hcomp, hquit⟩ := hv v ha
  have hcmd' := progress_reply s.log code s.controlState hcmd
  have hclosing : (progress (.reply code s.controlState :: s.log)).closing = (progress s.log).closing := rfl
  simp only [Progress.completed, hcmd', hcomp, hclosing]
  by_cases hv' : v = .quit
  · simp [hquit hv']
  · simp [hv']

lemma Success.ended (h : Success s) (hf : s.fault = false)
    (he : Ending s.controlState o .ok st) (hq : Always (fun o t => quitAsked o (progress t)) (o ++ s.log)) :
    (progress (o ++ s.log)).completed := by
  generalize hst : s.controlState = st0 at he
  generalize hr : Result.ok = r at he
  cases he with
  | login | dataErr => cases hr
  | hangup hr' => simp [← hr] at hr'
  | data hfin =>
    cases hfin with
    | done =>
      refine h.completed hf (by rw [hst]; rfl) fun v hv => ?_
      rw [hst] at hv
      revert hv
      cases v <;> simp [State.awaits, Verb.completion]
    | retr _ hr' => simp [← hr] at hr'
    | stor | mlsd | fail => cases hr
  | cmd hcmd hc =>
    rw [← hst] at hcmd ⊢
    refine h.completed hf (awaits_cmd hcmd).1 fun v' hv => ?_
    obtain rfl := (awaits_cmd hcmd).2 v' hv
    refine ⟨hc hr.symm, ?_⟩
    rintro rfl
    revert hcmd
    cases s.controlState <;> simp [State.cmd]
  | closes code =>
    have h221 : code = 221 := by
      by_contra hne
      simp [hne] at hr
    subst h221
    have hclosing : (progress s.log).closing = true := hq.1
    refine h.completed hf (by rw [hst]; rfl) fun v hv => ?_
    rw [hst] at hv
    have hv : v = .quit := by
      revert hv
      cases v <;> decide
    exact ⟨by rw [hv]; rfl, fun _ => hclosing⟩

lemma awaits_transfer (hst : st = .retrSent ∨ st = .storSent ∨ st = .mlsdSent) : st.awaits v → State.xfering.awaits v := by
  rcases hst with rfl | rfl | rfl <;> cases v <;> decide

lemma Deed.success (hf : s.fault = false) (d : Deed s s') (h : Success s) : Success s' := by
  -- a move that stays in its state, with an observation that the command in progress does not depend on
  have notes : ∀ o : Obs K, s'.log = o :: s.log → (∀ k r, o ≠ .done k r) →
      (∀ g : Progress, (Progress.see o g).cmd = g.cmd) → s'.controlState = s.controlState → Success s' := by
    intro o hl ho hg hst
    refine ⟨hl ▸ h.ok.cons ho, fun _ hw => ?_⟩
    rw [hst] at hw ⊢
    obtain ⟨v, code, hcmd, hv⟩ := h.awaits hf hw
    refine ⟨v, code, ?_, hv⟩
    rw [hl]
    exact (hg (progress s.log)).trans hcmd
  cases d with
  | still hl hst =>
    refine ⟨hl ▸ h.ok, fun _ hw => ?_⟩
    rw [hst] at hw ⊢
    rw [hl]
    exact h.awaits hf hw
  | faults hf' hl =>
    refine ⟨?_, fun hf => absurd (hf'.symm.trans hf) (by simp)⟩
    rcases hl with hl | ⟨o, v, st, hp, hl⟩
    · exact hl ▸ h.ok
    · exact hl ▸ h.ok.prompted hp
  | connected hl hst => exact ⟨hl ▸ h.ok.cons (by simp), fun _ hw => by rw [hst] at hw; cases hw⟩
  | noQuit hl hst => exact notes _ hl (by simp) (fun _ => rfl) hst
  | gone o ho hl hst => rcases ho with rfl | rfl <;> exact notes _ hl (by simp) (fun _ => rfl) hst
  | ignored code hi hl hst =>
    refine ⟨hl ▸ h.ok.cons (by simp), fun _ hw => ?_⟩
    rw [hst] at hw
    rcases hi with hi | hi <;> rw [hi] at hw <;> cases hw
  | sends o v msgs hp hl =>
    refine ⟨hl ▸ (h.ok.prompted hp).cons (by simp), fun _ hw => ⟨v, none, ?_, hp.awaits hw⟩⟩
    rw [hl]
    rfl
  | begins use hst hl hx hu =>
    have hok : Justified (.reply 150 s.controlState :: s.log) := h.ok.cons (by simp)
    obtain ⟨v, code, hcmd, hv⟩ := h.awaits hf (by rcases hst with hst | hst | hst <;> rw [hst] <;> rfl)
    have hcmd' := progress_reply s.log 150 s.controlState hcmd
    rcases hu with ⟨rfl, -⟩ | ⟨rfl, -⟩
    · exact ⟨hl ▸ hok, fun _ _ => ⟨v, some 150, hl ▸ hcmd', hx ▸ awaits_transfer hst hv⟩⟩
    · exact ⟨hl ▸ hok.cons (by simp),
        fun _ _ => ⟨v, some 150, hl ▸ hcmd', hx ▸ awaits_transfer hst hv⟩⟩
  | ends o r he hl =>
    refine ⟨?_, fun _ hw => absurd hw he.not_waits⟩
    rw [hl]
    refine (h.ok.ended he).dones (fun hr hq => ?_) s
    subst hr
    exact h.ended hf he hq

/-! ### Runs -/

/-- **Success is reported only for completed commands.**  If 221 answers QUIT only on a connection on which the caller has called
`lwftp_close`, then every `LWFTP_RESULT_OK` that `done_fn` gets follows the completion of the command in progress: 226 of a
transfer, 250 or 257 of a command, or 221 after `lwftp_close`. -/
theorem ok_completed {c : Caller K U} (hc : Lawful c) (user : User K) (usr : U) (es : List (Event K U))
    (s : Session K U) (hs : run (step c) (initial user usr) es = some s)
    (hq : Always (fun o t => quitAsked o (progress t)) s.trace) :
    Always (fun o t => okJustified o (progress t)) s.trace := by
  have h0 : Success (initial user usr : Session K U) := ⟨fun _ => trivial, fun _ hw => by cases hw⟩
  have h := (run_moves_inv Success (fun _ _ hw hf m h => (m.deed hw).success hf h) hc h0 hs).2
  have hok : ∀ (o : Obs K) g, o.quiet = true → okJustified o g = true := by
    intro o g ho
    cases o with
    | done k r => cases r <;> first | rfl | cases ho
    | _ => rfl
  have hqa : ∀ (o : Obs K) g, o.quiet = true → quitAsked o g = true := by
    intro o g ho
    cases o with
    | reply => cases ho
    | _ => rfl
  exact (always_log see_quiet hok {} s).1 (h.ok ((always_log see_quiet hqa {} s).2 hq))

theorem ok_completed_delete :
    ∃ s, run (step (idleCaller [])) (initial idleUser ()) (loginRun ++ [.api .delete, line ⟨0, 536⟩ "250 gone\r\n"]) =
        some s ∧ (∃ t, s.trace = .done () .ok :: t) ∧ Always (fun o t => okJustified o (progress t)) s.trace :=
  ⟨_, rfl, ⟨_, rfl⟩, ok_completed (idleCaller_lawful []) idleUser ()
    (loginRun ++ [.api .delete, line ⟨0, 536⟩ "250 gone\r\n"]) _ rfl (by decide)⟩

def refusedLogin : List (Event Unit Unit) :=
  [.api (.connect (some 536) true), .tcp (.controlConnected ⟨0, 536⟩ true), line ⟨0, 536⟩ "220 ready\r\n",
    line ⟨0, 536⟩ "331 password?\r\n", line ⟨0, 536⟩ "530 no\r\n", line ⟨0, 536⟩ "221 bye\r\n"]

/-- A refused password ends in `LWFTP_RESULT_OK`. -/
theorem ok_after_refused_login : ∃ s, run (step (idleCaller [])) (initial idleUser ()) refusedLogin = some s ∧
      ¬ Always (fun o t => okJustified o (progress t)) s.trace :=
  ⟨_, rfl, by decide⟩

end LwftpCe.Lwftp
