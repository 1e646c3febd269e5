import LwftpCe.Lwftp.Log

/-!
# Replies and the commands they answer

A server answers the connection with a greeting and each command with one final reply; a transfer may get the preliminary
reply 150 before.  The monitor `owed` is the queue of what the server has still to answer.  A reply that the session
consumes while it waits should answer the command it sent last, so there should be nothing else in the queue.
-/

namespace LwftpCe.Lwftp

open Lib State

variable {K U : Type} {s s' : Session K U} {l o : List (Obs K)} {st : State} {v : Verb}
  {d : Due} {code : ℕ} {r : Result} {st' : State}

/-! ### The server -/

/-- An answer that is owed: to a command (`none`: the greeting), with the preliminary reply given or not. -/
structure Due where
  cmd : Option Verb
  begun : Bool := false
  deriving DecidableEq

def Verb.transfer : Verb → Bool
  | .stor | .retr | .mlsd => true
  | _ => false

def Due.preliminary (d : Due) : Bool := !d.begun && d.cmd.any Verb.transfer

def Due.answer (d : Due) (code : ℕ) : List Due := if code = 150 ∧ d.preliminary then [⟨d.cmd, true⟩] else []

def owedStep : Obs K → List Due → List Due
  | .connected, _ => [⟨none, false⟩]
  | .send v _, g => g ++ [⟨some v, false⟩]
  | .reply code _, d :: g => d.answer code ++ g
  | _, g => g

def owed (t : List (Obs K)) : List Due := t.foldr owedStep []

def conforms : Obs K → List Due → Bool
  | .reply _ _, [] => false
  | .reply code _, d :: _ => 200 ≤ code || (code = 150 && d.preliminary)
  | _, _ => true

/-! ### The caller -/

def Verb.starts : Verb → Bool
  | .type | .dele | .rmd | .cwd | .pwd | .rnfr => true
  | _ => false

def orderly : Obs K → List Due → Bool
  | .send v _, g => !v.starts || g = []
  | .api .close st, g => st = .closed || (st = .logged && g = [])
  | _, _ => true

/-! ### The session -/

def State.expects : State → Bool
  | .closed | .connected | .logged | .dataend | .quit | .closing | .cmdend => false
  | _ => true

/-- A reply in such a state answers the last command, and there is no other one that waits for an answer. -/
def matched : Obs K → List Due → Bool
  | .reply _ st, g => !st.expects || (match g with | [⟨some _, _⟩] => true | _ => false)
  | _, _ => true

def State.due : State → Due → Bool
  | .connected, d => d = ⟨none, false⟩
  | .userSent, d => d = ⟨some .user, false⟩
  | .passSent, d => d = ⟨some .pass, false⟩
  | .typeSent, d => d = ⟨some .type, false⟩
  | .pasvSent, d => d = ⟨some .pasv, false⟩
  | .retrSent, d => d = ⟨some .retr, false⟩
  | .storSent, d => d = ⟨some .stor, false⟩
  | .mlsdSent, d => d = ⟨some .mlsd, false⟩
  | .xfering, d => d.begun && d.cmd.any Verb.transfer
  | .quitSent, d => d = ⟨some .quit, false⟩
  | st, d => st.cmd.isSome && d = ⟨st.cmd, false⟩

lemma owedStep_quiet (o : Obs K) (g : List Due) (h : o.quiet = true) : owedStep o g = g := by
  cases o with
  | connected | reply | send => cases h
  | _ => rfl

lemma conforms_quiet (o : Obs K) (g : List Due) (h : o.quiet = true) : conforms o g = true := by
  cases o with
  | reply => cases h
  | _ => rfl

lemma orderly_quiet (o : Obs K) (g : List Due) (h : o.quiet = true) : orderly o g = true := by
  cases o with
  | api a st => cases a <;> first | rfl | cases h
  | send => cases h
  | _ => rfl

lemma matched_quiet (o : Obs K) (g : List Due) (h : o.quiet = true) : matched o g = true := by
  cases o with
  | reply => cases h
  | _ => rfl

/-! ### The invariant -/

def Fair (l : List (Obs K)) : Prop :=
  Always (fun o t => conforms o (owed t)) l ∧ Always (fun o t => orderly o (owed t)) l

lemma Fair.tail {o : Obs K} (h : Fair (o :: l)) : Fair l := ⟨h.1.2, h.2.2⟩

def Matched (l : List (Obs K)) : Prop := Fair l → Always (fun o t => matched o (owed t)) l

/-- In a state that waits, its own command is what is owed, and nothing else. -/
structure Match (s : Session K U) : Prop where
  ok : Matched s.log
  due : Fair s.log → s.fault = false → s.controlState ≠ .closed → s.controlState ≠ .logged →
    ∃ d, owed s.log = [d] ∧ s.controlState.due d

lemma Matched.cons (h : Matched l) {o : Obs K} (ho : ∀ code st, o ≠ .reply code st) : Matched (o :: l) := by
  intro hf
  refine ⟨?_, h hf.tail⟩
  cases o with
  | reply code st => exact absurd rfl (ho code st)
  | _ => rfl

lemma Matched.dones (h : Matched l) (s : Session K U) (r : Result) : Matched (s.dones r ++ l) := by
  unfold Session.dones
  cases s.user.doneFn with
  | none => exact h
  | some k => exact h.cons (by simp)

lemma due_cmd (hst : st.expects) (h : st.due d) : ∃ v b, d = ⟨some v, b⟩ := by
  obtain ⟨cmd, b⟩ := d
  cases cmd with
  | some v => exact ⟨v, b, rfl⟩
  | none => cases st <;> simp_all [due, expects, cmd]

lemma Match.answered (h : Match s) (hf : s.fault = false) (h1 : s.controlState ≠ .closed)
    (h2 : s.controlState ≠ .logged) (hfair : Fair (.reply code s.controlState :: s.log)) :
    ∃ d, s.controlState.due d ∧ owed s.log = [d] ∧
      (200 ≤ code ∧ owed (.reply code s.controlState :: s.log) = [] ∨
        code = 150 ∧ d.preliminary ∧ owed (.reply code s.controlState :: s.log) = [⟨d.cmd, true⟩]) := by
  obtain ⟨d, hd, hdue⟩ := h.due hfair.tail hf h1 h2
  have howed : owed (.reply code s.controlState :: s.log) = owedStep (.reply code s.controlState : Obs K) (owed s.log) := rfl
  have hc : conforms (.reply code s.controlState : Obs K) (owed s.log) = true := hfair.1.1
  rw [hd] at hc howed
  refine ⟨d, hdue, hd, ?_⟩
  simp only [conforms, Bool.or_eq_true, decide_eq_true_eq, Bool.and_eq_true] at hc
  rcases hc with hc | ⟨rfl, hp⟩
  · refine .inl ⟨hc, ?_⟩
    rw [howed]
    simp [owedStep, Due.answer, show code ≠ 150 by omega]
  · rw [howed]
    simp [owedStep, Due.answer, hp]

lemma Match.reply (h : Match s) (hf : s.fault = false) (code : ℕ) : Matched (.reply code s.controlState :: s.log) := by
  intro hfair
  refine ⟨?_, h.ok hfair.tail⟩
  by_cases he : s.controlState.expects
  · have h1 : s.controlState ≠ .closed := fun h' => by rw [h'] at he; cases he
    have h2 : s.controlState ≠ .logged := fun h' => by rw [h'] at he; cases he
    obtain ⟨d, hdue, hd, -⟩ := h.answered hf h1 h2 hfair
    obtain ⟨v, b, rfl⟩ := due_cmd he hdue
    simp [matched, hd]
  · simp [matched, he]

lemma Match.prompted (h : Match s) (hf : s.fault = false) (hp : Prompt s.controlState o v st) : Matched (o ++ s.log) := by
  generalize hst : s.controlState = st0 at hp
  cases hp with
  | start | command => exact h.ok
  | quit => exact h.ok.cons (by simp)
  | _ => exact hst ▸ h.reply hf _

lemma Match.ended (h : Match s) (hf : s.fault = false) (he : Ending s.controlState o r st) : Matched (o ++ s.log) := by
  generalize hst : s.controlState = st0 at he
  cases he with
  | hangup => exact h.ok
  | dataErr => exact h.ok.cons (by simp)
  | _ => exact hst ▸ h.reply hf _

lemma login_final (hst : st.login) (h : st.due d) : d.preliminary = false := by
  cases st <;> simp_all [login, due, Due.preliminary, Verb.transfer]

lemma Match.final (h : Match s) (hf : s.fault = false) (h1 : s.controlState ≠ .closed)
    (h2 : s.controlState ≠ .logged) (hc : code ≠ 150 ∨ s.controlState.login)
    (hfair : Fair (.reply code s.controlState :: s.log)) : owed (.reply code s.controlState :: s.log) = [] := by
  obtain ⟨d, hdue, -, ⟨-, ho⟩ | ⟨hcode, hp, -⟩⟩ := h.answered hf h1 h2 hfair
  · exact ho
  · rcases hc with hc | hl
    · exact absurd hcode hc
    · rw [login_final hl hdue] at hp
      cases hp

lemma Match.prompts (h : Match s) (hf : s.fault = false)
    (hp : Prompt s.controlState o v st) {msgs : List Piece} (hfair : Fair (.send v msgs :: (o ++ s.log))) :
    owed (o ++ s.log) = [] := by
  generalize hst : s.controlState = st0 at hp
  have hsend : orderly (.send v msgs : Obs K) (owed (o ++ s.log)) = true := hfair.2.1
  cases hp with
  | advance ha =>
    cases ha <;> exact hst ▸ h.final hf (by simp [hst]) (by simp [hst]) (.inl (by simp)) (hst ▸ hfair.tail)
  | opens => exact hst ▸ h.final hf (by simp [hst]) (by simp [hst]) (.inl (by simp)) (hst ▸ hfair.tail)
  | refuse hl =>
    subst hst
    exact h.final hf (fun h' => by rw [h'] at hl; cases hl) (fun h' => by rw [h'] at hl; cases hl) (.inr hl) hfair.tail
  | start => simpa [orderly, Verb.starts] using hsend
  | command hc => cases hc <;> simpa [orderly, Verb.starts] using hsend
  | quit hne =>
    have := hfair.2.2.1
    simp only [orderly, hne, decide_false, Bool.false_or, Bool.and_eq_true, decide_eq_true_eq] at this
    exact this.2

lemma Prompt.due (h : Prompt st o v st') : st'.due ⟨some v, false⟩ := by
  cases h with
  | advance h | opens h | command h => cases h <;> decide
  | _ => decide

lemma Ending.idle (h : Ending st o r st') : st' = .closed ∨ st' = .logged := by
  cases h <;> simp

lemma Deed.matching (hf : s.fault = false) (d : Deed s s') (h : Match s) : Match s' := by
  -- a move that notes something else than a command or a reply, and stays in its state
  have notes : ∀ o : Obs K, s'.log = o :: s.log → (∀ code st, o ≠ .reply code st) → (∀ g, owedStep o g = g) →
      s'.controlState = s.controlState → Match s' := by
    intro o hl ho hg hst
    refine ⟨hl ▸ h.ok.cons ho, fun hfair _ h1 h2 => ?_⟩
    have ho' : owed s'.log = owed s.log := by
      rw [hl]
      exact hg (owed s.log)
    rw [hl] at hfair
    rw [hst] at h1 h2
    rw [ho', hst]
    exact h.due hfair.tail hf h1 h2
  cases d with
  | still hl hst =>
    refine ⟨hl ▸ h.ok, fun hfair _ h1 h2 => ?_⟩
    rw [hl] at hfair ⊢
    rw [hst] at h1 h2 ⊢
    exact h.due hfair hf h1 h2
  | faults hf' hl =>
    refine ⟨?_, fun _ hf => absurd (hf'.symm.trans hf) (by simp)⟩
    rcases hl with hl | ⟨o, v, st, hp, hl⟩
    · exact hl ▸ h.ok
    · exact hl ▸ h.prompted hf hp
  | connected hl hst =>
    refine ⟨hl ▸ h.ok.cons (by simp), fun _ _ _ _ => ⟨⟨none, false⟩, ?_, by rw [hst]; rfl⟩⟩
    rw [hl]
    rfl
  | noQuit hl hst => exact notes _ hl (by simp) (fun _ => rfl) hst
  | gone o ho hl hst => rcases ho with rfl | rfl <;> exact notes _ hl (by simp) (fun _ => rfl) hst
  | ignored code hi hl hst =>
    refine ⟨hl ▸ h.reply hf code, fun _ _ h1 h2 => ?_⟩
    rw [hst] at h1 h2
    exact (hi.elim h2 h1).elim
  | sends o v msgs hp hl =>
    refine ⟨hl ▸ (h.prompted hf hp).cons (by simp), fun hfair _ _ _ => ⟨⟨some v, false⟩, ?_, hp.due⟩⟩
    rw [hl] at hfair ⊢
    show owed (o ++ s.log) ++ [_] = _
    rw [h.prompts hf hp hfair]
    rfl
  | begins use hst hl hx hu =>
    have h1 : s.controlState ≠ .closed := by rcases hst with h' | h' | h' <;> simp [h']
    have h2 : s.controlState ≠ .logged := by rcases hst with h' | h' | h' <;> simp [h']
    have hdue : Fair (.reply 150 s.controlState :: s.log) →
        ∃ d, owed (.reply 150 s.controlState :: s.log) = [d] ∧ s'.controlState.due d := by
      intro hfair
      obtain ⟨d, hdue, -, ⟨hcode, -⟩ | ⟨-, -, ho⟩⟩ := h.answered hf h1 h2 hfair
      · omega
      · rcases hst with h' | h' | h' <;> rw [h'] at hdue <;> simp_all [due, Verb.transfer]
    rcases hu with ⟨rfl, -⟩ | ⟨rfl, -⟩
    · refine ⟨hl ▸ h.reply hf 150, fun hfair _ _ _ => ?_⟩
      rw [hl] at hfair ⊢
      exact hdue hfair
    · refine ⟨hl ▸ (h.reply hf 150).cons (by simp), fun hfair _ _ _ => ?_⟩
      rw [hl] at hfair ⊢
      exact hdue (Fair.tail hfair)
  | ends o r he hl =>
    refine ⟨hl ▸ (h.ended hf he).dones s r, fun _ _ h1 h2 => ?_⟩
    exact (he.idle.elim h1 h2).elim

/-! ### Runs -/

/-- **Replies stay matched to commands.**  In every run with a server that answers each command in order by one final reply, a
transfer perhaps with 150 before it, and a caller that starts no operation and does not close while a reply is outstanding,
every reply that is consumed in a state `*_SENT` or `XFERING` answers the command that was sent last. -/
theorem replies_matched {c : Caller K U} (hc : Lawful c) (user : User K) (usr : U) (es : List (Event K U))
    (s : Session K U) (hs : run (step c) (initial user usr) es = some s)
    (hserver : Always (fun o t => conforms o (owed t)) s.trace)
    (hcaller : Always (fun o t => orderly o (owed t)) s.trace) :
    Always (fun o t => matched o (owed t)) s.trace := by
  have h0 : Match (initial user usr : Session K U) := ⟨fun _ => trivial, fun _ _ h1 => absurd rfl h1⟩
  have h := (run_moves_inv Match (fun _ _ hw hf m h => (m.deed hw).matching hf h) hc h0 hs).2
  refine (always_log owedStep_quiet matched_quiet [] s).1 (h.ok ⟨?_, ?_⟩)
  · exact (always_log owedStep_quiet conforms_quiet [] s).2 hserver
  · exact (always_log owedStep_quiet orderly_quiet [] s).2 hcaller

def downloadAndClose : List (Event Unit Unit) :=
  openRun (.retrieve (some 536)) ++ [.tcp (.dataConnected ⟨1, 536⟩ true), line ⟨0, 536⟩ "150 here it comes\r\n",
    .tcp (.dataRecv ⟨1, 536⟩ [⟨ascii "abc", []⟩]), .tcp (.dataRecv ⟨1, 536⟩ []), line ⟨0, 536⟩ "226 done\r\n",
    .api .close, line ⟨0, 536⟩ "221 bye\r\n"]

theorem replies_matched_download :
    ∃ s, run (step (idleCaller [])) (initial idleUser ()) downloadAndClose = some s ∧ s.controlState = .closed ∧
      Always (fun o t => matched o (owed t)) s.trace :=
  ⟨_, rfl, rfl, replies_matched (idleCaller_lawful []) idleUser () downloadAndClose _ rfl (by decide) (by decide)⟩

def listAfterReset : List (Event Unit Unit) :=
  openRun (.retrieve (some 536)) ++ [.tcp (.dataConnected ⟨1, 536⟩ true), line ⟨0, 536⟩ "150 here it comes\r\n",
    .tcp (.dataErr ⟨1, 536⟩), .api (.mlsd (some 536)), line ⟨0, 536⟩ "426 aborted\r\n"]

/-- The final reply of the download is consumed as the answer to the TYPE of the listing. -/
theorem reply_of_earlier_command : ∃ s, run (step (idleCaller [])) (initial idleUser ()) listAfterReset = some s ∧
      Always (fun o t => conforms o (owed t)) s.trace ∧ ¬ Always (fun o t => matched o (owed t)) s.trace :=
  ⟨_, rfl, by decide, by decide⟩

end LwftpCe.Lwftp
