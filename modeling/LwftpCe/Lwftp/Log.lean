import LwftpCe.Lwftp.Refine

/-!
# The log of a session: the trace as the protocol sees it

`s.log` is the trace of `s` without its quiet observations: the commands, the replies, the ends of the operations, the
calls of `lwftp_close` and the losses of the data connection are left.  The lemmas say what each piece of a move adds to
the log, and `Deed` what a move as a whole comes to.  What holds along the trace of a monitor, a fold over it, that does
nothing at the quiet observations, holds along the log (`always_log`).
-/

namespace LwftpCe.Lwftp

open Lib Session

variable {K U : Type} {s : Session K U} {m s' : Session K U} {o : List (Obs K)}

namespace Session

variable {o : Obs K} {r : Result}

def log (s : Session K U) : List (Obs K) := s.trace.filter fun o => !o.quiet

lemma log_note_quiet (h : o.quiet = true) (s : Session K U) : (s.note o).log = s.log := by
  simp [log, note, h]

lemma log_note_loud (h : o.quiet = false) (s : Session K U) : (s.note o).log = o :: s.log := by
  simp [log, note, h]

def dones (s : Session K U) (r : Result) : List (Obs K) :=
  match s.user.doneFn with
  | none => []
  | some k => [.done k r]

lemma log_noteDone (h : r.ends = true) (s : Session K U) : (s.noteDone r).log = s.dones r ++ s.log := by
  unfold noteDone dones
  cases s.user.doneFn with
  | none => rfl
  | some k => exact log_note_loud (by simp [Obs.quiet, h]) s

lemma log_noteDone_quiet (h : r.ends = false) (s : Session K U) : (s.noteDone r).log = s.log := by
  unfold noteDone
  cases s.user.doneFn with
  | none => rfl
  | some k => exact log_note_quiet (by simp [Obs.quiet, h]) s

end Session

lemma log_dropData (s : Session K U) : (dropData s).log = s.log := by
  unfold dropData
  split
  · rfl
  · next p _ => exact log_note_quiet rfl (s.setLink p none)

lemma log_dropControl (s : Session K U) : (dropControl s).log = s.log := by
  unfold dropControl
  split
  · rfl
  · next p _ => exact log_note_quiet rfl (s.setLink p none)

lemma log_closeAll (s : Session K U) : (closeAll s).log = s.log := (log_dropControl _).trans (log_dropData s)

lemma log_readReply (code : ℕ) (s : Session K U) : (readReply code s).log = .reply code s.controlState :: s.log := rfl

lemma log_withSinks (sk : List (Option Bytes)) (usr : U) (s : Session K U) : (withSinks sk usr s).log = s.log := by
  induction sk with
  | nil => rfl
  | cons d sk ih => exact ih

lemma log_lwftpDataOpen {p : Pcb} (hp : s.dataPcb = some p) (q : Pbuf) : (lwftpDataOpen q s).log = s.log := by
  unfold lwftpDataOpen
  simp only [note, hp]
  split <;> rfl

/-! ### Moves in the log -/

/-- What makes the session send a command: the command, and the state after it. -/
inductive Prompt : State → List (Obs K) → Verb → State → Prop
  | advance {st st' : State} {code : ℕ} {v : Verb} (h : Advance st code v st') : Prompt st [.reply code st] v st'
  | opens {v : Verb} {st' : State} (h : Transfer v st') : Prompt .pasvSent [.reply 227 .pasvSent] v st'
  | refuse {st : State} {code : ℕ} (h : st.login) : Prompt st [.reply code st] .quit .quitSent
  | start : Prompt .logged [] .type .typeSent
  | command {v : Verb} {st' : State} (h : Command v st') : Prompt .logged [] v st'
  | quit {st : State} (h : st ≠ .closed) : Prompt st [.api .close st] .quit .quitSent

/-- What ends an operation or the connection: the result, and the state after it. -/
inductive Ending : State → List (Obs K) → Result → State → Prop
  | login : Ending .passSent [.reply 230 .passSent] .logged .logged
  | data {st : State} {code : ℕ} {r : Result} (h : FinishData st code r) : Ending st [.reply code st] r .logged
  | cmd {st : State} {code : ℕ} {v : Verb} {r : Result} (h : st.cmd = some v)
      (hr : r = .ok → v.completion = some code) (hn : r.ends) : Ending st [.reply code st] r .logged
  | dataErr : Ending .xfering [.dataErr .xfering] .errSrvrResp .logged
  | closes (code : ℕ) :
      Ending .quitSent [.reply code .quitSent] (if code = 221 then .ok else .errUnknown) .closed
  | hangup {st : State} {r : Result} (h : r = .errClosed ∨ r = .errUnknown ∨ r = .errConnect) : Ending st [] r .closed

lemma Ending.ends {st st' : State} {o : List (Obs K)} {r : Result} (h : Ending st o r st') : r.ends = true := by
  cases h with
  | login | dataErr => rfl
  | data h => exact h.ends
  | cmd _ _ hn => exact hn
  | closes => split_ifs <;> rfl
  | hangup h => rcases h with rfl | rfl | rfl <;> rfl

inductive Deed (s s' : Session K U) : Prop
  | still (hl : s'.log = s.log) (hst : s'.controlState = s.controlState)
      (hp : s'.controlState = .storSent → s'.dataPcb = s.dataPcb)
  /-- a `NULL` pointer, alone or as the argument of a command -/
  | faults (hf : s'.fault = true) (hl : s'.log = s.log ∨ ∃ o v st, Prompt s.controlState o v st ∧ s'.log = o ++ s.log)
  | connected (hl : s'.log = .connected :: s.log) (hst : s'.controlState = .connected)
  /-- `lwftp_close` without a connection -/
  | noQuit (hl : s'.log = .api .close s.controlState :: s.log) (hst : s'.controlState = s.controlState)
      (hp : s'.dataPcb = s.dataPcb)
  /-- the data connection is gone -/
  | gone (o : Obs K) (ho : o = .dataFin s.controlState ∨ o = .dataErr s.controlState) (hl : s'.log = o :: s.log)
      (hst : s'.controlState = s.controlState) (hp : s'.dataPcb = none)
  /-- a reply in a state that expects none -/
  | ignored (code : ℕ) (hi : s.controlState = .logged ∨ s.controlState = .closed)
      (hl : s'.log = .reply code s.controlState :: s.log) (hst : s'.controlState = s.controlState)
  | sends (o : List (Obs K)) (v : Verb) (msgs : List Piece) (h : Prompt s.controlState o v s'.controlState)
      (hl : s'.log = .send v msgs :: (o ++ s.log)) (hp : s'.controlState = .storSent → s'.dataPcb ≠ none)
      (hm : Spelled v msgs)
  /-- 150 begins the transfer; the first block of an upload goes through the data block -/
  | begins (use : List (Obs K))
      (h : s.controlState = .retrSent ∨ s.controlState = .storSent ∨ s.controlState = .mlsdSent)
      (hl : s'.log = use ++ .reply 150 s.controlState :: s.log) (hst : s'.controlState = .xfering)
      (hu : use = [] ∧ (s.controlState = .storSent → s.dataPcb ≠ none) ∨
        use = [.sendNextData none] ∧ s.controlState = .storSent ∧ s.dataPcb = none)
  | ends (o : List (Obs K)) (r : Result) (h : Ending s.controlState o r s'.controlState)
      (hl : s'.log = s.dones r ++ (o ++ s.log))

lemma Deed.noteDone {r : Result} (h : Ending s.controlState o r m.controlState)
    (hl : m.log = o ++ s.log) (hu : m.user.doneFn = s.user.doneFn) : Deed s (m.noteDone r) := by
  obtain ⟨t, ht⟩ := noteDone_eq m r
  refine .ends o r (by rw [ht]; exact h) ?_
  rw [log_noteDone h.ends, hl]
  simp only [dones, hu]

lemma Deed.sent {v : Verb} {st : State} (hs : Sent v m s')
    (h : Prompt s.controlState o v st) (hl : m.log = o ++ s.log) (hp : st = .storSent → m.dataPcb ≠ none) :
    Deed s (s'.goto st) := by
  cases hs with
  | send msgs hm => exact .sends o v msgs h (congrArg (Obs.send v msgs :: ·) hl) hp hm
  | null => exact .faults rfl (.inr ⟨o, v, st, h, hl⟩)

lemma lwftpDataOpen_dataPcb (q : Pbuf) (s : Session K U) : (lwftpDataOpen q s).dataPcb = s.dataPcb := by
  unfold lwftpDataOpen
  simp only
  split
  · rfl
  · split <;> rfl

lemma dropData_user (s : Session K U) : (dropData s).user = s.user := by
  obtain ⟨t, ht⟩ := dropData_eq s
  rw [ht]

lemma closeAll_user (s : Session K U) : (closeAll s).user = s.user := by
  obtain ⟨t, ht⟩ := dropControl_eq (dropData s)
  unfold closeAll
  rw [ht]
  exact dropData_user s

lemma Move.deed (hw : Wf s) (m : Move s s') : Deed s s' := by
  cases m with
  | caller | acked | write => exact .still rfl rfl fun _ => rfl
  | fault => exact .faults rfl (.inl rfl)
  | note o ho => exact .still (log_note_quiet ho s) rfl fun _ => rfl
  | report r hr =>
    obtain ⟨t, ht⟩ := noteDone_eq s r
    exact .still (log_noteDone_quiet hr s) (by rw [ht]) fun _ => by rw [ht]
  | connect mss h1 _ _ => exact .still rfl rfl fun _ => rfl
  | dataUp p ok _ => cases ok <;> exact .still rfl rfl fun _ => rfl
  | connected p ok _ =>
    cases ok with
    | true => exact .connected rfl rfl
    | false => exact .still rfl rfl fun _ => rfl
  | eof hst =>
    refine .still (log_dropData s) (dropData_controlState s) fun h => ?_
    rw [dropData_controlState] at h
    rcases hst with hst | hst <;> simp [hst] at h
  | ignored code hi => exact .ignored code hi rfl rfl
  | advance s1 code v st ha hs =>
    refine .sent hs (.advance ha) rfl ?_
    rintro rfl
    generalize s.controlState = st0 at ha
    cases ha
  | opens s1 q v hst ht hs =>
    have hp := hw.live (by rw [hst]; rfl)
    obtain ⟨p, hp'⟩ := Option.ne_none_iff_exists'.1 hp
    refine .sent hs (by rw [hst]; exact .opens ht) ?_ fun _ => ?_
    · rw [log_lwftpDataOpen (s := readReply 227 s) hp', log_readReply, hst]
      rfl
    · rw [lwftpDataOpen_dataPcb]
      exact hp
  | refuse code msgs hl _ hm => exact .sent (.send msgs hm) (.refuse hl) rfl (by simp)
  | login hst => exact .noteDone (by rw [hst]; exact .login) (by rw [← hst]; rfl) rfl
  | begins hst =>
    refine .begins [] (by tauto) rfl rfl (.inl ⟨rfl, fun h => ?_⟩)
    rcases hst with hst | hst <;> simp [hst] at h
  | beginStor usr hst =>
    -- the use of the data block is quiet exactly if there is one
    cases hp : s.dataPcb with
    | none => exact .begins [.sendNextData none] (by tauto) rfl rfl (.inr ⟨rfl, hst, hp⟩)
    | some p => exact .begins [] (by tauto) rfl rfl (.inl ⟨rfl, by simp [hp]⟩)
  | finishData code r hfin _ =>
    refine .noteDone (o := [.reply code s.controlState]) ?_ (log_dropData _) (by rw [dropData_user]; rfl)
    rw [dropData_controlState]
    exact .data hfin
  | finishCmd code v r sk usr hst hr hn _ => exact .noteDone (.cmd hst hr hn) (log_withSinks sk usr (readReply code s)) rfl
  | dataFin p sk usr _ =>
    exact .gone _ (.inl rfl) ((log_dropData _).trans (log_withSinks sk usr _)) (dropData_controlState _)
      (dropData_dataPcb _)
  | dataErr p up _ _ => exact .gone (.dataErr s.controlState) (.inr rfl) rfl rfl rfl
  | dataErrEnd p up _ hx => exact .noteDone (by rw [hx]; exact .dataErr) (by rw [← hx]; rfl) rfl
  | noConnect _ => exact .noteDone (.hangup (by simp)) (log_closeAll s) (by rw [closeAll_user])
  | hangup r hr => exact .noteDone (.hangup (by tauto)) (log_closeAll s) (by rw [closeAll_user])
  | controlErr p up r _ hr => exact .noteDone (.hangup (by tauto)) (log_closeAll _) (by rw [closeAll_user]; rfl)
  | closes code hst _ =>
    refine .noteDone (by rw [hst]; exact .closes code) ?_ (by rw [closeAll_user]; rfl)
    rw [log_closeAll, log_readReply, hst]
    rfl
  | start mss v target msgs h1 _ _ hm =>
    exact .sends [] .type msgs (by rw [h1]; exact .start) rfl (by simp [goto]) hm
  | command v st msgs h1 hc hm =>
    refine .sent (.send msgs hm) (by rw [h1]; exact .command hc) rfl ?_
    rintro rfl
    cases hc
  | noQuit _ => exact .noQuit rfl rfl rfl
  | quit msgs h _ hm =>
    exact .sent (.send msgs hm) (.quit h) rfl (by simp)

/-! ### Monitors -/

lemma always_log {γ : Type*} {u : Obs K → γ → γ} (hu : ∀ o g, o.quiet = true → u o g = g)
    {R : Obs K → γ → Prop} (hR : ∀ o g, o.quiet = true → R o g) (g : γ) (s : Session K U) :
    Always (fun o t => R o (t.foldr u g)) s.log ↔ Always (fun o t => R o (t.foldr u g)) s.trace :=
  always_filter (fun o g ho => hu o g (by simpa using ho)) (fun o g ho => hR o g (by simpa using ho)) g s.trace

end LwftpCe.Lwftp
