import LwftpCe.Lwftp.Structure

/-!
# Every event is a sequence of moves

The code of `lwftp.c` refines the moves: `callApi_moves` for the API, `process_moves` for the state machine, `step_moves`
for a top-level event, and `run_moves` for a whole run.  A callback of a lawful caller is itself a sequence of moves
(`Lawful.moves`), by induction on its depth of re-entrance.
-/

namespace LwftpCe.Lwftp

open Lib Relation List Session State

variable {K U : Type} {c : Caller K U} {s : Session K U} {s' : Session K U} {v : Verb}
  {q : Pbuf} {st : State} {n : ℕ} {r : Result} {p : Pcb} {es : List (Event K U)}

lemma Move.moves (m : Move s s') (hf : s.fault = false) : Moves s s' :=
  ReflTransGen.single ⟨hf, m⟩

lemma Moves.wf (m : Moves s s') (h : Wf s) : Wf s' :=
  reflTransGen_inv Wf (fun _ _ h m => m.2.wf h) m h

@[simp] lemma dropData_fault (s : Session K U) : (dropData s).fault = s.fault := by
  obtain ⟨t, ht⟩ := dropData_eq s
  rw [ht]

@[simp] lemma closeAll_fault (s : Session K U) : (closeAll s).fault = s.fault := by
  obtain ⟨t, ht⟩ := dropControl_eq (dropData s)
  unfold closeAll
  rw [ht]
  exact dropData_fault s

/-! ### The API -/

lemma sendArg_sent {f : Field} (hv : v.arg = some f) (s : Session K U) :
    Sent v s (sendArg c v [ascii v.word] f s) := by
  unfold sendArg
  split
  · exact .null
  · exact .send _ (.arg hv _)

lemma sendArg_some {f : Field} (hv : v.arg = some f) (hf : (s.user.get f).isSome) :
    ∃ msgs, Spelled v msgs ∧ sendArg c v [ascii v.word] f s = s.note (.send v msgs) := by
  obtain ⟨k, hk⟩ := Option.isSome_iff_exists.1 hf
  unfold sendArg
  rw [hk]
  exact ⟨_, .arg hv _, rfl⟩

section Fault

/-! The API goes through no `NULL` pointer, because it checks its arguments. -/

variable (hc : ∀ k r (s : Session K U), (c.done k r s).fault = s.fault)
include hc

lemma callDone_fault (r : Result) (s : Session K U) : (s.callDone c r).fault = s.fault := by
  unfold callDone
  split
  · rfl
  · exact hc _ _ _

lemma lwftpConnect_fault (new : Option ℕ) (conn : Bool) (s : Session K U) : (lwftpConnect c new conn s).1.fault = s.fault := by
  unfold lwftpConnect
  split
  · exact callDone_fault hc _ _
  · cases new with
    | none => exact callDone_fault hc _ _
    | some mss =>
      cases conn with
      | true => exact callDone_fault hc _ _
      | false => exact (callDone_fault hc _ _).trans (closeAll_fault _)

lemma lwftpTransfer_fault (target : State) (new : Option ℕ) (s : Session K U) :
    (lwftpTransfer c (lwftpStart c target) new s).1.fault = s.fault := by
  unfold lwftpTransfer
  split
  · exact callDone_fault hc _ _
  · next h =>
    simp only [not_or, not_not] at h
    cases new with
    | none => exact callDone_fault hc _ _
    | some mss =>
      simp only [lwftpStart, h.1, if_true]
      exact callDone_fault hc _ _

lemma lwftpCommand_fault (args : User K → Bool) (line : Session K U → Session K U) (v : Verb) (st : State)
    (hl : args s.user → ∃ msgs, Spelled v msgs ∧ line s = s.note (.send v msgs)) :
    (lwftpCommand c args (lwftpSend c line st) s).1.fault = s.fault := by
  unfold lwftpCommand
  split
  · exact callDone_fault hc _ _
  · next hs =>
    simp only [not_or, not_not, Bool.not_eq_false] at hs
    obtain ⟨msgs, -, hm⟩ := hl hs.2.1
    simp only [lwftpSend, hs.1, if_true, hm]
    exact callDone_fault hc _ _

omit hc in
lemma lwftpClose_fault (s : Session K U) : (lwftpClose s).fault = s.fault := by
  unfold lwftpClose lwftpSendQUIT
  split
  · rfl
  · split <;> rfl

lemma callApi_fault (a : Api) (s : Session K U) : (callApi c a s).fault = s.fault := by
  cases a with
  | connect new conn => exact lwftpConnect_fault hc new conn _
  | retrieve new | store new | mlsd new => exact lwftpTransfer_fault hc _ new _
  | delete => exact lwftpCommand_fault hc _ _ .dele _ fun h => sendArg_some rfl h
  | removeDir => exact lwftpCommand_fault hc _ _ .rmd _ fun h => sendArg_some rfl h
  | changeDir => exact lwftpCommand_fault hc _ _ .cwd _ fun h => sendArg_some rfl h
  | printDir => exact lwftpCommand_fault hc _ _ _ _ (fun _ => ⟨_, .line rfl, rfl⟩)
  | move => exact lwftpCommand_fault hc _ _ .rnfr _ fun h => sendArg_some rfl (Bool.and_eq_true_iff.1 h).1
  | close => exact lwftpClose_fault _

end Fault

section Api

variable (hc : ∀ k r (s : Session K U), s.fault = false → Moves s (c.done k r s))
include hc

lemma callDone_moves (r : Result) (hf : s.fault = false) : Moves (s.noteDone r) (s.callDone c r) := by
  unfold noteDone callDone
  split
  · exact .refl
  · exact hc _ _ _ hf

lemma Move.callDone {s m : Session K U} {r : Result} (hm : Move s (m.noteDone r)) (hf : s.fault = false)
    (hf' : m.fault = false) : Moves s (m.callDone c r) := (hm.moves hf).trans (callDone_moves hc r hf')

lemma exit_moves (r : Result) (hr : r.ends = false) (hf : s.fault = false) : Moves s (exit c r s).1 :=
  ((Move.report s r hr).moves hf).trans (callDone_moves hc r hf)

lemma lwftpConnect_moves (new : Option ℕ) (conn : Bool) (hf : s.fault = false) : Moves s (lwftpConnect c new conn s).1 := by
  unfold lwftpConnect
  split
  · exact exit_moves hc _ rfl hf
  · next h =>
    simp only [not_or, not_not] at h
    obtain ⟨h1, h2, h3, -, -⟩ := h
    cases new with
    | none => exact exit_moves hc _ rfl hf
    | some mss =>
      refine ((Move.connect s mss h1 h2 h3).moves hf).trans ?_
      cases conn with
      | true => exact exit_moves hc _ rfl hf
      | false =>
        refine ((Move.noConnect _ ?_).moves ?_).trans (callDone_moves hc .errUnknown ?_)
        · exact h1
        · exact hf
        · exact (closeAll_fault _).trans hf

lemma lwftpTransfer_moves (v : Verb) (target : State) (ht : Transfer v target) (new : Option ℕ)
    (hf : s.fault = false) : Moves s (lwftpTransfer c (lwftpStart c target) new s).1 := by
  unfold lwftpTransfer
  split
  · exact exit_moves hc _ rfl hf
  · next h =>
    simp only [not_or, not_not] at h
    obtain ⟨h1, -, h3⟩ := h
    cases new with
    | none => exact exit_moves hc _ rfl hf
    | some mss =>
      refine ((Move.start s mss v target _ h1 h3 ht (.line rfl)).moves hf).trans ?_
      simp only [lwftpStart, h1, if_true]
      exact exit_moves hc _ rfl hf

lemma lwftpCommand_moves (args : User K → Bool) (line : Session K U → Session K U) (v : Verb) (st : State)
    (h : Command v st) (hl : args s.user → ∃ msgs, Spelled v msgs ∧ line s = s.note (.send v msgs)) (hf : s.fault = false) :
    Moves s (lwftpCommand c args (lwftpSend c line st) s).1 := by
  unfold lwftpCommand
  split
  · exact exit_moves hc _ rfl hf
  · next hs =>
    simp only [not_or, not_not, Bool.not_eq_false] at hs
    obtain ⟨msgs, hsp, hm⟩ := hl hs.2.1
    refine ((Move.command s v st msgs hs.1 h hsp).moves hf).trans ?_
    simp only [lwftpSend, hs.1, if_true, hm]
    exact exit_moves hc _ rfl hf

omit hc in
lemma lwftpClose_moves (hf : s.fault = false) : Moves s (lwftpClose (s.note (.api .close s.controlState))) := by
  unfold lwftpClose
  split
  · next h => exact (Move.noQuit s (.inl h)).moves hf
  · next h =>
    unfold lwftpSendQUIT
    split
    · next hp => exact (Move.noQuit s (.inr hp)).moves hf
    · next hp => exact (Move.quit s _ h hp (.line rfl)).moves hf

lemma callApi_moves (a : Api) (hf : s.fault = false) : Moves s (callApi c a s) := by
  have note : a ≠ .close → ∀ s', Moves (s.note (.api a s.controlState)) s' → Moves s s' :=
    fun ha s' h => ((Move.note s _ (by simpa [Obs.quiet] using ha)).moves hf).trans h
  cases a with
  | connect new conn => exact note (by simp) _ (lwftpConnect_moves hc new conn hf)
  | retrieve new => exact note (by simp) _ (lwftpTransfer_moves hc .retr _ .retr new hf)
  | store new => exact note (by simp) _ (lwftpTransfer_moves hc .stor _ .stor new hf)
  | mlsd new => exact note (by simp) _ (lwftpTransfer_moves hc .mlsd _ .mlsd new hf)
  | delete => exact note (by simp) _ (lwftpCommand_moves hc _ _ _ _ .dele (fun h => sendArg_some rfl h) hf)
  | removeDir => exact note (by simp) _ (lwftpCommand_moves hc _ _ _ _ .rmd (fun h => sendArg_some rfl h) hf)
  | changeDir => exact note (by simp) _ (lwftpCommand_moves hc _ _ _ _ .cwd (fun h => sendArg_some rfl h) hf)
  | printDir => exact note (by simp) _ (lwftpCommand_moves hc _ _ _ _ .pwd (fun _ => ⟨_, .line rfl, rfl⟩) hf)
  | move =>
    refine note (by simp) _ (lwftpCommand_moves hc _ _ _ _ .rnfr (fun h => sendArg_some rfl ?_) hf)
    exact (Bool.and_eq_true_iff.1 h).1
  | close => exact lwftpClose_moves hf

end Api

/-! ### Callbacks -/

lemma Calls.fault (hc : ∀ k r (s : Session K U), (c.done k r s).fault = s.fault) (h : Calls c s s') : s'.fault = s.fault := by
  induction h with
  | refl => rfl
  | set user usr _ ih => exact ih
  | api a _ ih => exact ih.trans (callApi_fault hc a _)

lemma Calls.moves (hf : ∀ k r (s : Session K U), (c.done k r s).fault = s.fault)
    (hc : ∀ k r (s : Session K U), s.fault = false → Moves s (c.done k r s)) (h : Calls c s s')
    (hs : s.fault = false) : Moves s s' := by
  induction h with
  | refl => exact .refl
  | set user usr _ ih => exact ((Move.caller _ user usr).moves hs).trans (ih hs)
  | api a _ ih => exact (callApi_moves hc a hs).trans (ih ((callApi_fault hf a _).trans hs))

lemma Lawful.fault (hc : Lawful c) : ∀ k r s, (c.done k r s).fault = s.fault := by
  induction hc with
  | base h =>
    intro k r s
    obtain ⟨user, usr, hs⟩ := h k r s
    rw [hs]
  | step inner _ h ih => exact fun k r s => (h k r s).fault (ih k r s)

lemma Lawful.moves (hc : Lawful c) : ∀ k r s, s.fault = false → Moves s (c.done k r s) := by
  induction hc with
  | base h =>
    intro k r s hf
    obtain ⟨user, usr, hs⟩ := h k r s
    rw [hs]
    exact (Move.caller s user usr).moves hf
  | step inner hi h ih => exact fun k r s hs => (h k r s).moves (hi k r s).fault (ih k r s) hs

/-! ### The state machine -/

lemma controlEnd_stable (r : Result) (h : s.controlState.transient = false) : controlEnd c r s = s := by
  unfold controlEnd
  revert h
  cases s.controlState <;> simp [transient]

lemma process_zero (h : Wf s) (hq : response q = 0) (p : List Pbuf) : lwftpControlProcess c (q :: p) s = s := by
  unfold lwftpControlProcess
  simp only [hq, if_true]
  exact controlEnd_stable _ h.stable

lemma process_pos (hq : response q ≠ 0) (p : List Pbuf) : lwftpControlProcess c (q :: p) s =
      controlEnd c (onReply c q (response q) (readReply (response q) s)).2
        (onReply c q (response q) (readReply (response q) s)).1 := by
  unfold lwftpControlProcess readReply
  simp only [hq, if_false]

lemma callSink_eq (d : Option Bytes) (s : Session K U) : ∃ sk usr, s.callSink c d = withSinks sk usr s := by
  unfold callSink
  split
  · exact ⟨[], s.usr, rfl⟩
  · next k _ => exact ⟨[d], c.sink k d s.usr, rfl⟩

lemma lwftpDataOpen_targetState (q : Pbuf) (s : Session K U) : (lwftpDataOpen q s).targetState = s.targetState := by
  unfold lwftpDataOpen
  simp only
  split
  · rfl
  · split <;> rfl

lemma sendArg_targetState (v : Verb) (msgs : List Bytes) (f : Field) (s : Session K U) :
    (sendArg c v msgs f s).targetState = s.targetState := by
  unfold sendArg
  split <;> rfl

lemma transferCmd_sent (ht : Transfer v s.targetState) :
    Sent v s (transferCmd c s) ∧ (transferCmd c s).targetState = s.targetState := by
  generalize hst : s.targetState = st at ht
  cases ht <;>
    simp only [transferCmd, hst] <;>
    exact ⟨sendArg_sent rfl s, (sendArg_targetState _ _ _ s).trans hst⟩

lemma writeData_controlState (d : Bytes) (s : Session K U) : (writeData d s).controlState = s.controlState := by
  unfold writeData
  split
  · exact dropData_controlState s
  · rfl

lemma writeData_move (d : Bytes) (s : Session K U) (hst : s.controlState = .xfering ∨ s.controlState = .quitSent) :
    Move s (writeData d s) := by
  unfold writeData
  split
  · exact .eof s hst
  · exact .write s d hst

lemma lwftpSendNextData_eq (s : Session K U) : lwftpSendNextData c s = { s.note (.sendNextData s.dataPcb) with fault := true } ∨
      ∃ d usr, lwftpSendNextData c s = writeData d { s.note (.sendNextData s.dataPcb) with usr } := by
  unfold lwftpSendNextData
  cases hp : s.dataPcb with
  | none => exact .inl (by simp [note, hp])
  | some p => exact .inr ⟨_, _, by simp [note, hp]; rfl⟩

lemma lwftpSendNextData_controlState (s : Session K U) : (lwftpSendNextData c s).controlState = s.controlState := by
  rcases lwftpSendNextData_eq s with h | ⟨d, usr, h⟩
  · rw [h]
    rfl
  · rw [h, writeData_controlState]
    rfl

lemma sendNextData_moves (s : Session K U) (hst : s.controlState = .xfering ∨ s.controlState = .quitSent)
    (hf : s.fault = false) : Moves (s.note (.sendNextData s.dataPcb)) (lwftpSendNextData c s) := by
  rcases lwftpSendNextData_eq s with h | ⟨d, usr, h⟩
  · rw [h]
    exact (Move.fault _).moves (by exact hf)
  · rw [h]
    refine ((Move.caller _ s.user usr).moves (by exact hf)).trans ((writeData_move d _ ?_).moves (by exact hf))
    exact hst

lemma lwftpDataSent_eq (n : ℕ) (s : Session K U) : ∃ usr, lwftpDataSent c n s = lwftpSendNextData c { s with usr } := by
  unfold lwftpDataSent
  split
  · exact ⟨s.usr, rfl⟩
  · exact ⟨_, rfl⟩

def State.answer (code : ℕ) : State → Option Result
  | .passSent => if code = 230 then some .logged else none
  | .retrSent => if code = 150 then none else some (if code = 550 then .errFilename else .errSrvrResp)
  | .storSent | .mlsdSent => if code = 150 then none else some .errSrvrResp
  | .xfering => some (if code = 226 then .ok else .errClosed)
  | .deleSent | .rmdSent | .cwdSent => some (result250 code)
  | .pwdSent => some (if code = 257 then .ok else .errSrvrResp)
  | .rnfrSent => if code = 350 then none else some (if code = 550 then .errFilename else .errSrvrResp)
  | .rntoSent => some (if code = 250 then .ok else .errSrvrResp)
  | .quitSent => some (if code = 221 then .ok else .errUnknown)
  | .closed | .connected | .userSent | .typeSent | .pasvSent | .logged | .dataend | .quit | .closing | .cmdend => none

/-- What `lwftp_control_process` makes of a reply `n` at the head of `q`, with the call of `done_fn` at its end. -/
inductive Processed (c : Caller K U) (q : Pbuf) (n : ℕ) (s : Session K U) : Session K U → Prop
  | ignored (h : s.controlState = .logged ∨ s.controlState = .closed) : Processed c q n s (readReply n s)
  | advance {s' : Session K U} {v : Verb} {st : State} (h : Advance s.controlState n v st)
      (hs : Sent v (readReply n s) s') : Processed c q n s (s'.goto st)
  | opens {s' : Session K U} {v : Verb} (h : s.controlState = .pasvSent) (hn : n = 227) (ht : Transfer v s.targetState)
      (hs : Sent v (lwftpDataOpen q (readReply 227 s)) s') : Processed c q n s (s'.goto s.targetState)
  | refuse (msgs : List Piece) (h : s.controlState.login) (ha : s.controlState.answer n = none)
      (hm : Spelled .quit msgs) :
      Processed c q n s (((readReply n s).note (.send .quit msgs)).goto .quitSent)
  | login (h : s.controlState = .passSent) (hn : n = 230) :
      Processed c q n s (((readReply n s).goto .logged).callDone c .logged)
  | begins (h : s.controlState = .retrSent ∨ s.controlState = .mlsdSent) (hn : n = 150) :
      Processed c q n s ((readReply n s).goto .xfering)
  | beginStor (h : s.controlState = .storSent) (hn : n = 150) :
      Processed c q n s (lwftpDataSent c 0 ((readReply n s).goto .xfering))
  | finishData {r : Result} (h : FinishData s.controlState n r) (ha : s.controlState.answer n = some r) :
      Processed c q n s ((dropData ((readReply n s).goto .logged)).callDone c r)
  | finishCmd {v : Verb} {r : Result} (h : s.controlState.cmd = some v) (ha : s.controlState.answer n = some r)
      (hp : s.controlState = .pwdSent → n ≠ 257) : Processed c q n s (((readReply n s).goto .logged).callDone c r)
  | pwd (h : s.controlState = .pwdSent) (hn : n = 257) :
      Processed c q n s ((((readReply n s).callSink c (some q.payload)).goto .logged).callDone c .ok)
  | closes (h : s.controlState = .quitSent) :
      Processed c q n s ((closeAll (readReply n s)).callDone c (if n = 221 then .ok else .errUnknown))

lemma answer_ends (h : st.answer n = some r) : r.ends := by
  cases st <;> grind [answer, result250, Result.ends]

lemma answer_completion (hv : st.cmd = some v) (h : st.answer n = some r) : r = .ok → v.completion = some n := by
  cases st <;> grind [answer, cmd, result250, Verb.completion]

section Process

variable (hc : ∀ k r (s : Session K U), s.fault = false → Moves s (c.done k r s))
include hc

lemma process_processed (h : Wf s) (hf : s.fault = false) {q : Pbuf} (hq : response q ≠ 0) (p : List Pbuf) :
    Processed c q (response q) s (lwftpControlProcess c (q :: p) s) := by
  rw [process_pos hq]
  generalize response q = n at hq
  have hst0 : (readReply n s).controlState = s.controlState := rfl
  cases hst : s.controlState with
  | closed | logged =>
    simp only [onReply, hst0, hst]
    rw [controlEnd_stable _ (h.readReply n).stable]
    exact .ignored (by simp [hst])
  | connected =>
    simp only [onReply, hst0, hst]
    split_ifs with hn
    · exact .advance (hst ▸ hn ▸ .user) (sendArg_sent rfl _)
    · exact .refuse _ (by rw [hst]; rfl) (by rw [hst]; rfl) (.line rfl)
  | userSent =>
    simp only [onReply, hst0, hst]
    split_ifs with hn
    · exact .advance (hst ▸ hn ▸ .pass) (sendArg_sent rfl _)
    · exact .refuse _ (by rw [hst]; rfl) (by rw [hst]; rfl) (.line rfl)
  | passSent =>
    simp only [onReply, hst0, hst]
    split_ifs with hn
    · have m := Move.callDone hc (Move.login s hst) hf hf
      subst hn
      -- the callback may have started something; it has not left the session in a transient state
      rw [controlEnd_stable _ (Moves.wf m h).stable]
      exact .login hst rfl
    · exact .refuse _ (by rw [hst]; rfl) (by rw [hst]; exact if_neg hn) (.line rfl)
  | typeSent =>
    simp only [onReply, hst0, hst]
    split_ifs with hn
    · exact .advance (hst ▸ hn ▸ .pasv) (.send _ (.line rfl))
    · exact .refuse _ (by rw [hst]; rfl) (by rw [hst]; rfl) (.line rfl)
  | pasvSent =>
    simp only [onReply, hst0, hst, onPasv]
    split_ifs with hn
    · subst hn
      obtain ⟨v, hv⟩ := h.target (by rw [hst]; rfl)
      have ht : Transfer v (lwftpDataOpen q (readReply 227 s)).targetState := by
        rw [lwftpDataOpen_targetState]
        exact hv
      obtain ⟨hs, htar⟩ := transferCmd_sent ht
      have hw := (Move.opens s _ q v hst hv hs).wf h
      rw [htar, lwftpDataOpen_targetState, show (readReply 227 s).targetState = s.targetState from rfl,
        controlEnd_stable _ hw.stable]
      exact .opens hst rfl hv hs
    · exact .refuse _ (by rw [hst]; rfl) (by rw [hst]; rfl) (.line rfl)
  | retrSent =>
    simp only [onReply, hst0, hst]
    split_ifs with hn hn'
    · exact .begins (.inl hst) hn
    all_goals exact .finishData (hst ▸ .retr hn (by simp)) (by simp [hst, answer, hn, hn'])
  | storSent =>
    simp only [onReply, hst0, hst]
    split_ifs with hn
    · obtain ⟨usr, hs⟩ := lwftpDataSent_eq 0 ((readReply n s).goto .xfering)
      rw [controlEnd_stable _ (by rw [hs, lwftpSendNextData_controlState]; rfl)]
      exact .beginStor hst hn
    · exact .finishData (hst ▸ .stor hn) (by rw [hst]; exact if_neg hn)
  | mlsdSent =>
    simp only [onReply, hst0, hst]
    split_ifs with hn
    · exact .begins (.inr hst) hn
    · exact .finishData (hst ▸ .mlsd hn) (by rw [hst]; exact if_neg hn)
  | xfering =>
    simp only [onReply, hst0, hst]
    split_ifs with hn
    · exact .finishData (hst ▸ hn ▸ .done) (by simp [hst, answer, hn])
    · exact .finishData (hst ▸ .fail hn) (by simp [hst, answer, hn])
  | quitSent =>
    simp only [onReply, hst0, hst]
    have hclose := Processed.closes (c := c) (q := q) (n := n) hst
    rw [← closeAll_goto (readReply n s) .closing] at hclose
    exact hclose
  | deleSent | rmdSent | cwdSent | rntoSent =>
    simp only [onReply, hst0, hst]
    exact .finishCmd (by rw [hst]; rfl) (by rw [hst]; rfl) (by simp [hst])
  | pwdSent =>
    simp only [onReply, hst0, hst, onPwd]
    split_ifs with hn
    · exact .pwd hst hn
    · exact .finishCmd (by rw [hst]; rfl) (by simp [hst, answer, hn]) fun _ => hn
  | rnfrSent =>
    simp only [onReply, hst0, hst, onRnfr]
    split_ifs with hn hn'
    · exact .advance (hst ▸ hn ▸ .rnto) (sendArg_sent rfl _)
    all_goals exact .finishCmd (by rw [hst]; rfl) (by simp [hst, answer, hn, hn']) (by simp [hst])
  | dataend | quit | closing | cmdend =>
    have := h.stable
    rw [hst] at this
    cases this

lemma process_moves (h : Wf s) (hf : s.fault = false) (q : Pbuf) (p : List Pbuf) : Moves s (lwftpControlProcess c (q :: p) s) := by
  by_cases hq : response q = 0
  · rw [process_zero h hq]
  have hp := process_processed hc h hf hq p
  generalize lwftpControlProcess c (q :: p) s = s' at hp
  generalize response q = n at hp hq
  cases hp with
  | ignored hi => exact (Move.ignored s n hi).moves hf
  | advance ha hs => exact (Move.advance s _ n _ _ ha hs).moves hf
  | opens hst hn ht hs => exact (Move.opens s _ q _ hst ht hs).moves hf
  | refuse msgs hl _ hm => exact (Move.refuse s n msgs hl hq hm).moves hf
  | login hst hn =>
    subst hn
    exact Move.callDone hc (Move.login s hst) hf hf
  | begins hst hn =>
    subst hn
    exact (Move.begins s hst).moves hf
  | beginStor hst hn =>
    subst hn
    obtain ⟨usr, hs⟩ := lwftpDataSent_eq 0 ((readReply 150 s).goto .xfering)
    rw [hs]
    exact ((Move.beginStor s usr hst).moves hf).trans (sendNextData_moves _ (.inl rfl) (by exact hf))
  | finishData hfin => exact Move.callDone hc (Move.finishData s n _ hfin hq) hf ((dropData_fault _).trans hf)
  | finishCmd hv ha =>
    exact Move.callDone hc (Move.finishCmd s n _ _ [] s.usr hv (answer_completion hv ha) (answer_ends ha) hq) hf hf
  | pwd hst hn =>
    subst hn
    obtain ⟨sk, usr, hs⟩ := callSink_eq (some q.payload) (readReply 257 s)
    rw [hs]
    exact Move.callDone hc (Move.finishCmd s 257 .pwd .ok sk usr (by rw [hst]; rfl) (fun _ => rfl) rfl hq) hf hf
  | closes hst => exact Move.callDone hc (Move.closes s n hst hq) hf ((closeAll_fault _).trans hf)

end Process

/-! ### Events -/

lemma sinkAll_moves (p : List Pbuf) (hf : s.fault = false) : Moves s (sinkAll c p s) := by
  induction p generalizing s with
  | nil => exact .refl
  | cons q p ih =>
    unfold sinkAll callSink
    split
    · exact ih hf
    · refine ((Move.note s _ rfl).moves hf).trans (((Move.caller _ s.user _).moves ?_).trans (ih ?_)) <;> exact hf

lemma lwftpDataRecv_moves (hp : s.link p = some ⟨.data, true⟩) (hf : s.fault = false) (q : List Pbuf) :
    Moves s (lwftpDataRecv c q s) := by
  unfold lwftpDataRecv
  split
  · obtain ⟨sk, usr, hs⟩ := callSink_eq none (s.note (.dataFin s.controlState))
    rw [hs]
    exact (Move.dataFin s p sk usr hp).moves hf
  · exact sinkAll_moves q hf

lemma lwftpDataSent_moves (h : Wf s) (hf : s.fault = false) (hp : s.link p = some ⟨.data, true⟩) {len : ℕ}
    (h0 : 0 < len) (hl : len ≤ s.unacked) : Moves s (lwftpDataSent c len { s with unacked := s.unacked - len }) := by
  have hd := h.linkData p true hp
  have hst := h.upload (by simp [hd]) (by omega)
  obtain ⟨usr, hs⟩ := lwftpDataSent_eq len { s with unacked := s.unacked - len }
  rw [hs]
  refine ((Move.acked s len).moves hf).trans (((Move.caller _ s.user usr).moves (by exact hf)).trans ?_)
  refine ((Move.note _ (.sendNextData s.dataPcb) ?_).moves (by exact hf)).trans (sendNextData_moves _ ?_ (by exact hf))
  · rw [hd]
    rfl
  · exact hst

lemma lwftpDataErr_xfering (p : Pcb) (hx : s.controlState = .xfering) : lwftpDataErr c p s =
      ({ (s.setLink p none).note (.dataErr s.controlState) with dataPcb := none }.goto .logged).callDone c .errSrvrResp := by
  unfold lwftpDataErr
  simp [note, setLink, hx, lwftpControlProcess, controlEnd, goto, lwftpDataClose, dropData]

lemma lwftpDataErr_other (p : Pcb) (hx : s.controlState ≠ .xfering) :
    lwftpDataErr c p s = { (s.setLink p none).note (.dataErr s.controlState) with dataPcb := none } := by
  unfold lwftpDataErr
  simp [note, setLink, hx]

section Events

variable (hc : ∀ k r (s : Session K U), s.fault = false → Moves s (c.done k r s)) {p : Pcb} {up : Bool}
include hc

lemma lwftpDataErr_moves (hf : s.fault = false) (hp : s.link p = some ⟨.data, up⟩) : Moves s (lwftpDataErr c p s) := by
  by_cases hx : s.controlState = .xfering
  · rw [lwftpDataErr_xfering p hx]
    exact Move.callDone hc (Move.dataErrEnd s p up hp hx) hf hf
  · rw [lwftpDataErr_other p hx]
    exact (Move.dataErr s p up hp hx).moves hf

lemma lwftpControlRecv_moves (h : Wf s) (hf : s.fault = false) (q : List Pbuf) (ok : Bool) : Moves s (lwftpControlRecv c q ok s) := by
  unfold lwftpControlRecv
  split
  · cases q with
    | nil => exact Move.callDone hc (Move.hangup s .errClosed (.inl rfl)) hf ((closeAll_fault _).trans hf)
    | cons q p => exact process_moves hc h hf q p
  · exact Move.callDone hc (Move.hangup s .errUnknown (.inr rfl)) hf ((closeAll_fault _).trans hf)

lemma lwftpControlErr_moves (hf : s.fault = false) (hp : s.link p = some ⟨.control, up⟩) : Moves s (lwftpControlErr c p s) := by
  refine Move.callDone hc
    (Move.controlErr s p up (if s.controlState = .closed then .errConnect else .errClosed) hp ?_) hf
    ((closeAll_fault _).trans hf)
  split_ifs <;> simp

lemma handle_moves (h : Wf s) (hf : s.fault = false) (e : Tcp) (he : e.enabled s) : Moves s (e.handle c s) := by
  cases e with
  | controlConnected p ok => exact (Move.connected s p ok (by simpa [Tcp.enabled] using he)).moves hf
  | controlRecv p q ok => exact lwftpControlRecv_moves hc h hf q ok
  | controlSent p len => exact .refl
  | controlErr p =>
    simp only [Tcp.enabled, decide_eq_true_eq] at he
    rcases he with hp | hp <;> exact lwftpControlErr_moves hc hf hp
  | dataConnected p ok => exact (Move.dataUp s p ok (by simpa [Tcp.enabled] using he)).moves hf
  | dataRecv p q => exact lwftpDataRecv_moves (by simpa [Tcp.enabled] using he) hf q
  | dataSent p len =>
    simp only [Tcp.enabled, decide_eq_true_eq] at he
    exact lwftpDataSent_moves h hf he.1 he.2.1 he.2.2
  | dataErr p =>
    simp only [Tcp.enabled, decide_eq_true_eq] at he
    rcases he with hp | hp <;> exact lwftpDataErr_moves hc hf hp

end Events

lemma step_moves (hc : Lawful c) (h : Wf s) {e : Event K U} (hs : step c s e = some s') : Moves s s' := by
  cases e with
  | tcp e =>
    obtain ⟨⟨hf, he⟩, hs⟩ := Option.ite_none_right_eq_some.1 hs
    cases hs
    exact handle_moves hc.moves h hf e he
  | api a =>
    obtain ⟨hf, hs⟩ := Option.ite_none_right_eq_some.1 hs
    cases hs
    exact callApi_moves hc.moves a hf
  | caller user usr =>
    obtain ⟨hf, hs⟩ := Option.ite_none_right_eq_some.1 hs
    cases hs
    exact (Move.caller s user usr).moves hf

lemma run_moves (hc : Lawful c) (h : Wf s) (hs : run (step c) s es = some s') : Moves s s' ∧ Wf s' := by
  refine run_inv (fun m => Moves s m ∧ Wf m) ?_ ⟨.refl, h⟩ hs
  rintro m e m' ⟨hm, hw⟩ hstep
  have hm' := step_moves hc hw hstep
  exact ⟨hm.trans hm', Moves.wf hm' hw⟩

lemma run_moves_inv (I : Session K U → Prop)
    (hI : ∀ s s', Wf s → s.fault = false → Move s s' → I s → I s') (hc : Lawful c) {user : User K} {usr : U}
    (h0 : I (initial user usr))
    (hs : run (step c) (initial user usr) es = some s) : Wf s ∧ I s := by
  have hm := (run_moves hc (wf_initial user usr) hs).1
  refine reflTransGen_inv (fun s => Wf s ∧ I s) ?_ hm ⟨wf_initial user usr, h0⟩
  rintro a b ⟨hw, hi⟩ ⟨hf, m⟩
  exact ⟨m.wf hw, hI a b hw hf m hi⟩

/-! ### The trace only grows -/

lemma noteDone_suffix (r : Result) (s : Session K U) : s.trace <:+ (s.noteDone r).trace := by
  obtain ⟨t, ht⟩ := noteDone_eq s r
  rw [ht]
  exact suffix_append t s.trace

lemma dropData_suffix (s : Session K U) : s.trace <:+ (dropData s).trace := by
  obtain ⟨t, ht⟩ := dropData_eq s
  rw [ht]
  exact suffix_append t s.trace

lemma closeAll_suffix (s : Session K U) : s.trace <:+ (closeAll s).trace := by
  obtain ⟨t, ht⟩ := dropControl_eq (dropData s)
  unfold closeAll
  rw [ht]
  exact (dropData_suffix s).trans (suffix_append t (dropData s).trace)

lemma lwftpDataOpen_suffix (q : Pbuf) (s : Session K U) : s.trace <:+ (lwftpDataOpen q s).trace := by
  unfold lwftpDataOpen
  simp only
  split
  · exact suffix_cons _ _
  · split
    · exact suffix_cons _ _
    · exact (suffix_cons _ _).trans (suffix_cons _ _)

lemma Sent.suffix (h : Sent v s s') : s.trace <:+ s'.trace := by
  cases h with
  | send msgs => exact suffix_cons _ _
  | null => exact suffix_refl _

lemma readReply_suffix (code : ℕ) (s : Session K U) : s.trace <:+ (readReply code s).trace := suffix_cons _ _

lemma Move.suffix (m : Move s s') : s.trace <:+ s'.trace := by
  cases m with
  | caller | fault | connect | acked => exact suffix_refl _
  | note | ignored | begins | write | dataErr | start | command | noQuit => exact suffix_cons _ _
  | refuse | beginStor | quit => exact (suffix_cons _ _).trans (suffix_cons _ _)
  | connected p ok => cases ok <;> simp [lwftpControlConnected, Session.setLink, Session.note, Session.goto]
  | dataUp p ok => cases ok <;> simp [lwftpDataConnected, Session.setLink]
  | report r => exact noteDone_suffix r s
  | noConnect | hangup => exact (closeAll_suffix s).trans (noteDone_suffix _ _)
  | controlErr p up r => exact (closeAll_suffix { s.setLink p none with controlPcb := none }).trans (noteDone_suffix _ _)
  | advance s1 code v st ha hs => exact (suffix_cons _ _).trans hs.suffix
  | opens s1 q v hst ht hs => exact ((readReply_suffix 227 s).trans (lwftpDataOpen_suffix q _)).trans hs.suffix
  | login => exact (readReply_suffix 230 s).trans (noteDone_suffix _ ((readReply 230 s).goto .logged))
  | dataErrEnd =>
    refine List.IsSuffix.trans ?_ (noteDone_suffix _ _)
    exact suffix_cons _ _
  | eof => exact dropData_suffix s
  | finishData code r =>
    exact ((readReply_suffix code s).trans (dropData_suffix ((readReply code s).goto .logged))).trans
      (noteDone_suffix _ _)
  | finishCmd code v r sk usr =>
    refine ((suffix_cons (Obs.reply code s.controlState) s.trace).trans ?_).trans (noteDone_suffix _ _)
    exact suffix_append _ _
  | dataFin p sk usr =>
    refine ((suffix_cons (Obs.dataFin s.controlState) s.trace).trans ?_).trans (dropData_suffix _)
    exact suffix_append _ _
  | closes code => exact ((readReply_suffix code s).trans (closeAll_suffix _)).trans (noteDone_suffix _ _)

lemma Moves.suffix (m : Moves s s') : s.trace <:+ s'.trace :=
  reflTransGen_inv (fun m => s.trace <:+ m.trace) (fun _ _ h m => h.trans m.2.suffix) m (suffix_refl _)

/-! ### The structure of the session in every run -/

/-- **The session between events.**  Whatever the stack reports and the caller does, also from its callbacks: a control connection
that is not closed has its block, there is a data block only during a transfer or while quitting, a transfer that is being
opened has a proper target, and no inner state of `lwftp_control_process` is left over. -/
theorem session_structure (hc : Lawful c) (user : User K) (usr : U) (es : List (Event K U)) (s : Session K U)
    (hs : run (step c) (initial user usr) es = some s) :
    (s.controlState ≠ .closed → s.controlPcb ≠ none) ∧
    (s.controlState = .closed ∨ s.controlState = .logged → s.dataPcb = none) ∧
    (s.controlState = .typeSent ∨ s.controlState = .pasvSent →
      s.targetState = .retrSent ∨ s.targetState = .storSent ∨ s.targetState = .mlsdSent) ∧
    s.controlState ≠ .dataend ∧ s.controlState ≠ .cmdend ∧ s.controlState ≠ .quit ∧ s.controlState ≠ .closing := by
  have h := (run_moves hc (wf_initial user usr) hs).2
  refine ⟨h.control, ?_, ?_, ?_⟩
  · intro hst
    exact h.dataPcb_eq_none (by rcases hst with hst | hst <;> rw [hst] <;> rfl)
  · intro hst
    obtain ⟨v, hv⟩ := h.target (by rcases hst with hst | hst <;> rw [hst] <;> rfl)
    generalize s.targetState = st at hv
    cases hv <;> simp
  · have hst := h.stable
    refine ⟨?_, ?_, ?_, ?_⟩ <;>
      · intro h'
        rw [h'] at hst
        cases hst

theorem session_structure_open : ∃ s : Session Unit Unit,
      run (step (idleCaller [])) (initial idleUser ()) (openRun (.store (some 536))) = some s ∧
      s.controlState = .storSent ∧ s.controlPcb ≠ none :=
  ⟨_, rfl, rfl,
    (session_structure (idleCaller_lawful []) idleUser () (openRun (.store (some 536))) _ rfl).1 (by decide)⟩

end LwftpCe.Lwftp
