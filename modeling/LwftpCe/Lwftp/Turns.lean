import LwftpCe.Lwftp.Refine

/-!
# One event, up to the callback

What an event does to the session before `done_fn` is called, for callers that have to know what became of their own
world in the meantime (`Turn`).  `e.result s` is the result that `done_fn` gets in the event, if it is called, and every event
ends without a callback (`Quiet`) or with one (`Ended`), as `e.result s` says (`handle_turned`).
-/

namespace LwftpCe.Lwftp

open Lib List Session Tcp Option

variable {K U : Type} {c : Caller K U} {e : Tcp} {s m : Session K U} {r : Result} {st : State}

def Tcp.payloads (s : Session K U) : Tcp → List (Option Bytes)
  | .controlRecv _ (q :: _) true => if s.controlState = .pwdSent ∧ response q = 257 then [some q.payload] else []
  | .dataRecv _ [] => [none]
  | .dataRecv _ p => p.map fun q => some q.payload
  | _ => []

def State.awaited : State → Option ℕ
  | .connected => some 220
  | .userSent => some 331
  | .typeSent => some 200
  | .pasvSent => some 227
  | .retrSent | .storSent | .mlsdSent => some 150
  | .xfering => some 226
  | .deleSent | .rmdSent | .cwdSent | .rntoSent => some 250
  | .rnfrSent => some 350
  | .pwdSent => some 257
  | .quitSent => some 221
  -- the login ends with `LOGGED`
  | .passSent | .closed | .logged | .dataend | .quit | .closing | .cmdend => none

/-- The events after which `done_fn` may get another result than `OK`: another reply, the loss of the control connection,
and the loss of the data connection in a transfer. -/
def Tcp.fails (s : Session K U) : Tcp → Bool
  | .controlRecv _ (q :: _) true => response q ≠ 0 ∧ s.controlState.awaited ≠ some (response q)
  | .controlRecv _ _ _ | .controlErr _ => true
  | .dataErr _ => s.controlState = .xfering
  | _ => false

def Session.results (s : Session K U) : List (Obs K) := s.trace.filter Obs.isDone

structure Turn (c : Caller K U) (e : Tcp) (s m : Session K U) : Prop where
  user : m.user = s.user
  usr : ∀ P : U → Prop, (∀ k b n u, P u → P (c.source k b n u).2) →
    (∀ k d u, s.user.dataSink = some k → d ∈ e.payloads s → P u → P (c.sink k d u)) → P s.usr → P m.usr
  results : m.results = s.results
  pwd : m.controlState = .pwdSent → s.controlState = .pwdSent

def Tcp.result (s : Session K U) : Tcp → Option Result
  | .controlRecv _ (q :: _) true => if response q = 0 then none else s.controlState.answer (response q)
  | .controlRecv _ [] true => some .errClosed
  | .controlRecv _ _ false => some .errUnknown
  | .controlErr _ => some (if s.controlState = .closed then .errConnect else .errClosed)
  | .dataErr _ => if s.controlState = .xfering then some .errSrvrResp else none
  | .controlConnected _ _ | .controlSent _ _ | .dataConnected _ _ | .dataRecv _ _ | .dataSent _ _ => none

structure Quiet (c : Caller K U) (e : Tcp) (s m : Session K U) : Prop where
  turn : Turn c e s m
  pwd : s.controlState = .pwdSent → ∀ pc q qs, e = .controlRecv pc (q :: qs) true → response q ≠ 257
  rest : s.controlState = .logged ∨ s.controlState = .pwdSent → m.controlState = s.controlState
  closed : s.controlState = .closed → s.controlPcb = none → m.controlState = .closed ∧ m.controlPcb = none

/-- An event with a callback that gets the result `r`. -/
inductive Ended (c : Caller K U) (e : Tcp) (s : Session K U) (r : Result) : Session K U → Prop
  /-- the end of an operation or of the connection -/
  | ends {m : Session K U} (t : Turn c e s m) (hd : e.payloads s = []) (hr : r.ends)
      (hs : m.controlState = .logged ∧ m.dataPcb = none ∧ s.controlState ≠ .logged ∧ s.controlState ≠ .closed ∨
        m.controlState = .closed ∧ m.controlPcb = none)
      (hok : r = .ok ∨ r = .logged → s.controlState ≠ .pwdSent ∧ s.controlState ≠ .logged ∧ s.controlState ≠ .closed ∧
        (m.controlState = .closed → s.controlState = .quitSent ∧ ∃ pc q qs, e = .controlRecv pc (q :: qs) true))
      (herr : r ≠ .ok → e.fails s) :
      Ended c e s r (m.callDone c r)
  /-- the reply to PWD is passed on to `data_sink` -/
  | pwd (pc : Pcb) (q : Pbuf) (qs : List Pbuf) (he : e = .controlRecv pc (q :: qs) true) (hs : s.controlState = .pwdSent)
      (hq : response q = 257) (hr : r = .ok) :
      Ended c e s r ((((readReply 257 s).callSink c (some q.payload)).goto .logged).callDone c r)

def Turned (c : Caller K U) (e : Tcp) (s m : Session K U) : Prop :=
  match e.result s with
  | none => Quiet c e s m
  | some r => Ended c e s r m

/-! ### Pieces -/

/-- From `s` to `m` no function of the caller has been called. -/
structure Uncalled (s m : Session K U) : Prop where
  user : m.user = s.user
  usr : m.usr = s.usr
  results : m.results = s.results

lemma Uncalled.trans {t : Session K U} (h : Uncalled s m) (h' : Uncalled m t) : Uncalled s t :=
  ⟨h'.user.trans h.user, h'.usr.trans h.usr, h'.results.trans h.results⟩

lemma Turn.frame (h : Uncalled s m) (hp : m.controlState = .pwdSent → s.controlState = .pwdSent) : Turn c e s m :=
  ⟨h.user, fun _ _ _ hs => h.usr ▸ hs, h.results, hp⟩

lemma Sent.uncalled {v : Verb} (h : Sent v s m) : Uncalled s m := by
  cases h <;> exact ⟨rfl, rfl, rfl⟩

lemma dropData_uncalled (s : Session K U) : Uncalled s (dropData s) := by
  unfold dropData
  split <;> exact ⟨rfl, rfl, rfl⟩

lemma closeAll_uncalled (s : Session K U) : Uncalled s (closeAll s) := by
  have hc : ∀ s : Session K U, Uncalled s ((dropControl s).goto .closed) := by
    intro s
    unfold dropControl
    split <;> exact ⟨rfl, rfl, rfl⟩
  exact (dropData_uncalled s).trans (hc (dropData s))

lemma closeAll_closed (s : Session K U) : (closeAll s).controlState = .closed ∧ (closeAll s).controlPcb = none := by
  obtain ⟨t, ht⟩ := dropControl_eq (dropData s)
  unfold closeAll
  rw [ht]
  exact ⟨rfl, rfl⟩

lemma lwftpDataOpen_uncalled (q : Pbuf) (s : Session K U) : Uncalled s (lwftpDataOpen q s) := by
  unfold lwftpDataOpen
  simp only
  split
  · exact ⟨rfl, rfl, rfl⟩
  · split <;> exact ⟨rfl, rfl, rfl⟩

lemma Turned.quiet (hr : e.result s = none) (h : Quiet c e s m) : Turned c e s m := by
  unfold Turned
  rw [hr]
  exact h

lemma Turned.ended (hr : e.result s = some r) (h : Ended c e s r m) : Turned c e s m := by
  unfold Turned
  rw [hr]
  exact h

lemma Turned.other (hr : e.result s = none) (h : Uncalled s m) (hp : m.controlState ≠ .pwdSent)
    (h1 : s.controlState ≠ .logged) (h2 : s.controlState ≠ .pwdSent) (h3 : s.controlState ≠ .closed) :
    Turned c e s m :=
  .quiet hr ⟨.frame h fun h => absurd h hp, fun h => absurd h h2, fun h => (h.elim h1 h2).elim, fun h => absurd h h3⟩

lemma Turned.same (hr : e.result s = none) (t : Turn c e s m)
    (hd : s.controlState = .pwdSent → ∀ pc q qs, e = .controlRecv pc (q :: qs) true → response q ≠ 257)
    (hs : m.controlState = s.controlState) (hp : m.controlPcb = s.controlPcb) : Turned c e s m :=
  .quiet hr ⟨t, hd, fun _ => hs, fun h1 h2 => ⟨hs.trans h1, hp.trans h2⟩⟩

lemma payloads_controlRecv {pc : Pcb} {q : Pbuf} {qs : List Pbuf}
    (h : s.controlState = .pwdSent → response q ≠ 257) : (controlRecv pc (q :: qs) true).payloads s = [] :=
  if_neg fun hx => h hx.1 hx.2

lemma answer_not_awaited {n : ℕ} (h : st.answer n = some r) (hr : r ≠ .ok) : st.awaited ≠ some n := by
  cases st <;> grind [State.answer, State.awaited, result250]

lemma result_fails (h : e.result s = some r) (hr : r ≠ .ok) : e.fails s := by
  cases e with
  | controlRecv p q ok =>
    cases q with
    | nil => rfl
    | cons q qs =>
      cases ok with
      | false => rfl
      | true =>
        simp only [result, ite_none_left_eq_some] at h
        simpa only [fails, decide_eq_true_eq] using ⟨h.1, answer_not_awaited h.2 hr⟩
  | controlErr p => rfl
  | dataErr p => simpa only [fails, decide_eq_true_eq] using (ite_none_right_eq_some.1 h).1
  | _ => cases h

lemma result_ok (h : e.result s = some .ok) : ∃ pc q qs, e = .controlRecv pc (q :: qs) true := by
  cases e with
  | controlRecv p q ok =>
    cases q with
    | nil => cases ok <;> cases h
    | cons q qs =>
      cases ok with
      | false => cases h
      | true => exact ⟨p, q, qs, rfl⟩
  | controlErr p =>
    simp only [result] at h
    split_ifs at h <;> cases h
  | dataErr p => cases (ite_none_right_eq_some.1 h).2
  | _ => cases h

lemma Turned.finish (hres : e.result s = some r) (h : Uncalled s m) (hd : e.payloads s = []) (hr : r.ends)
    (hm : m.controlState = .logged) (hp : m.dataPcb = none) (h1 : s.controlState ≠ .logged) (h2 : s.controlState ≠ .closed)
    (h3 : r = .ok ∨ r = .logged → s.controlState ≠ .pwdSent) : Turned c e s (m.callDone c r) := by
  have hne : ∀ st : State, st ≠ .logged → m.controlState ≠ st := fun st hst hm' => hst (hm'.symm.trans hm)
  exact .ended hres (.ends (.frame h fun h => absurd h (hne _ (by decide))) hd hr (.inl ⟨hm, hp, h1, h2⟩)
    (fun h => ⟨h3 h, h1, h2, fun h => absurd h (hne _ (by decide))⟩) (result_fails hres))

lemma Turned.close (hres : e.result s = some r) (h : Uncalled s m) (hd : e.payloads s = []) (hr : r.ends)
    (hq : r = .ok ∨ r = .logged → s.controlState = .quitSent ∧ ∃ pc q qs, e = .controlRecv pc (q :: qs) true) :
    Turned c e s ((closeAll m).callDone c r) := by
  obtain ⟨h1, h2⟩ := closeAll_closed m
  refine .ended hres (.ends (.frame (h.trans (closeAll_uncalled m)) ?_) hd hr (.inr ⟨h1, h2⟩) (fun hk => ?_) (result_fails hres))
  · intro hp
    cases hp
  · simp [(hq hk).1, (hq hk).2]

/-! ### The source -/

lemma writeData_uncalled (d : Bytes) (s : Session K U) : Uncalled s (writeData d s) := by
  unfold writeData
  split
  · exact dropData_uncalled s
  · exact ⟨rfl, rfl, rfl⟩

lemma writeData_control (d : Bytes) (s : Session K U) :
    (writeData d s).controlState = s.controlState ∧ (writeData d s).controlPcb = s.controlPcb := by
  unfold writeData
  split
  · obtain ⟨t, ht⟩ := dropData_eq s
    rw [ht]
    exact ⟨rfl, rfl⟩
  · exact ⟨rfl, rfl⟩

lemma lwftpDataSent_same (len : ℕ) (s : Session K U) :
    (lwftpDataSent c len s).user = s.user ∧ (lwftpDataSent c len s).controlState = s.controlState ∧
    (lwftpDataSent c len s).controlPcb = s.controlPcb ∧ (lwftpDataSent c len s).results = s.results ∧
    ∀ P : U → Prop, (∀ k b n u, P u → P (c.source k b n u).2) → P s.usr → P (lwftpDataSent c len s).usr := by
  have next : ∀ s : Session K U, (lwftpSendNextData c s).user = s.user ∧
      (lwftpSendNextData c s).controlState = s.controlState ∧ (lwftpSendNextData c s).controlPcb = s.controlPcb ∧
      (lwftpSendNextData c s).results = s.results ∧
      ∀ P : U → Prop, (∀ k b n u, P u → P (c.source k b n u).2) → P s.usr → P (lwftpSendNextData c s).usr := by
    intro s
    unfold lwftpSendNextData
    simp only
    split
    · exact ⟨rfl, rfl, rfl, rfl, fun _ _ h => h⟩
    · next p _ =>
      have hu := writeData_uncalled (nextData c p (s.note (.sendNextData s.dataPcb))).1
        { s.note (.sendNextData s.dataPcb) with usr := (nextData c p (s.note (.sendNextData s.dataPcb))).2 }
      obtain ⟨h1, h2⟩ := writeData_control (nextData c p (s.note (.sendNextData s.dataPcb))).1
        { s.note (.sendNextData s.dataPcb) with usr := (nextData c p (s.note (.sendNextData s.dataPcb))).2 }
      refine ⟨hu.user, h1, h2, hu.results, fun P hP h => ?_⟩
      rw [hu.usr]
      unfold nextData
      split
      · exact h
      · exact hP _ _ _ _ h
  unfold lwftpDataSent
  split
  · exact next s
  · next k _ =>
    obtain ⟨h1, h2, h3, h4, h5⟩ := next { s with usr := (c.source k false len s.usr).2 }
    exact ⟨h1, h2, h3, h4, fun P hP h => h5 P hP (hP _ _ _ _ h)⟩

/-! ### The state machine -/

section Process

variable (hc : ∀ k r (s : Session K U), s.fault = false → Moves s (c.done k r s))
include hc

lemma process_turned (h : Wf s) (hf : s.fault = false) (pc : Pcb) (q : Pbuf) (p : List Pbuf) :
    Turned c (.controlRecv pc (q :: p) true) s (lwftpControlProcess c (q :: p) s) := by
  by_cases hq : response q = 0
  · rw [process_zero h hq]
    refine .same (by simp [result, hq]) (.frame ⟨rfl, rfl, rfl⟩ id) (fun _ pc' q' qs' heq => ?_) rfl rfl
    cases heq
    rw [hq]
    decide
  have hp := process_processed hc h hf hq p
  have hres : (controlRecv pc (q :: p) true).result s = s.controlState.answer (response q) := if_neg hq
  generalize hn0 : response q = n at hp hres
  generalize lwftpControlProcess c (q :: p) s = s' at hp
  have other : ∀ m : Session K U, s.controlState.answer n = none → Uncalled s m → m.controlState ≠ .pwdSent →
      s.controlState ≠ .logged ∧ s.controlState ≠ .pwdSent ∧ s.controlState ≠ .closed →
      Turned c (.controlRecv pc (q :: p) true) s m :=
    fun m ha hu hm hst => .other (hres.trans ha) hu hm hst.1 hst.2.1 hst.2.2
  cases hp with
  | ignored hi =>
    have hne : s.controlState ≠ .pwdSent := by rcases hi with hi | hi <;> simp [hi]
    refine .same (hres.trans ?_) (.frame ⟨rfl, rfl, rfl⟩ id) (fun h => absurd h hne) rfl rfl
    rcases hi with hi | hi <;> rw [hi] <;> rfl
  | @advance _ v st ha hs =>
    obtain ⟨hnone, hst, hne⟩ : s.controlState.answer n = none ∧ st ≠ .pwdSent ∧
        s.controlState ≠ .logged ∧ s.controlState ≠ .pwdSent ∧ s.controlState ≠ .closed := by
      revert ha
      generalize s.controlState = st0
      intro ha
      cases ha <;> decide
    exact other _ hnone ⟨hs.uncalled.user, hs.uncalled.usr, hs.uncalled.results⟩ hst hne
  | opens hst hn ht hs =>
    have hu := (lwftpDataOpen_uncalled q (readReply 227 s)).trans hs.uncalled
    refine other _ (by rw [hst]; rfl) ⟨hu.user, hu.usr, hu.results⟩ ?_ (by simp [hst])
    show s.targetState ≠ .pwdSent
    generalize s.targetState = st at ht
    cases ht <;> decide
  | refuse msgs hl ha =>
    refine other _ ha ⟨rfl, rfl, rfl⟩ (by simp [goto]) ⟨?_, ?_, ?_⟩ <;>
      · intro h'
        rw [h'] at hl
        cases hl
  | login hst hn =>
    have ha : s.controlState.answer n = some .logged := by rw [hst, hn]; rfl
    exact .finish (hres.trans ha) ⟨rfl, rfl, rfl⟩
      (payloads_controlRecv (by simp [hst])) rfl rfl (h.dataPcb_eq_none (by rw [hst]; rfl)) (by simp [hst]) (by simp [hst])
      (by simp [hst])
  | begins hst hn =>
    subst hn
    refine other _ ?_ ⟨rfl, rfl, rfl⟩ (by simp [goto]) ?_ <;> rcases hst with hst | hst <;> rw [hst] <;> decide
  | beginStor hst hn =>
    obtain ⟨h1, h2, h3, h4, h5⟩ := lwftpDataSent_same 0 ((readReply n s).goto .xfering)
    refine .quiet (by rw [hres, hst, hn]; rfl) ⟨⟨h1, fun P hP _ => h5 P hP, h4, ?_⟩, by simp [hst], by simp [hst],
      by simp [hst]⟩
    rw [h2]
    intro hx
    cases hx
  | @finishData r hfin ha =>
    have hst : s.controlState ≠ .logged ∧ s.controlState ≠ .closed ∧ s.controlState ≠ .pwdSent := by
      revert hfin
      generalize s.controlState = st
      intro hfin
      cases hfin <;> simp
    refine .finish (hres.trans ha)
      (Uncalled.trans (m := (readReply n s).goto .logged) ⟨rfl, rfl, rfl⟩ (dropData_uncalled _))
      (payloads_controlRecv fun h => absurd h hst.2.2) (answer_ends ha) ?_ (dropData_dataPcb _) hst.1 hst.2.1 (fun _ => hst.2.2)
    rw [dropData_controlState]
    rfl
  | @finishCmd v r hv ha hp =>
    have hst : s.controlState.hasData = false ∧ s.controlState ≠ .logged ∧ s.controlState ≠ .closed := by
      revert hv
      cases s.controlState <;> simp [State.cmd, State.hasData]
    refine .finish (hres.trans ha) ⟨rfl, rfl, rfl⟩
      (payloads_controlRecv (hn0 ▸ hp)) (answer_ends ha) rfl (h.dataPcb_eq_none hst.1) hst.2.1 hst.2.2 fun hr h' => ?_
    -- PWD ends with `OK` at 257 only
    rw [h'] at ha
    cases ha
    simp [hp h'] at hr
  | pwd hst hn =>
    subst hn
    exact .ended (by rw [hres, hst]; rfl) (.pwd pc q p rfl hst hn0 rfl)
  | closes hst =>
    have ha : s.controlState.answer n = some (if n = 221 then .ok else .errUnknown) := by rw [hst]; rfl
    exact .close (hres.trans ha) ⟨rfl, rfl, rfl⟩ (payloads_controlRecv (by simp [hst])) (answer_ends ha)
      fun _ => ⟨hst, pc, q, p, rfl⟩

end Process

/-! ### Events -/

lemma sinkAll_same (p : List Pbuf) (s : Session K U) : (sinkAll c p s).user = s.user ∧ (sinkAll c p s).controlState = s.controlState ∧
    (sinkAll c p s).controlPcb = s.controlPcb ∧ (sinkAll c p s).results = s.results ∧
    ∀ P : U → Prop, (∀ k d u, s.user.dataSink = some k → d ∈ p.map (fun q => some q.payload) → P u → P (c.sink k d u)) →
      P s.usr → P (sinkAll c p s).usr := by
  induction p generalizing s with
  | nil => exact ⟨rfl, rfl, rfl, rfl, fun _ _ h => h⟩
  | cons q p ih =>
    obtain ⟨h1, h2, h3, h4, h5⟩ := ih (s.callSink c (some q.payload))
    unfold sinkAll
    rw [h1, h2, h3, h4]
    unfold callSink at h5 ⊢
    split at h5
    · exact ⟨rfl, rfl, rfl, rfl, fun P hP h => h5 P (fun k d u hk hd => hP k d u hk (mem_cons_of_mem _ hd)) h⟩
    · next k hk =>
      refine ⟨rfl, rfl, rfl, rfl, fun P hP h => h5 P (fun k d u hk hd => hP k d u hk (mem_cons_of_mem _ hd)) ?_⟩
      exact hP k _ _ hk mem_cons_self h

lemma dataRecv_turned (p : Pcb) (q : List Pbuf) : Turned c (.dataRecv p q) s (lwftpDataRecv c q s) := by
  unfold lwftpDataRecv
  split_ifs with hq
  · subst hq
    have hd := (dropData_uncalled ((s.note (.dataFin s.controlState)).callSink c none)).results
    obtain ⟨t, ht⟩ := dropData_eq ((s.note (.dataFin s.controlState)).callSink c none)
    rw [ht] at hd ⊢
    unfold callSink at hd ⊢
    split at hd
    · exact .same rfl (.frame ⟨rfl, rfl, hd⟩ id) (by simp) rfl rfl
    · next k hk =>
      refine .same rfl ⟨rfl, fun P _ hP h => ?_, hd, id⟩ (by simp) rfl rfl
      exact hP k none _ hk mem_cons_self h
  · obtain ⟨h1, h2, h3, h4, h5⟩ := sinkAll_same q s
    refine .same rfl ⟨h1, fun P _ hP h => h5 P ?_ h, h4, fun h => h2 ▸ h⟩ (by simp) h2 h3
    obtain ⟨b, q, rfl⟩ := exists_cons_of_ne_nil hq
    exact hP

lemma dataErr_turned (p : Pcb) : Turned c (.dataErr p) s (lwftpDataErr c p s) := by
  by_cases hx : s.controlState = .xfering
  · rw [lwftpDataErr_xfering p hx]
    exact .finish (if_pos hx) ⟨rfl, rfl, rfl⟩ rfl rfl rfl rfl (by simp [hx]) (by simp [hx]) (by simp)
  · rw [lwftpDataErr_other p hx]
    exact .same (if_neg hx) (.frame ⟨rfl, rfl, rfl⟩ id) (by simp) rfl rfl

lemma handle_turned (hc : Lawful c) (h : Wf s) (hf : s.fault = false) (e : Tcp) (he : e.enabled s) : Turned c e s (e.handle c s) := by
  cases e with
  | controlConnected p ok =>
    have hl : s.link p = some ⟨.control, false⟩ := by simpa [enabled] using he
    have hst := h.connecting p hl
    have hpcb := h.linkControl p false hl
    have hturn : Turn c (.controlConnected p ok) s (lwftpControlConnected p ok s) := by
      cases ok with
      | false => exact .frame ⟨rfl, rfl, rfl⟩ id
      | true => exact .frame ⟨rfl, rfl, rfl⟩ fun h => by cases h
    exact .quiet rfl ⟨hturn, by simp, by simp [hst], by simp [hpcb]⟩
  | controlRecv p q ok =>
    cases ok with
    | false =>
      refine .close ?_ ⟨rfl, rfl, rfl⟩ ?_ rfl (by simp) <;> cases q <;> rfl
    | true =>
      cases q with
      | nil => exact .close rfl ⟨rfl, rfl, rfl⟩ rfl rfl (by simp)
      | cons q qs => exact process_turned hc.moves h hf p q qs
  | controlSent p len => exact .same rfl (.frame ⟨rfl, rfl, rfl⟩ id) (by simp) rfl rfl
  | controlErr p =>
    refine .close rfl ⟨rfl, rfl, rfl⟩ rfl ?_ ?_
    · split_ifs <;> rfl
    · split_ifs <;> simp
  | dataConnected p ok =>
    cases ok <;> exact .same rfl (.frame ⟨rfl, rfl, rfl⟩ id) (by simp) rfl rfl
  | dataRecv p q => exact dataRecv_turned p q
  | dataSent p len =>
    obtain ⟨h1, h2, h3, h4, h5⟩ := lwftpDataSent_same len { s with unacked := s.unacked - len }
    exact .same rfl ⟨h1, fun P hP _ => h5 P hP, h4, fun h => h2 ▸ h⟩ (by simp) h2 h3
  | dataErr p => exact dataErr_turned p

/-! ### Calls of the API -/

def Api.begins : Api → Option State
  | .retrieve _ | .store _ | .mlsd _ => some .typeSent
  | .delete => some .deleSent
  | .removeDir => some .rmdSent
  | .changeDir => some .cwdSent
  | .printDir => some .pwdSent
  | .move => some .rnfrSent
  | .connect _ _ | .close => none

def Api.given (u : User K) : Api → Bool
  | .retrieve new | .store new | .mlsd new => u.remotePath.isSome && new.isSome
  | .delete | .removeDir | .changeDir => u.remotePath.isSome
  | .move => u.remotePath.isSome && u.remoteNewPath.isSome
  | .printDir | .connect _ _ | .close => true

def Api.ready (s : Session K U) (a : Api) : Bool := s.controlState = .logged ∧ a.given s.user ∧ s.dataPcb.isNone

inductive Begun (c : Caller K U) (a : Api) (st : State) (s : Session K U) : Session K U → Prop
  | accepted {m : Session K U} (h : Uncalled s m) (hs : s.controlState = .logged) (hm : m.controlState = st) :
      Begun c a st s (m.callDone c .inprogress)
  | refused {m : Session K U} (r : Result) (hr : r = .errArgument ∨ r = .errMemory) (h : Uncalled s m)
      (hs : m.controlState = s.controlState) (hp : m.controlPcb = s.controlPcb) (hn : a.ready s = false) :
      Begun c a st s (m.callDone c r)

lemma lwftpTransfer_begun (target : State) (new : Option ℕ) (a : Api) (s : Session K U)
    (ha : a.given s.user = (s.user.remotePath.isSome && new.isSome)) :
    Begun c a .typeSent s (lwftpTransfer c (lwftpStart c target) new (s.note (.api a s.controlState))).1 := by
  unfold lwftpTransfer
  split_ifs with h
  · refine .refused .errArgument (.inl rfl) ⟨rfl, rfl, rfl⟩ rfl rfl ?_
    rw [Api.ready, ha, decide_eq_false_iff_not]
    rintro ⟨h1, h2, h3⟩
    rcases h with h | h | h
    · exact h h1
    · rw [show s.user.remotePath = none from h] at h2
      cases h2
    · exact h (isNone_iff_eq_none.1 h3)
  · have hst : s.controlState = .logged := by
      by_contra hne
      exact h (.inl hne)
    cases new with
    | none => exact .refused .errMemory (.inr rfl) ⟨rfl, rfl, rfl⟩ rfl rfl (by simp [Api.ready, ha])
    | some mss =>
      simp only [exit, lwftpStart, note, hst, if_true]
      exact .accepted ⟨rfl, rfl, rfl⟩ hst rfl

lemma lwftpCommand_begun (args : User K → Bool) (line : Session K U → Session K U) (hline : ∀ s, Uncalled s (line s))
    (st : State) (a : Api) (s : Session K U) (ha : a.given s.user = args s.user) :
    Begun c a st s (lwftpCommand c args (lwftpSend c line st) (s.note (.api a s.controlState))).1 := by
  unfold lwftpCommand
  split_ifs with h
  · refine .refused .errArgument (.inl rfl) ⟨rfl, rfl, rfl⟩ rfl rfl ?_
    rw [Api.ready, ha, decide_eq_false_iff_not]
    rintro ⟨h1, h2, h3⟩
    rcases h with h | h | h
    · exact h h1
    · cases h.symm.trans h2
    · exact h (isNone_iff_eq_none.1 h3)
  · have hst : s.controlState = .logged := by
      by_contra hne
      exact h (.inl hne)
    simp only [exit, lwftpSend]
    rw [if_pos (show (s.note (.api a s.controlState)).controlState = .logged from hst)]
    have hu := hline (s.note (.api a s.controlState))
    exact .accepted ⟨hu.user, hu.usr, hu.results⟩ hst rfl

lemma callApi_begun {a : Api} (ha : a.begins = some st) (s : Session K U) : Begun c a st s (callApi c a s) := by
  cases a with
  | connect _ _ | close => cases ha
  | retrieve new =>
    cases ha
    exact lwftpTransfer_begun .retrSent new _ s rfl
  | store new =>
    cases ha
    exact lwftpTransfer_begun .storSent new _ s rfl
  | mlsd new =>
    cases ha
    exact lwftpTransfer_begun .mlsdSent new _ s rfl
  | printDir =>
    cases ha
    exact lwftpCommand_begun _ (sendLine .pwd "PWD\r\n") (fun _ => ⟨rfl, rfl, rfl⟩) .pwdSent _ s rfl
  | delete | removeDir | changeDir | move =>
    cases ha
    exact lwftpCommand_begun _ _ (fun s => (sendArg_sent rfl s).uncalled) _ _ s rfl

lemma callApi_close_uncalled (s : Session K U) : Uncalled s (callApi c .close s) := by
  simp only [callApi, lwftpClose, lwftpSendQUIT]
  split_ifs <;> exact ⟨rfl, rfl, rfl⟩

lemma callApi_close_control (s : Session K U) :
    (callApi c .close s).controlState = s.controlState ∧ (callApi c .close s).controlPcb = s.controlPcb ∨
      (callApi c .close s).controlState = .quitSent := by
  simp only [callApi, lwftpClose, lwftpSendQUIT]
  split_ifs
  · exact .inl ⟨rfl, rfl⟩
  · exact .inl ⟨rfl, rfl⟩
  · exact .inr rfl

end LwftpCe.Lwftp
