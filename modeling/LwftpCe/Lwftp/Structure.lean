import LwftpCe.Lwftp.Moves

/-!
# The structure invariant of the session

`Wf s` says what holds of the fields of the session between events: which pointers are set in which state, what the
target state is, and that the callbacks registered in the stack belong to the blocks the session holds.  Every move keeps
it (`Move.wf`), and under it every event is a sequence of moves (`step_moves`).
-/

namespace LwftpCe.Lwftp

open List Function Session State

variable {K U : Type} {st : State} {s : Session K U} {v : Verb} {s' : Session K U}

def State.hasData : State → Bool
  | .typeSent | .pasvSent | .retrSent | .storSent | .mlsdSent | .xfering | .quitSent => true
  | _ => false

def State.transient : State → Bool
  | .dataend | .cmdend | .quit | .closing => true
  | _ => false

def State.opening : State → Bool
  | .typeSent | .pasvSent => true
  | _ => false

structure Wf (s : Session K U) : Prop where
  control : s.controlState ≠ .closed → s.controlPcb ≠ none
  data : s.dataPcb ≠ none → s.controlState.hasData
  stable : s.controlState.transient = false
  target : s.controlState.opening → ∃ v, Transfer v s.targetState
  live : s.controlState.opening → s.dataPcb ≠ none
  /-- a data block is connected only by the PASV reply -/
  unopened : s.controlState.opening → ∀ p up, s.link p ≠ some ⟨.data, up⟩
  linkData : ∀ p up, s.link p = some ⟨.data, up⟩ → s.dataPcb = some p
  linkControl : ∀ p up, s.link p = some ⟨.control, up⟩ → s.controlPcb = some p
  connecting : ∀ p, s.link p = some ⟨.control, false⟩ → s.controlState = .closed
  fresh : ∀ p, s.nextPcb ≤ p.id → s.link p = none
  freshData : ∀ p, s.dataPcb = some p → p.id < s.nextPcb
  freshControl : ∀ p, s.controlPcb = some p → p.id < s.nextPcb
  /-- only an upload writes on the data connection -/
  upload : s.dataPcb ≠ none → 0 < s.unacked → s.controlState = .xfering ∨ s.controlState = .quitSent

lemma wf_initial (user : User K) (usr : U) : Wf (initial user usr) := by
  constructor <;> simp [initial, transient, opening]

/-! ### What the pieces of a move keep -/

section Pieces

variable {s : Session K U} {p : Pcb} {up : Bool}

lemma Wf.frame (h : Wf s) (user : User K) (usr : U) (trace : List (Obs K)) (fault : Bool) (dataState : State) :
    Wf { s with user, usr, trace, fault, dataState } :=
  ⟨h.control, h.data, h.stable, h.target, h.live, h.unopened, h.linkData, h.linkControl, h.connecting, h.fresh,
    h.freshData, h.freshControl, h.upload⟩

lemma noteDone_eq (s : Session K U) (r : Result) : ∃ t, s.noteDone r = { s with trace := t ++ s.trace } := by
  unfold noteDone
  split
  · exact ⟨[], rfl⟩
  · next k _ => exact ⟨[.done k r], rfl⟩

lemma Wf.noteDone (h : Wf s) (r : Result) : Wf (s.noteDone r) := by
  obtain ⟨t, ht⟩ := noteDone_eq s r
  rw [ht]
  exact h.frame s.user s.usr _ s.fault s.dataState

lemma Wf.goto (h : Wf s) (st : State) (hs : s.controlState ≠ .closed) (ht : st.transient = false) (ho : st.opening = false)
    (hd : s.dataPcb ≠ none → st.hasData ∧ (0 < s.unacked → st = .xfering ∨ st = .quitSent)) : Wf (s.goto st) where
  control := fun _ => h.control hs
  data := fun hp => (hd hp).1
  stable := ht
  target := fun h' => absurd (ho.symm.trans h') (by simp)
  live := fun h' => absurd (ho.symm.trans h') (by simp)
  unopened := fun h' => absurd (ho.symm.trans h') (by simp)
  linkData := h.linkData
  linkControl := h.linkControl
  connecting := fun p hp => absurd (h.connecting p hp) hs
  fresh := h.fresh
  freshData := h.freshData
  freshControl := h.freshControl
  upload := fun hp => (hd hp).2

def unlink (l : Pcb → Option Link) (q : Option Pcb) : Pcb → Option Link := fun p => if q = some p then none else l p

lemma unlink_none (l : Pcb → Option Link) : unlink l none = l := by
  funext p
  simp [unlink]

lemma unlink_some (l : Pcb → Option Link) (q : Pcb) : unlink l (some q) = update l q none := by
  funext p
  by_cases hp : p = q
  · simp [unlink, hp]
  · simp [unlink, hp, Ne.symm hp]

lemma unlink_eq_some {l : Pcb → Option Link} {q : Option Pcb} {k : Link} : unlink l q p = some k ↔ q ≠ some p ∧ l p = some k := by
  unfold unlink
  split <;> simp_all

lemma dropData_eq (s : Session K U) :
    ∃ t, dropData s = { s with trace := t ++ s.trace, dataPcb := none, link := unlink s.link s.dataPcb } := by
  unfold dropData
  split
  · next hd => exact ⟨[], by rw [hd, unlink_none]; simp [← hd]⟩
  · next p hd => exact ⟨[.close p], by rw [hd, unlink_some]; rfl⟩

lemma dropControl_eq (s : Session K U) :
    ∃ t, dropControl s = { s with trace := t ++ s.trace, controlPcb := none, link := unlink s.link s.controlPcb } := by
  unfold dropControl
  split
  · next hd => exact ⟨[], by rw [hd, unlink_none]; simp [← hd]⟩
  · next p hd => exact ⟨[.close p], by rw [hd, unlink_some]; rfl⟩

lemma Wf.dropData (h : Wf s) (ho : s.controlState.opening = false) : Wf (dropData s) := by
  obtain ⟨t, ht⟩ := dropData_eq s
  rw [ht]
  refine ⟨h.control, fun hp => absurd rfl hp, h.stable, h.target, ?_, ?_, ?_, ?_, ?_, ?_, ?_, h.freshControl, ?_⟩
  · exact fun h' => absurd (ho.symm.trans h') (by simp)
  · exact fun h' => absurd (ho.symm.trans h') (by simp)
  · intro p up hp
    -- the only block with the callbacks of a data connection is the one that was dropped
    obtain ⟨hne, hp⟩ := unlink_eq_some.1 hp
    exact absurd (h.linkData p up hp) hne
  · exact fun p up hp => h.linkControl p up (unlink_eq_some.1 hp).2
  · exact fun p hp => h.connecting p (unlink_eq_some.1 hp).2
  · intro p hp
    simp [unlink, h.fresh p hp]
  · intro p hp
    cases hp
  · exact fun hp => absurd rfl hp

lemma closeAll_eq (hD : ∀ p up, s.link p = some ⟨.data, up⟩ → s.dataPcb = some p)
    (hC : ∀ p up, s.link p = some ⟨.control, up⟩ → s.controlPcb = some p) :
    ∃ t, closeAll s = { s with
      controlState := .closed, trace := t ++ s.trace, controlPcb := none, dataPcb := none, link := fun _ => none } := by
  obtain ⟨t, ht⟩ := dropData_eq s
  obtain ⟨u, hu⟩ := dropControl_eq (dropData s)
  refine ⟨u ++ t, ?_⟩
  unfold closeAll
  rw [hu, ht]
  simp only [goto, append_assoc]
  congr 1
  funext p
  -- a registered block is the control block or the data block, and both are dropped
  by_contra hne
  obtain ⟨⟨role, up⟩, hl⟩ := Option.ne_none_iff_exists'.1 hne
  obtain ⟨h1, h2⟩ := unlink_eq_some.1 hl
  obtain ⟨h3, h4⟩ := unlink_eq_some.1 h2
  cases role with
  | control => exact h1 (hC p up h4)
  | data => exact h3 (hD p up h4)

lemma wf_closeAll (hD : ∀ p up, s.link p = some ⟨.data, up⟩ → s.dataPcb = some p)
    (hC : ∀ p up, s.link p = some ⟨.control, up⟩ → s.controlPcb = some p) : Wf (closeAll s) := by
  obtain ⟨t, ht⟩ := closeAll_eq hD hC
  rw [ht]
  constructor <;> simp [transient, opening]

lemma Wf.closeAll (h : Wf s) : Wf (closeAll s) := wf_closeAll h.linkData h.linkControl

lemma Wf.not_opening (h : Wf s) (hp : s.link p = some ⟨.data, up⟩) : s.controlState.opening = false := by
  by_contra ho
  exact h.unopened (by simpa using ho) p up hp

lemma Wf.dataErr (h : Wf s) (hp : s.link p = some ⟨.data, up⟩) (trace : List (Obs K)) :
    Wf { s.setLink p none with dataPcb := none, trace } := by
  obtain ⟨t, ht⟩ := dropData_eq s
  have hd := h.dropData (h.not_opening hp)
  rw [ht, h.linkData p up hp, unlink_some] at hd
  exact hd.frame s.user s.usr trace s.fault s.dataState

lemma dropData_goto (s : Session K U) (st : State) : dropData (s.goto st) = (dropData s).goto st := by
  obtain ⟨_, _, _, _, _, dataPcb, _, _, _, _, _, _⟩ := s
  cases dataPcb <;> rfl

lemma closeAll_goto (s : Session K U) (st : State) : closeAll (s.goto st) = closeAll s := by
  obtain ⟨_, _, _, _, controlPcb, dataPcb, _, _, _, _, _, _⟩ := s
  cases dataPcb <;> cases controlPcb <;> rfl

lemma dropData_dataPcb (s : Session K U) : (dropData s).dataPcb = none := by
  obtain ⟨t, ht⟩ := dropData_eq s
  rw [ht]

lemma dropData_controlState (s : Session K U) : (dropData s).controlState = s.controlState := by
  obtain ⟨t, ht⟩ := dropData_eq s
  rw [ht]

lemma Wf.setLink_data (h : Wf s) (p : Pcb) (up : Bool) (hp : s.dataPcb = some p)
    (ho : s.controlState.opening = false) : Wf (s.setLink p (some ⟨.data, up⟩)) := by
  have hl : ∀ q k, (s.setLink p (some ⟨.data, up⟩)).link q = some k → (q = p ∧ k = ⟨.data, up⟩) ∨ s.link q = some k := by
    intro q k hq
    by_cases hqp : q = p
    · subst hqp
      simp only [setLink, update_self, Option.some.injEq] at hq
      exact .inl ⟨rfl, hq.symm⟩
    · simp only [setLink, update_of_ne hqp] at hq
      exact .inr hq
  refine ⟨h.control, h.data, h.stable, h.target, h.live, ?_, ?_, ?_, ?_, ?_, h.freshData, h.freshControl, h.upload⟩
  · exact fun h' => absurd (ho.symm.trans h') (by simp)
  · intro q u hq
    rcases hl q _ hq with ⟨rfl, -⟩ | hq
    · exact hp
    · exact h.linkData q u hq
  · intro q u hq
    rcases hl q _ hq with ⟨-, he⟩ | hq
    · cases he
    · exact h.linkControl q u hq
  · intro q hq
    rcases hl q _ hq with ⟨-, he⟩ | hq
    · cases he
    · exact h.connecting q hq
  · intro q (hq : s.nextPcb ≤ q.id)
    have hne : q ≠ p := by
      rintro rfl
      exact absurd (h.freshData q hp) (by omega)
    simp only [setLink, update_of_ne hne]
    exact h.fresh q hq

end Pieces

/-! ### Every move keeps the invariant -/

lemma Transfer.not_opening (h : Transfer v st) : st.opening = false ∧ st.transient = false ∧ st.hasData = true := by
  cases h <;> decide

lemma Wf.dataOpen (h : Wf s) (q : Pbuf) (hs : s.controlState = .pasvSent)
    (ho : st.opening = false) (ht : st.transient = false) (hd : st.hasData = true) :
    Wf ((lwftpDataOpen q s).goto st) := by
  have hup : 0 < s.unacked → False := by
    intro hu
    rcases h.upload (h.live (by rw [hs]; rfl)) hu with h' | h' <;> simp [hs] at h'
  have hg : Wf (s.goto st) :=
    h.goto st (by simp [hs]) ht ho fun _ => ⟨hd, fun hu => (hup hu).elim⟩
  unfold lwftpDataOpen
  simp only
  split
  · exact hg.frame s.user s.usr _ s.fault s.dataState
  · split
    · exact hg.frame s.user s.usr _ true s.dataState
    · next p hp => exact (hg.setLink_data p false hp ho).frame s.user s.usr _ s.fault s.dataState

lemma Wf.readReply (h : Wf s) (code : ℕ) : Wf (readReply code s) :=
  h.frame s.user s.usr _ s.fault s.dataState

lemma Wf.readReply_goto (h : Wf (s.goto st)) (code : ℕ) : Wf ((Lwftp.readReply code s).goto st) :=
  h.frame s.user s.usr _ s.fault s.dataState

lemma Wf.sent_goto (h : Wf (s.goto st)) (hs : Sent v s s') : Wf (s'.goto st) := by
  cases hs with
  | send msgs => exact h.frame s.user s.usr _ s.fault s.dataState
  | null => exact h.frame s.user s.usr s.trace true s.dataState

lemma Wf.setLink_control (h : Wf s) (p : Pcb) (up : Bool) (st : State) (next : ℕ)
    (hd : s.dataPcb = none) (hc : ∀ q, s.controlPcb = some q → q = p) (hp : p.id < next) (hn : s.nextPcb ≤ next)
    (hst : st = .closed ∨ st = .connected ∧ up = true) :
    Wf { s with
      link := update s.link p (some ⟨.control, up⟩), controlPcb := some p, controlState := st,
      nextPcb := next } := by
  have hl : ∀ q k, update s.link p (some ⟨.control, up⟩) q = some k → q = p ∧ k = ⟨.control, up⟩ := by
    intro q k hq
    by_cases hqp : q = p
    · subst hqp
      simp only [update_self, Option.some.injEq] at hq
      exact ⟨rfl, hq.symm⟩
    · simp only [update_of_ne hqp] at hq
      obtain ⟨role, up'⟩ := k
      cases role with
      | control => exact absurd (hc q (h.linkControl q up' hq)) hqp
      | data =>
        rw [h.linkData q up' hq] at hd
        cases hd
  have ho : st.opening = false := by rcases hst with rfl | ⟨rfl, -⟩ <;> rfl
  refine ⟨fun _ => by simp, fun hne => absurd hd hne, ?_, ?_, ?_, ?_, ?_, ?_, ?_, ?_, ?_, ?_, fun hne => absurd hd hne⟩
  · rcases hst with rfl | ⟨rfl, -⟩ <;> rfl
  · exact fun h' => absurd (ho.symm.trans h') (by simp)
  · exact fun h' => absurd (ho.symm.trans h') (by simp)
  · exact fun h' => absurd (ho.symm.trans h') (by simp)
  · intro q u hq
    cases (hl q _ hq).2
  · intro q u hq
    rw [(hl q _ hq).1]
  · intro q hq
    rcases hst with rfl | ⟨-, rfl⟩
    · rfl
    · cases (hl q _ hq).2
  · intro q hq
    have hne : q ≠ p := by
      rintro rfl
      simp only at hq
      omega
    show update s.link p _ q = none
    rw [update_of_ne hne]
    exact h.fresh q (le_trans hn hq)
  · intro q (hq : s.dataPcb = some q)
    rw [hd] at hq
    cases hq
  · intro q hq
    cases hq
    exact hp

lemma Wf.dataPcb_eq_none (h : Wf s) (hs : s.controlState.hasData = false) : s.dataPcb = none := by
  by_contra hne
  exact absurd (hs.symm.trans (h.data hne)) (by simp)

lemma Move.wf (h : Wf s) (m : Move s s') : Wf s' := by
  cases m with
  | caller user usr => exact h.frame user usr s.trace s.fault s.dataState
  | note _ _ | noQuit _ => exact h.frame s.user s.usr _ s.fault s.dataState
  | report r _ => exact h.noteDone r
  | fault => exact h.frame s.user s.usr s.trace true s.dataState
  | connect mss h1 h2 h3 =>
    have := h.setLink_control (s.newPcb mss) false .closed (s.nextPcb + 1) h3 (by simp [h2])
      (by simp [newPcb]) (by omega) (.inl rfl)
    rw [← h1] at this
    exact this
  | noConnect _ => exact h.closeAll.noteDone _
  | connected p ok hp =>
    have hst := h.connecting p hp
    have hc := h.linkControl p false hp
    have hd := h.dataPcb_eq_none (by rw [hst]; rfl)
    have key := fun st => h.setLink_control p true st s.nextPcb hd (by simp [hc]) (h.freshControl p hc) le_rfl
    simp only [← hc] at key
    cases ok with
    | true => exact (key .connected (.inr ⟨rfl, trivial⟩)).frame s.user s.usr _ s.fault s.dataState
    | false =>
      have := key .closed (.inl rfl)
      rw [← hst] at this
      exact this
  | ignored code _ => exact h.readReply code
  | advance s1 code v st ha hs =>
    have hg : Wf (s.goto st) := by
      revert ha
      generalize hst : s.controlState = st0
      intro ha
      have hs0 : s.controlState ≠ .closed := by cases ha <;> simp [hst]
      cases ha with
      | pasv =>
        refine ⟨fun _ => h.control hs0, fun _ => rfl, rfl, fun _ => h.target (by rw [hst]; rfl),
          fun _ => h.live (by rw [hst]; rfl), fun _ => h.unopened (by rw [hst]; rfl), h.linkData, h.linkControl,
          fun p hp => absurd (h.connecting p hp) hs0, h.fresh, h.freshData, h.freshControl, ?_⟩
        exact fun hd hu => (h.upload hd hu).elim (by simp [hst]) (by simp [hst])
      | user | pass | rnto =>
        have hd := h.dataPcb_eq_none (by rw [hst]; rfl)
        exact h.goto _ hs0 rfl rfl fun hne => absurd hd hne
    exact Wf.sent_goto (hg.readReply_goto code) hs
  | opens s1 q v hst ht hs =>
    obtain ⟨ho, htr, hd⟩ := ht.not_opening
    exact Wf.sent_goto ((h.readReply 227).dataOpen q hst ho htr hd) hs
  | refuse code msgs hl _ =>
    have hs0 : s.controlState ≠ .closed := by rintro h'; rw [h'] at hl; cases hl
    exact (h.goto .quitSent hs0 rfl rfl fun _ => ⟨rfl, fun _ => .inr rfl⟩).frame s.user s.usr _ s.fault s.dataState
  | login hst =>
    have hd := h.dataPcb_eq_none (by rw [hst]; rfl)
    have hg := h.goto .logged (by simp [hst]) rfl rfl fun hne => absurd hd hne
    exact (hg.frame s.user s.usr _ s.fault s.dataState).noteDone _
  | begins hst =>
    have hs0 : s.controlState ≠ .closed := by rcases hst with h' | h' <;> simp [h']
    exact (h.goto .xfering hs0 rfl rfl fun _ => ⟨rfl, fun _ => .inl rfl⟩).frame s.user s.usr _ s.fault s.dataState
  | beginStor usr hst =>
    exact (h.goto .xfering (by simp [hst]) rfl rfl fun _ => ⟨rfl, fun _ => .inl rfl⟩).frame s.user usr _ s.fault
      s.dataState
  | write d hst =>
    exact ⟨h.control, h.data, h.stable, h.target, h.live, h.unopened, h.linkData, h.linkControl, h.connecting, h.fresh,
      h.freshData, h.freshControl, fun _ _ => hst⟩
  | acked n =>
    refine ⟨h.control, h.data, h.stable, h.target, h.live, h.unopened, h.linkData, h.linkControl, h.connecting, h.fresh,
      h.freshData, h.freshControl, fun hd hu => h.upload hd ?_⟩
    simp only at hu
    omega
  | eof hst => exact h.dropData (by rcases hst with h' | h' <;> rw [h'] <;> rfl)
  | finishData code r hf _ =>
    have hst : s.controlState ≠ .closed ∧ s.controlState.opening = false := by
      revert hf
      generalize s.controlState = st
      intro hf
      cases hf <;> simp [opening]
    rw [dropData_goto]
    refine Wf.noteDone (Wf.goto ((h.readReply code).dropData hst.2) .logged ?_ rfl rfl ?_) _
    · rw [dropData_controlState]
      exact hst.1
    · exact fun hne => absurd (dropData_dataPcb _) hne
  | finishCmd code v r sk usr hst _ _ _ =>
    have hst' : s.controlState ≠ .closed ∧ s.controlState.hasData = false := by
      revert hst
      cases s.controlState <;> simp [cmd, hasData]
    have hd := h.dataPcb_eq_none hst'.2
    have hg := h.goto .logged hst'.1 rfl rfl fun hne => absurd hd hne
    exact (hg.frame s.user usr _ s.fault s.dataState).noteDone _
  | dataUp p ok hp =>
    have := h.setLink_data p true (h.linkData p false hp) (h.not_opening hp)
    cases ok with
    | true => exact this.frame s.user s.usr s.trace s.fault .connected
    | false => exact this
  | dataFin p sk usr hp => exact (h.frame s.user usr _ s.fault s.dataState).dropData (h.not_opening hp)
  | dataErr p up hp _ => exact h.dataErr hp _
  | dataErrEnd p up hp hx =>
    refine Wf.noteDone (Wf.goto (h.dataErr hp _) .logged ?_ rfl rfl ?_) _
    · show s.controlState ≠ .closed
      simp [hx]
    · exact fun hne => absurd rfl hne
  | closes code hst _ => exact (h.readReply code).closeAll.noteDone _
  | hangup r _ => exact h.closeAll.noteDone _
  | controlErr p up r hp _ =>
    have hl : ∀ q k, (s.setLink p none).link q = some k → q ≠ p ∧ s.link q = some k := by
      intro q k hq
      have := unlink_eq_some.1 (show unlink s.link (some p) q = some k by rw [unlink_some]; exact hq)
      exact ⟨fun h' => this.1 (by rw [h']), this.2⟩
    refine (wf_closeAll ?_ ?_).noteDone _
    · exact fun q u hq => h.linkData q u (hl q _ hq).2
    · intro q u hq
      have := h.linkControl q u (hl q _ hq).2
      rw [h.linkControl p up hp, Option.some.injEq] at this
      exact absurd this.symm (hl q _ hq).1
  | start mss v target msgs h1 h2 ht =>
    have hs0 : s.controlState ≠ .closed := by simp [h1]
    refine ⟨fun _ => h.control hs0, fun _ => rfl, rfl, fun _ => ⟨v, ht⟩, fun _ => by simp, ?_, ?_, h.linkControl,
      fun p hp => absurd (h.connecting p hp) hs0, fun p hp => h.fresh p (Nat.le_of_succ_le hp), ?_, ?_, ?_⟩
    · intro _ p up hp
      have := h.linkData p up hp
      rw [h2] at this
      cases this
    · intro p up hp
      have := h.linkData p up hp
      rw [h2] at this
      cases this
    · intro p hp
      cases hp
      simp [newPcb]
    · exact fun p hp => Nat.lt_succ_of_lt (h.freshControl p hp)
    · intro _ hu
      cases hu
  | command v st msgs h1 hc =>
    have hd := h.dataPcb_eq_none (by rw [h1]; rfl)
    have hg : Wf (s.goto st) := by
      cases hc <;> exact h.goto _ (by simp [h1]) rfl rfl fun hne => absurd hd hne
    exact hg.frame s.user s.usr _ s.fault s.dataState
  | quit msgs hst _ =>
    exact (h.goto .quitSent hst rfl rfl fun _ => ⟨rfl, fun _ => .inr rfl⟩).frame s.user s.usr _ s.fault s.dataState

end LwftpCe.Lwftp
