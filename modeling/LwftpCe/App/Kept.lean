import LwftpCe.App.Events

/-!
# The path is kept

The callbacks and the start of an operation lead from phase to phase (`Phase.called`, `Ran.phase`).
-/

namespace LwftpCe.App

open Lib Lwftp List Session Mode Api

variable {V : Type} {F : Fileioc V} {n : ℕ} {mode mode' : Mode} {s t x : Prog V} {b : Began} {k : Ptr} {e : Tcp} {r : Result}

/-! ### The phases of an operation -/

def Mode.free (mode : Mode) : Prop := mode ≠ .download ∧ mode ≠ .moveInput

instance (mode : Mode) : Decidable mode.free := inferInstanceAs (Decidable (_ ∧ _))

/-- Where an operation is, and what that says of the path. -/
inductive Phase (mode : Mode) (s : Prog V) (b : Began) : Prop
  /-- CWD, at any point -/
  | chdir (hm : mode.free) (ho : b.op = .enter ∨ b.op = .back)
  /-- a move waits for its input; meanwhile the connection may be lost -/
  | input (hm : mode = .moveInput) (hb : s.usr.busy = false) (hr : s.user.remotePath.isSome)
      (h : s.controlState = .logged ∧ Appended b.path s.usr.path ∨ s.controlState = .closed ∧ s.controlPcb = none)
  | download (hm : mode = .download) (hd : s.user.doneFn = some .ftpRetrCallback) (h : Appended b.path s.usr.path)
  /-- STOR, DELE or RNFR and RNTO -/
  | running (hm : mode.free) (hb : s.usr.busy = true) {k : Ptr} (hd : s.user.doneFn = some k) (hk : k.cuts)
      (h : Appended b.path s.usr.path)
  | listing (hm : mode.free) (hb : s.usr.busy = true) (hd : s.user.doneFn = some .ftpListCallback)
      (h : s.usr.path = b.path)
  /-- the path is cleared until PWD is answered -/
  | pwd (hm : mode.free) (hb : s.usr.busy = true) (hd : s.user.doneFn = some .ftpPwdCallback)
      (h : s.controlState = .pwdSent)
  /-- a download that was left by the key Clear: its callback is never called -/
  | cancelled (hm : mode.free) (hb : s.usr.busy = true) (hd : s.user.doneFn = none) (h : s.usr.path = b.path)
  | ended (hm : mode.free) (hb : s.usr.busy = false) (h : restored b s)

/-- What holds of the operation that is going on, between events. -/
structure Inv (m : Main V) : Prop where
  online : m.began ≠ none → m.mode.online
  since : ∀ b, m.began = some b → b.since ≤ m.s.trace.length
  calm : Calm m.s
  phase : ∀ b, m.began = some b → Phase m.mode m.s b

def Pending (mode : Mode) (began : Option Began) (s : Prog V) : Prop :=
  ∀ b, began = some b → ¬ (s.usr.busy = false ∧ mode.free)

/-- The phases in which the callback `k` can be called. -/
inductive PhaseAt (mode : Mode) (s : Prog V) (b : Began) : Ptr → Prop
  | chdir {k : Ptr} (hm : mode.free) (ho : b.op = .enter ∨ b.op = .back) : PhaseAt mode s b k
  | input {k : Ptr} (hm : mode = .moveInput) (hr : s.user.remotePath.isSome) (h : resting s) : PhaseAt mode s b k
  | download (hm : mode = .download) (h : Appended b.path s.usr.path) : PhaseAt mode s b .ftpRetrCallback
  | running {k : Ptr} (hm : mode.free) (hk : k.cuts) (h : Appended b.path s.usr.path) : PhaseAt mode s b k
  | listing (hm : mode.free) (hb : s.usr.busy = true) (h : s.usr.path = b.path) : PhaseAt mode s b .ftpListCallback
  | pwd (hm : mode.free) (h : s.controlState = .pwdSent) : PhaseAt mode s b .ftpPwdCallback

lemma Phase.at {mode : Mode} (h : Phase mode s b) (hn : ¬ (s.usr.busy = false ∧ mode.free)) (hk : s.user.doneFn = some k) : PhaseAt mode s b k := by
  have hd : ∀ {k'}, s.user.doneFn = some k' → k = k' := fun h => Option.some.inj (hk.symm.trans h)
  cases h with
  | chdir hm ho => exact .chdir hm ho
  | input hm _ hr h => exact .input hm hr (h.imp And.left id)
  | download hm hk' h =>
    rw [hd hk']
    exact .download hm h
  | running hm _ hk' hc h =>
    rw [hd hk']
    exact .running hm hc h
  | listing hm hb hk' h =>
    rw [hd hk']
    exact .listing hm hb h
  | pwd hm _ hk' h =>
    rw [hd hk']
    exact .pwd hm h
  | cancelled _ _ hk' _ => cases hk.symm.trans hk'
  | ended hm hb _ => exact absurd ⟨hb, hm⟩ hn

lemma Phase.to {b : Began} (h : Phase mode s b) (hm : mode.free) (hm' : mode'.free) : Phase mode' s b := by
  cases h with
  | chdir _ ho => exact .chdir hm' ho
  | input hm'' => exact absurd hm'' hm.2
  | download hm'' => exact absurd hm'' hm.1
  | running _ hb hd hk h => exact .running hm' hb hd hk h
  | listing _ hb hd h => exact .listing hm' hb hd h
  | pwd _ hb hd h => exact .pwd hm' hb hd h
  | cancelled _ hb hd h => exact .cancelled hm' hb hd h
  | ended _ hb h => exact .ended hm' hb h

lemma Calm.not_cwdRefused (h : Calm s) (b : Began) : cwdRefused (sinceBegan b s) = false := by
  unfold cwdRefused
  rw [any_eq_false]
  intro o ho hc
  have hdone : o ∈ s.results := by
    refine mem_filter.2 ⟨mem_of_mem_take ho, ?_⟩
    cases o <;> first | rfl | cases hc
  rw [h o hdone] at hc
  cases hc

lemma restored_of_path (h : Calm s) (hp : s.usr.path = b.path) : restored b s := by
  unfold restored
  split <;> simp [h.not_cwdRefused b, hp]

lemma restored_of_chdir (h : Calm s) (ho : b.op = .enter ∨ b.op = .back) : restored b s := by
  unfold restored
  rcases ho with ho | ho <;> simp [ho, h.not_cwdRefused b]

lemma restored_of_pwd (h : Calm s) (hl : lastPwd (sinceBegan b s) = some s.usr.path) : restored b s := by
  unfold restored
  split <;> simp [h.not_cwdRefused b, hl]

lemma Phase.frame (h : Phase mode s b) (hn : ¬ (s.usr.busy = false ∧ mode.free)) (hu : t.user = s.user) (hw : Same s.usr t.usr)
    (hin : mode = .moveInput → resting s →
      s.controlState = .logged ∧ t.controlState = .logged ∨ t.controlState = .closed ∧ t.controlPcb = none)
    (hpwd : s.user.doneFn = some .ftpPwdCallback → s.controlState = .pwdSent → t.controlState = .pwdSent) :
    Phase mode t b := by
  obtain ⟨hpath, hbusy, -⟩ := hw
  cases h with
  | chdir hm ho => exact .chdir hm ho
  | input hm hb hr h =>
    refine .input hm (hbusy.trans hb) (hu ▸ hr) ?_
    rw [hpath]
    rcases hin hm (h.imp And.left id) with ⟨hs, ht⟩ | ht
    · exact .inl ⟨ht, (h.resolve_right fun hc => by cases hs.symm.trans hc.1).2⟩
    · exact .inr ht
  | download hm hd h => exact .download hm (hu ▸ hd) (hpath ▸ h)
  | running hm hb hd hk h => exact .running hm (hbusy.trans hb) (hu ▸ hd) hk (hpath ▸ h)
  | listing hm hb hd h => exact .listing hm (hbusy.trans hb) (hu ▸ hd) (hpath.trans h)
  | pwd hm hb hd h => exact .pwd hm (hbusy.trans hb) (hu ▸ hd) (hpwd hd h)
  | cancelled hm hb hd h => exact .cancelled hm (hbusy.trans hb) (hu ▸ hd) (hpath.trans h)
  | ended hm hb _ => exact absurd ⟨hb, hm⟩ hn

/-! ### The callbacks -/

lemma Calling.closed (h : Calling (appCaller F n) e r s t) (hr : App.resting s) : t.controlState = .closed ∧ t.controlPcb = none := by
  rcases h.rest with ⟨-, -, h1, h2⟩ | hc
  · exact (hr.elim h1 fun h => h2 h.1).elim
  · exact hc

lemma PhaseAt.stop (h : PhaseAt mode s b k) (hpwd : s.controlState ≠ .pwdSent) (hu : t.user = s.user)
    (hk : s.user.doneFn = some k) (hpath : t.usr.path = s.usr.path)
    (hclosed : resting s → t.controlState = .closed ∧ t.controlPcb = none) {f : AppT V → AppT V}
    (hx : Calm (onApp f t)) (hb : (f t.usr).busy = false)
    (hcut : k.cuts → Appended b.path t.usr.path → (f t.usr).path = b.path)
    (hsame : ¬ k.cuts → (f t.usr).path = t.usr.path) : Phase mode (onApp f t) b := by
  rw [hpath] at hcut hsame
  cases h with
  | chdir hm ho => exact .chdir hm ho
  | input hm hr h => exact .input hm hb (hu ▸ hr) (.inr (hclosed h))
  | download hm h =>
    refine .download hm (hu ▸ hk) ?_
    change Appended _ (f t.usr).path
    rw [hsame (by simp [Ptr.cuts])]
    exact h
  | running hm hk h => exact .ended hm hb (restored_of_path hx (hcut hk h))
  | listing hm _ h => exact .ended hm hb (restored_of_path hx ((hsame (by simp [Ptr.cuts])).trans h))
  | pwd _ h => exact absurd h hpwd

lemma Issued.begun {a : Api} {st : State} (h : Issued a st k s x) (hc : Calm s) (hn : k.noUndo → a.ready s) :
    Calm x ∧ x.user = s.user ∧ (x.usr = s.usr ∧ x.controlState = st ∨
      k.noUndo = false ∧ a.ready s = false ∧ ∃ r, x.usr = s.usr.fails k r) := by
  cases h.started with
  | accepted hu hw hd _ hst => exact ⟨hc.done hd (.inr (.inr rfl)), hu, .inl ⟨hw, hst⟩⟩
  | @refused r _ _ hu hw hd _ _ hready =>
    have hundo : k.noUndo = false := by
      cases hk : k.noUndo with
      | false => rfl
      | true => cases hready.symm.trans (hn hk)
    refine ⟨hc.done hd (.inl ?_), hu, .inr ⟨hundo, hready, r, hw⟩⟩
    rintro rfl
    cases hundo

lemma Relists.path {f : AppT V → AppT V} (h : Relists k r f) (hk : k.cuts) (a : AppT V) : (f a).path = a.cutPath.path := by
  cases h with
  | login | cwd => simp [Ptr.cuts] at hk
  | del | stor => rfl
  | move => exact a.cutPath.dropEntry_path

lemma Called.calm (h : Called F k r t x) (hc : Calm t) : Calm x := by
  cases h with
  | fails | told | stores => exact hc.same rfl
  | hangs _ _ _ hd => exact hc.same hd
  | lists _ hiss | asks _ _ hiss => exact (hiss.begun (hc.same rfl) fun h => by cases h).1
  | idle => exact hc

lemma Phase.called (h : Phase mode s b) (hn : ¬ (s.usr.busy = false ∧ mode.free))
    (hcall : Calling (appCaller F n) e r s t) (hw : Same s.usr t.usr) (hcalm : Calm (t.note (.done k r)))
    (hpwd : s.controlState ≠ .pwdSent) (hk : t.user.doneFn = some k) (hcon : k ≠ .ftpConnectCallback)
    (hundo : r ≠ .ok → k.noUndo = false)
    (hquit : r = .ok → k = .ftpListCallback → s.usr.busy = true → s.controlState ≠ .quitSent)
    (hx : Called F k r (t.note (.done k r)) x) : Phase mode x b := by
  have hcx := hx.calm hcalm
  have hu : t.user = s.user := hcall.turn.user
  have hks : s.user.doneFn = some k := hu ▸ hk
  have hat := h.at hn hks
  have hok : r = .ok ∨ r = .logged → ¬ resting s := fun h hr => hr.elim (hcall.ok h).1 fun hr => (hcall.ok h).2.1 hr.1
  cases hx with
  | fails ho hr =>
    refine hat.stop (t := t.note _) hpwd hu hks hw.1 hcall.closed hcx rfl ?_ fun hc => ?_
    · rintro (rfl | rfl | rfl) ha
      · exact cutPath_appended ha
      · cases hundo hr
      · cases hundo hr
    · change (if k = .ftpStorCallback then t.usr.cutPath else t.usr).path = _
      rw [if_neg fun hs => hc (.inl hs)]
      rfl
  | hangs hkc => exact absurd hkc hcon
  | @lists _ f hrel hiss =>
    obtain ⟨-, hxu, hxw⟩ := hiss.begun (hcalm.same rfl) fun h => by cases h
    cases hat with
    | chdir hm ho => exact .chdir hm ho
    | input _ _ hr => exact absurd hr (hok (by cases hrel <;> simp))
    | running hm hc ha =>
      have hp : (f t.usr).path = b.path := (hrel.path hc t.usr).trans (cutPath_appended (hw.1 ▸ ha))
      rcases hxw with ⟨hxw, -⟩ | ⟨-, -, r, hxw⟩
      · exact .listing hm (hxw ▸ rfl) (hxu ▸ rfl) (hxw ▸ hp)
      · exact .ended hm (hxw ▸ rfl) (restored_of_path hcx (hxw ▸ hp))
    | listing | pwd | download => cases hrel
  | asks hkl hr hiss =>
    subst hkl hr
    obtain ⟨-, hxu, hxw⟩ := hiss.begun (hcalm.same rfl) fun h => by cases h
    cases hat with
    | chdir hm ho => exact .chdir hm ho
    | input _ _ hr => exact absurd hr (hok (.inl rfl))
    | running _ hc _ => exact absurd hc (by simp [Ptr.cuts])
    | listing hm hb _ =>
      rcases hxw with ⟨hxw, hst⟩ | ⟨-, hready, -⟩
      · exact .pwd hm (hxw ▸ rfl) (hxu ▸ rfl) hst
      · rcases hcall.rest with ⟨hl, hp, -⟩ | ⟨hc, -⟩
        · simp [ready, given, toPwd, onUser, onApp, note, hl, hp] at hready
        · exact absurd ((hcall.ok (.inl rfl)).2.2 hc) (hquit rfl rfl hb)
  | told hkp hr =>
    subst hkp
    exact hat.stop (t := t.note _) hpwd hu hks hw.1 hcall.closed hcx rfl (fun hc => absurd hc (by simp [Ptr.cuts]))
      fun _ => rfl
  | stores hkr hr =>
    subst hkr
    have hstore : (t.usr.store F).busy = false ∧ (t.usr.store F).path = t.usr.path := by
      unfold AppT.store
      split <;> exact ⟨rfl, rfl⟩
    exact hat.stop (t := t.note _) hpwd hu hks hw.1 hcall.closed hcx hstore.1
      (fun hc => absurd hc (by simp [Ptr.cuts])) fun _ => hstore.2
  | idle ho _ =>
    refine h.frame hn hu hw (fun _ hr => .inr (hcall.closed hr)) fun hp => ?_
    obtain rfl := Option.some.inj (hks.symm.trans hp)
    cases ho

/-! ### Reports of the stack -/

lemma same_of_turn (h : Turn (appCaller F n) e s t)
    (hd : ∀ d ∈ e.payloads s, s.user.dataSink = some .ftpPwdDataSink → d.bind quoted = none) : Same s.usr t.usr :=
  h.usr (Same s.usr) (fun k b len u hu => hu.trans (same_source F n k b len u))
    (fun k d u hk hm hu => hu.trans (same_sink F n k d u fun he => hd d hm (he ▸ hk))) (.refl s.usr)

lemma Calling.same (h : Calling (appCaller F n) e r s t) (hs : s.controlState ≠ .pwdSent) : Same s.usr t.usr :=
  same_of_turn h.turn fun d hd => by
    rw [h.data.resolve_right hs] at hd
    cases hd

lemma benign_payloads (h : benignTcp s e)
    (hr : s.controlState = .pwdSent → ∀ pc q qs, e = .controlRecv pc (q :: qs) true → response q ≠ 257) :
    ∀ d ∈ e.payloads s, s.user.dataSink = some .ftpPwdDataSink → d.bind quoted = none := by
  intro d hd hs
  cases e with
  | controlRecv pc p ok =>
    cases p with
    | nil => cases hd
    | cons q qs =>
      cases ok with
      | false => cases hd
      | true =>
        rw [payloads_controlRecv fun hp => hr hp pc q qs rfl] at hd
        cases hd
  | dataRecv pc p =>
    have hq : ∀ q ∈ p, quoted q.payload = none := by
      simp only [benignTcp, Bool.and_eq_true, decide_eq_true_eq] at h
      exact h.2.resolve_left (absurd hs)
    cases p with
    | nil =>
      obtain rfl := mem_singleton.1 hd
      rfl
    | cons q qs =>
      obtain ⟨q', hm, rfl⟩ := mem_map.1 hd
      exact hq q' hm
  | _ => cases hd

lemma benign_fails (h : benignTcp s e) (he : e.fails s) :
    (∀ k, s.user.doneFn = some k → k.noUndo = false) ∧ s.controlState ≠ .pwdSent := by
  simp only [benignTcp, Bool.and_eq_true, decide_eq_true_eq, he, Bool.true_eq_false, or_false, exposed,
    decide_eq_false_iff_not, not_or] at h
  refine ⟨fun k hk => ?_, h.1.2⟩
  simpa [hk] using h.1.1

lemma lastPwd_told {b : Began} {k : Ptr} {d p : Bytes} (hp : quoted d = some p) (hb : b.since ≤ s.trace.length)
    (ht : t.trace = .done k .ok :: .sink (some d) :: .reply 257 .pwdSent :: s.trace) :
    lastPwd (sinceBegan b t) = some (cstr (p.take rxBufSize)) := by
  have hlen : t.trace.length - b.since = (s.trace.length - b.since) + 3 := by
    rw [ht]
    simp only [length_cons]
    omega
  simp only [sinceBegan, hlen]
  rw [ht]
  simp [lastPwd, hp]

lemma told_phase (mode : Mode) (hc : Calm s) (hst : s.controlState = .pwdSent)
    (hd : s.user.doneFn = some .ftpPwdCallback ∧ s.user.dataSink = some .ftpPwdDataSink) {q : Pbuf}
    (hq : (quoted q.payload).isSome)
    (ht : t = (((readReply 257 s).callSink (appCaller F n) (some q.payload)).goto .logged).callDone (appCaller F n) .ok) :
    Calm t ∧ ∀ b, b.since ≤ s.trace.length → ¬ (s.usr.busy = false ∧ mode.free) → Phase mode s b → Phase mode t b := by
  obtain ⟨p, hp⟩ := Option.isSome_iff_exists.1 hq
  obtain ⟨hpath, hb, htrace⟩ : t.usr.path = cstr (p.take rxBufSize) ∧ t.usr.busy = false ∧
      t.trace = .done .ftpPwdCallback .ok :: .sink (some q.payload) :: .reply 257 .pwdSent :: s.trace := by
    have hsink : (appCaller F n).sink .ftpPwdDataSink (some q.payload) s.usr =
        { s.usr with path := cstr (p.take rxBufSize), rxOffset := min p.length rxBufSize } := by
      have he : (appCaller F n).sink .ftpPwdDataSink = ftpPwdDataSink := by cases n <;> rfl
      simp only [he, ftpPwdDataSink, Option.bind_some, hp]
    obtain ⟨api, hdone⟩ := appCaller_done F n
    rw [ht]
    simp only [callSink, readReply, note, hd, hst, hsink, callDone, goto, hdone]
    exact ⟨rfl, rfl, rfl⟩
  have hx : Calm t := by
    refine hc.done (k := .ftpPwdCallback) (r := .ok) ?_ (.inl (by decide))
    unfold results
    rw [htrace]
    rfl
  refine ⟨hx, fun b hsince hn h => ?_⟩
  cases h.at hn hd.1 with
  | chdir hm ho => exact .chdir hm ho
  | input _ _ h => exact absurd hst h.not_pwd
  | pwd hm _ =>
    exact .ended hm hb (restored_of_pwd hx ((lastPwd_told hp hsince htrace).trans (congrArg some hpath.symm)))
  | running _ hk _ => exact absurd hk (by simp [Ptr.cuts])

/-! ### The keys -/

lemma Ran.phase {op : Op} (h : Ran F s op x mode) (hr : resting s) (hb : s.usr.busy = false) (hw : Wf s) (hop : benignOp s op)
    (hc : Calm s) : Calm x ∧ Phase mode x (beganAt op s) := by
  have hready : s.controlState = .logged → s.dataPcb = none := fun h => hw.dataPcb_eq_none (by rw [h]; rfl)
  have hmain : main.free := by decide
  cases h with
  | @begins b y hbegin hiss =>
    cases op with
    | enter | back =>
      cases hbegin
      have hl : s.controlState = .logged := by simpa [benignOp] using hop
      obtain ⟨hcy, -⟩ := hiss.begun (hc.same rfl) fun _ => by
        simp [beginCwd, ready, given, onApp, onUser, hl, hready hl]
      exact ⟨hcy.same rfl, .chdir hmain (by simp [beganAt])⟩
    | upload =>
      obtain ⟨hcol, hbegin⟩ := Option.ite_none_left_eq_some.1 hbegin
      cases hbegin
      have hp : Appended s.usr.path (filePath s.usr.path s.usr.localEntry) :=
        appended_fileName (by simpa [benignOp, hcol] using hop)
      have hfree : upload.free := by decide
      obtain ⟨hcy, hu, hy⟩ := hiss.begun (hc.same rfl) fun h => by cases h
      refine ⟨hcy, ?_⟩
      rcases hy with ⟨hy, -⟩ | ⟨-, -, r, hy⟩
      · exact .running hfree (hy ▸ rfl) (hu ▸ rfl) (.inl rfl) (hy ▸ hp)
      · exact .ended hfree (hy ▸ rfl) (restored_of_path hcy (hy ▸ cutPath_appended hp))
    | delete =>
      obtain ⟨hcol, hbegin⟩ := Option.ite_none_left_eq_some.1 hbegin
      cases hbegin
      obtain ⟨hname, hl⟩ : plainName s.usr s.usr.remoteEntry ∧ s.controlState = .logged := by
        rw [not_or] at hcol
        simpa [benignOp, hcol] using hop
      obtain ⟨hcy, hu, hy⟩ := hiss.begun (hc.same rfl) fun _ => by
        simp [beginDel, ready, given, onApp, onUser, hl, hready hl]
      have hdrop := same_dropEntry y.usr
      rcases hy with ⟨hy, -⟩ | ⟨hk, -⟩
      · refine ⟨hcy.same rfl, .running hmain (hdrop.2.1.trans (hy ▸ rfl)) (hu ▸ rfl) (.inr (.inl rfl)) ?_⟩
        have hpath : (onApp AppT.dropEntry y).usr.path = filePath s.usr.path s.usr.remoteEntry :=
          hdrop.1.trans (congrArg AppT.path hy)
        change Appended s.usr.path (onApp AppT.dropEntry y).usr.path
        rw [hpath]
        exact appended_fileName hname
      · cases hk
    | download =>
      obtain ⟨hcol, hbegin⟩ := Option.ite_none_left_eq_some.1 hbegin
      cases hbegin
      have hp : Appended s.usr.path (filePath s.usr.path s.usr.remoteEntry) :=
        appended_fileName (by simpa [benignOp, hcol] using hop)
      obtain ⟨hcy, hu, hy⟩ := hiss.begun (hc.same rfl) fun h => by cases h
      refine ⟨hcy, .download rfl (hu ▸ rfl) ?_⟩
      rcases hy with ⟨hy, -⟩ | ⟨-, -, r, hy⟩
      · exact hy ▸ hp
      · exact hy ▸ hp
    | move => cases hbegin
  | erases _ _ =>
    have hsame := same_dropEntry (utilGetLocalFiles F { s.usr with
      vars := F.deleteVar s.usr.vars s.usr.localEntry.str (osType s.usr.localEntry) })
    have hcx : Calm (onApp (AppT.erase F) s) := hc.same rfl
    exact ⟨hcx, .ended hmain (hsame.2.1.trans hb) (restored_of_path hcx hsame.1)⟩
  | names ho hcol ht =>
    subst ho
    have hp : Appended s.usr.path (filePath s.usr.path s.usr.remoteEntry) :=
      appended_fileName (by simpa [benignOp, hcol, ht] using hop)
    exact ⟨hc.same rfl, .input rfl hb rfl (hr.imp (fun h => ⟨h, hp⟩) id)⟩
  | nothing => exact ⟨hc, .ended hmain hb (restored_of_path hc rfl)⟩

/-! ### Events -/

section Events

variable {m m' : Main V} {e : Event} {down : Key → Bool}

lemma isOver_iff : m.isOver = true ↔ m.s.usr.busy = false ∧ m.mode.free := by
  simp [Main.isOver, free]

lemma Inv.settle (h : Inv m) : Inv m.settle ∧ Pending m.settle.mode m.settle.began m.settle.s := by
  unfold Main.settle
  split_ifs with ho
  · exact ⟨⟨fun hb => absurd rfl hb, fun b hb => (by cases hb), h.calm, fun b hb => (by cases hb)⟩, fun b hb => (by cases hb)⟩
  · exact ⟨h, fun b _ hover => ho (isOver_iff.2 hover)⟩

lemma benign_settle (m : Main V) (e : Event) : benign m.settle e = benign m e := by
  unfold Main.settle
  split_ifs <;> rfl

lemma benignTcp_setNew (s : Prog V) (e : Tcp) (new : Option ℕ) : benignTcp (setNew new s) e = benignTcp s e := by
  cases e with
  | controlRecv p q ok => cases q <;> cases ok <;> rfl
  | _ => rfl

lemma benignOp_setNew (new : Option ℕ) (s : Prog V) (op : Op) : benignOp (setNew new s) op = benignOp s op := by
  cases op <;> rfl

lemma Inv.keep (h : Inv m) (hlen : m.s.trace.length ≤ x.trace.length) (hon : m.mode.online → mode'.online)
    (hc : Calm x) (hp : ∀ b, m.began = some b → Phase mode' x b) : Inv { m with s := x, mode := mode' } :=
  ⟨fun hb => hon (h.online hb), fun b hb => (h.since b hb).trans hlen, hc, hp⟩

lemma Inv.told {e : Tcp} {new : Option ℕ} {r : Result} (h : Inv m) (hm : Steady m) (hn : Pending m.mode m.began m.s)
    (hf : m.s.fault = false) (he : e.enabled m.s) (hp : benignTcp m.s e) (hpwd : m.s.controlState = .pwdSent)
    (hr : e.result m.s = some r)
    (hlen : m.s.trace.length ≤ (e.handle (appCaller F (n + 1)) (setNew new m.s)).trace.length) :
    Inv { m with s := e.handle (appCaller F (n + 1)) (setNew new m.s) } := by
  have ht := handle_turned (appCaller_lawful F (n + 1)) (Wf.setNew hm.wf new) hf e (enabled_setNew e new m.s ▸ he)
  obtain rfl : r = .ok := Classical.byContradiction fun hne => (benign_fails hp (result_fails hr hne)).2 hpwd
  unfold Turned at ht
  simp only [result_setNew, hr] at ht
  generalize e.handle (appCaller F (n + 1)) (setNew new m.s) = x at ht hlen
  cases ht with
  | ends _ _ _ _ hok _ => exact absurd hpwd (hok (.inl rfl)).1
  | pwd pc q qs he _ hq _ =>
    subst he
    simp only [benignTcp, Bool.and_eq_true, decide_eq_true_eq] at hp
    obtain ⟨hc, hphase⟩ := told_phase (s := setNew new m.s) m.mode (h.calm.same rfl) hpwd
      (hm.pwd hpwd) ((hp.2.1.resolve_left (absurd hpwd)).resolve_left (absurd hq)) rfl
    refine h.keep hlen id hc fun b hb => hphase b (h.since b hb) (hn b hb) ((h.phase b hb).frame (hn b hb) rfl ⟨rfl, rfl, rfl⟩ ?_ ?_)
    · exact fun _ hr => hr.imp (fun h => ⟨h, h⟩) id
    · exact fun _ => id

lemma Ran.online {op : Op} (h : Ran F s op x mode) : mode.online := by
  cases h with
  | begins hb =>
    rcases (beginOf_proper hb).mode with hm | hm | hm <;> rw [hm] <;> rfl
  | erases | names | nothing => rfl

lemma react_keys {op : Op} {new : Option ℕ} (hop : chooseOp down (moveCursor down m.s.usr) = some op)
    (hs : react F n m (.keys down new) = some m') :
    m'.began = some (beganAt op (setNew new (onApp (moveCursor down) m.s))) := by
  obtain ⟨-, hs⟩ := Option.ite_none_right_eq_some.1 hs
  have hop' : chooseOp down (moveCursor down (setNew new m.s).usr) = some op :=
    (congrArg (fun s => chooseOp down s.usr) (moveCursor_setNew down new m.s)).trans hop
  rw [pressKeys_some (m := { m with s := setNew new m.s }) hop', moveCursor_setNew] at hs
  cases hs
  rfl

lemma Inv.react (h : Inv m) (hm : Steady m) (hn : Pending m.mode m.began m.s) (hf : m.s.fault = false)
    (hs : react F (n + 1) m e = some m') (hp : benign m e) : Inv m' := by
  have hlen : m.s.trace.length ≤ m'.s.trace.length := (react_moves hm.wf hf hs).suffix.length_le
  have heff := react_effect hm.wf hf hm.setup hs
  have hmain : main.free := by decide
  cases heff with
  | connect hset hrep _ hmode =>
    have hnone : ∀ b, m.began ≠ some b := fun b hb => by
      have := h.online (by simp [hb])
      rw [hset] at this
      cases this
    refine h.keep hlen (fun hon => ?_) (Calm.done (h.calm.same rfl) hrep.results (.inl (by decide))) fun b hb =>
      absurd hb (hnone b)
    rw [hset] at hon
    cases hon
  | @quiet e new x _ _ hq =>
    have hw : Same (setNew new m.s).usr x.usr :=
      same_of_turn hq.turn (benign_payloads ((benignTcp_setNew m.s e new).trans hp) hq.pwd)
    refine h.keep hlen id (h.calm.same hq.turn.results) fun b hb =>
      (h.phase b hb).frame (hn b hb) hq.turn.user hw (fun _ hr => ?_) fun _ hp => (hq.rest (.inr hp)).trans hp
    exact hr.imp (fun hl => ⟨hl, (hq.rest (.inl hl)).trans hl⟩) fun hc => hq.closed hc.1 hc.2
  | @silent e new r t _ _ hcall hk =>
    have hks : m.s.user.doneFn = none := hcall.turn.user ▸ hk
    have hpwd : m.s.controlState ≠ .pwdSent := fun hp => by cases hks.symm.trans (hm.pwd hp).1
    have hw : Same (setNew new m.s).usr t.usr := hcall.same hpwd
    exact h.keep hlen id (h.calm.same hcall.turn.results) fun b hb =>
      (h.phase b hb).frame (hn b hb) hcall.turn.user hw (fun _ hr => .inr (hcall.closed hr)) fun _ hp => absurd hp hpwd
  | @called e new r t x k _ hr hcall hk hx =>
    by_cases hpwd : m.s.controlState = .pwdSent
    · obtain ⟨⟨-, he⟩, hs⟩ := Option.ite_none_right_eq_some.1 hs
      have hx : e.handle (appCaller F (n + 1)) (setNew new m.s) = x := congrArg Main.s (Option.some.inj hs)
      subst hx
      exact h.told hm hn hf he hp hpwd hr hlen
    have hw : Same (setNew new m.s).usr t.usr := hcall.same hpwd
    have hks : m.s.user.doneFn = some k := hcall.turn.user ▸ hk
    have hundo : r ≠ .ok → k.noUndo = false := fun hne => (benign_fails hp (result_fails hr hne)).1 k hks
    have hcalm : Calm (t.note (.done k r)) := by
      refine Calm.done (h.calm.same hcall.turn.results) rfl ?_
      by_cases hr : r = .ok
      · exact .inr (.inl hr)
      · refine .inl fun hk => ?_
        have := hundo hr
        rw [hk] at this
        cases this
    refine h.keep hlen id (hx.calm hcalm) fun b hb => ?_
    have hphase : Phase m.mode (setNew new m.s) b :=
      (h.phase b hb).frame (hn b hb) rfl ⟨rfl, rfl, rfl⟩ (fun _ hr => hr.imp (fun h => ⟨h, h⟩) id) fun _ => id
    refine hphase.called (hn b hb) hcall hw hcalm hpwd hk ?_ hundo ?_ hx
    · rintro rfl
      cases (hm.online (h.online (by simp [hb]))).symm.trans (hm.login hks)
    · rintro rfl rfl hbusy
      obtain ⟨pc, q, qs, rfl⟩ := result_ok hr
      simp only [benign, benignTcp, Bool.and_eq_true, decide_eq_true_eq] at hp
      rcases hp.2.2 with hq | hq | hq
      · exact hq
      · exact absurd hks hq
      · cases hq.symm.trans hbusy
  | started hcon hmode =>
    refine h.keep hlen (fun hon => ?_) h.calm fun b hb => (h.phase b hb).to (by simp [free, hcon]) ?_
    · rw [hcon] at hon
      cases hon
    · rcases hmode with ⟨rfl, -⟩ | rfl <;> decide
  | @cursor down new hmode hop =>
    refine h.keep hlen id (h.calm.same rfl) fun b hb => (h.phase b hb).frame (hn b hb) rfl (same_moveCursor down _)
      (fun hin => ?_) fun _ => id
    cases hmode.symm.trans hin
  | @runs down new op x mode b hmode hop hx =>
    obtain rfl : b = _ := react_keys hop hs
    have hbusy : m.s.usr.busy = false := (same_moveCursor down m.s.usr).2.1.symm.trans (chooseOp_some hop).2
    have hrest := hm.idle (by simp [hmode]) (hm.online (by rw [hmode]; rfl)) hbusy
    have hb := (benignOp_setNew new (onApp (moveCursor down) m.s) op).trans (by simpa only [benign, hop] using hp)
    obtain ⟨hc, hphase⟩ := hx.phase (hrest.congr rfl rfl) (chooseOp_some hop).2 (hm.wf.frame _ _ _ _ _) hb
      (h.calm.same rfl)
    refine ⟨fun _ => hx.online, fun b hb => ?_, hc, fun b hb => ?_⟩
    · cases hb
      exact hlen
    · cases hb
      exact hphase
  | noInput => simp [benign] at hp
  | @input str x hmode hstr hiss =>
    simp only [benign, decide_eq_true_eq] at hp
    have hdata := hm.wf.dataPcb_eq_none (by rw [hp.2]; rfl)
    obtain ⟨hc, hu, hx⟩ := hiss.begun (h.calm.same rfl) fun _ => by
      simp [ready, given, toMove, onUser, onApp, hp.2, hm.remotePath, hdata]
    refine h.keep hlen (fun _ => rfl) hc fun b hb => ?_
    have hphase := h.phase b hb
    rw [hmode] at hphase
    cases hphase with
    | input _ _ _ hphase =>
      rcases hx with ⟨hx, -⟩ | ⟨hk, -⟩
      · rcases hphase with ⟨-, ha⟩ | ⟨hcl, -⟩
        · exact .running hmain (hx ▸ rfl) (hu ▸ rfl) (.inr (.inr rfl)) (hx ▸ ha)
        · cases hp.2.symm.trans hcl
      · cases hk
    | download hm => cases hm
    | chdir hm | running hm | listing hm | pwd hm | cancelled hm | ended hm => exact absurd rfl hm.2
  | uploaded hmode =>
    exact h.keep hlen (fun _ => rfl) h.calm fun b hb => (h.phase b hb).to (by simp [free, hmode]) hmain
  | downloaded hmode =>
    have hc : Calm (utilDownloadEnd m.s) := h.calm.same rfl
    have hbusy : (utilDownloadEnd m.s).usr.busy = m.s.usr.busy := (cutPath_same m.s.usr).1
    refine h.keep hlen (fun _ => rfl) hc fun b hb => ?_
    have hphase := h.phase b hb
    rw [hmode] at hphase
    cases hphase with
    | download _ _ ha =>
      have hpath : (utilDownloadEnd m.s).usr.path = b.path := cutPath_appended ha
      cases hb : m.s.usr.busy with
      | false => exact .ended hmain (hbusy.trans hb) (restored_of_path hc hpath)
      | true => exact .cancelled hmain (hbusy.trans hb) rfl hpath
    | input hm => cases hm
    | chdir hm | running hm | listing hm | pwd hm | cancelled hm | ended hm => exact absurd rfl hm.1
  | quit hmode hu _ =>
    have hne : m.s.controlState ≠ .pwdSent := by simpa [benign] using hp
    refine h.keep hlen (fun _ => rfl) (h.calm.same hu.results) fun b hb => ?_
    have hfree : m.mode.free := by simp [free, hmode]
    refine ((h.phase b hb).frame (hn b hb) hu.user ?_ (fun hin => absurd hin hfree.2) fun _ hp => absurd hp hne).to hfree (by decide)
    rw [hu.usr]
    exact .refl _

lemma inv_boot (vars : V) (userName password : Bytes) : Inv (boot F vars userName password) :=
  ⟨fun h => absurd rfl h, fun b hb => (by cases hb), fun o ho => (by cases ho), fun b hb => (by cases hb)⟩

lemma Inv.kept (h : Inv m) : m.kept := by
  unfold Main.kept
  split
  · rfl
  · next b hb =>
    by_cases ho : m.isOver
    · obtain ⟨hbusy, hm⟩ := isOver_iff.1 ho
      have hr : restored b m.s := by
        cases h.phase b hb with
        | chdir _ ho => exact restored_of_chdir h.calm ho
        | ended _ _ hr => exact hr
        | input hm' => exact absurd hm' hm.2
        | download hm' => exact absurd hm' hm.1
        | running _ hb' | listing _ hb' | pwd _ hb' | cancelled _ hb' => cases hb'.symm.trans hbusy
      simp [hr]
    · simp [ho]

lemma Inv.step (hi : Steady m ∧ Inv m) (hs : guarded benign (stepMain F (n + 1)) m e = some m') : Steady m' ∧ Inv m' := by
  obtain ⟨hm, h⟩ := hi
  obtain ⟨hb, hs⟩ := guarded_some.1 hs
  obtain ⟨⟨hf, -⟩, hreact⟩ := Option.ite_none_right_eq_some.1 hs
  obtain ⟨h, hn⟩ := h.settle
  exact ⟨(hm.next hs).1, h.react hm.settle hn (settle_s m ▸ hf) hreact (benign_settle m e ▸ hb)⟩

/-- **In a run of benign events every operation keeps the path.** -/
theorem path_kept (F : Fileioc V) (n : ℕ) (vars : V) (userName password : Bytes) (es : List Event) (m : Main V)
    (h : run (guarded benign (stepMain F (n + 1))) (boot F vars userName password) es = some m) : m.kept :=
  (run_inv (fun m => Steady m ∧ Inv m) (fun _ _ _ hi hs => Inv.step hi hs)
    ⟨steady_boot vars userName password, inv_boot vars userName password⟩ h).2.kept

def deleteEvents : List Event :=
  [press .right, press .zoom, reply "250 deleted", reply "200 ok", reply "227 passive (10,0,0,1,4,210)",
    .tcp (.dataConnected ⟨2, 536⟩ true) none, reply "150 go", .tcp (.dataRecv ⟨2, 536⟩ []) none, reply "226 done",
    reply "257 \"/\""]

theorem path_kept_deleted :
    ∃ m, run (guarded benign (stepMain noVars 1)) (boot noVars () [] []) (loginEvents ++ deleteEvents) = some m ∧
      (m.isOver = true ∧ m.began.isSome ∧ m.s.usr.path = ascii "/") ∧ m.kept :=
  ⟨_, rfl, by decide +kernel, path_kept noVars 0 () [] [] (loginEvents ++ deleteEvents) _ rfl⟩

end Events

end LwftpCe.App
