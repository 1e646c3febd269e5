import LwftpCe.App.Events

/-!
# An operation ends once

`done_fn` stays set when an operation has ended with an error, and the session reports what happens to the connection
later through the same pointer: the callback of an operation that is over can run again.  `ftp_StorCallback` then cuts the
path a second time.  `opened` is the operation that has been accepted and has not ended.
-/

namespace LwftpCe.App

open Lib Lwftp List AppT Ptr Option

variable {V : Type} {F : Fileioc V} {n : ℕ} {t : List (Obs Ptr)} {k : Ptr} {e : Tcp}

/-! ### The monitor -/

def Ptr.counted : Ptr → Bool
  | .ftpCwdCallback | .ftpDelCallback | .ftpMoveCallback | .ftpStorCallback | .ftpRetrCallback => true
  | _ => false

def seeDone : Obs Ptr → Option Ptr → Option Ptr
  | .done k r, g => if k.counted then if r = .inprogress then some k else none else g
  | _, g => g

def opened (t : List (Obs Ptr)) : Option Ptr := t.foldr seeDone none

def endsOpened : Obs Ptr → Option Ptr → Bool
  | .done k r, g => k.counted = false ∨ r.ends = false ∨ g = some k
  | _, _ => true

def EndsOnce (t : List (Obs Ptr)) : Prop := Always (fun o t => endsOpened o (opened t)) t

lemma seeDone_other (o : Obs Ptr) (g : Option Ptr) (h : o.isDone = false) : seeDone o g = g := by
  cases o <;> first | rfl | cases h

lemma endsOnce_results (s : Prog V) : EndsOnce s.results ↔ EndsOnce s.trace :=
  always_filter (R := fun o g => endsOpened o g = true) seeDone_other (fun o g h => by cases o <;> first | rfl | cases h) none
    s.trace

/-! ### The condition -/

def stale (s : Prog V) : Bool := s.user.doneFn.any Ptr.counted ∧ s.usr.busy = false

def slashed (d : Bytes) : Bool := (quoted d).all fun p => 47 ∈ cstr (p.take rxBufSize)

/-- Nothing is reported to the callback of an operation that is over, no data replaces the path by one without a slash, and
the key Y= finds a slash in it. -/
def orderly (m : Main V) : Event → Bool
  | .tcp e _ =>
    (stale m.s = false ∨ e.result m.s = none) &&
    match e with
    | .dataRecv _ p => m.s.user.dataSink ≠ some .ftpPwdDataSink ∨ ∀ q ∈ p, slashed q.payload
    | _ => true
  | .keys down _ => chooseOp down (moveCursor down m.s.usr) ≠ some .back ∨ 47 ∈ m.s.usr.path
  | _ => true

/-! ### The path -/

lemma cutPath_fault {a : AppT V} (h : 47 ∈ a.path) : a.cutPath.fault = a.fault := by
  obtain ⟨p, hp⟩ : ∃ p, cutLast 47 a.path = some p := ⟨_, if_pos h⟩
  unfold cutPath
  rw [hp]

lemma dropEntry_fault (a : AppT V) : a.dropEntry.fault = a.fault := by
  unfold dropEntry
  simp only
  split_ifs <;> rfl

lemma slash_filePath (path : Bytes) (f : FileT) : 47 ∈ filePath path f := by simp [filePath]

lemma fault_of_turn {s t : Prog V} (h : Turn (appCaller F n) e s t) : t.usr.fault = s.usr.fault := by
  refine h.usr (fun a => a.fault = s.usr.fault) (fun k b len u hu => ?_) (fun k d u _ _ hu => ?_) rfl
  · obtain ⟨_, h⟩ := source_frame F n k b len u
    rw [h]
    exact hu
  · obtain ⟨_, _, _, _, _, h⟩ | ⟨-, _, _, -, h⟩ := sink_frame F n k d u
    · rw [h]
      exact hu
    · rw [h]
      exact hu

lemma slash_of_turn {m : Main V} {new : Option ℕ} {t : Prog V}
    (h : Turn (appCaller F n) e (setNew new m.s) t) (hpwd : m.s.controlState ≠ .pwdSent) (hok : orderly m (.tcp e new))
    (hs : 47 ∈ m.s.usr.path) : 47 ∈ t.usr.path := by
  refine h.usr (fun a => 47 ∈ a.path) (fun k b len u hu => ?_) (fun k d u hk hd hu => ?_) hs
  · rw [(same_source F n k b len u).1]
    exact hu
  · obtain ⟨_, _, _, _, _, hsink⟩ | ⟨rfl, p, _, hp, hsink⟩ := sink_frame F n k d u
    · rw [hsink]
      exact hu
    · rw [hsink]
      cases e with
      | controlRecv pc q ok =>
        -- only the reply to PWD is passed on
        cases q with
        | nil => cases hd
        | cons q qs =>
          cases ok with
          | false => cases hd
          | true =>
            rw [payloads_controlRecv (s := setNew new m.s) fun hx => absurd hx hpwd] at hd
            cases hd
      | dataRecv pc q =>
        have hall : ∀ b ∈ q, slashed b.payload := by
          simp only [orderly, Bool.and_eq_true, decide_eq_true_eq] at hok
          exact hok.2.resolve_left (absurd hk)
        cases q with
        | nil =>
          obtain rfl := mem_singleton.1 hd
          cases hp
        | cons b bs =>
          obtain ⟨b', hm, rfl⟩ := mem_map.1 hd
          have hb := hall b' hm
          rw [bind_some] at hp
          simpa [slashed, hp] using hb
      | _ => cases hd

/-! ### The invariant -/

/-- What holds between events: the operations have ended at most once, the one whose callback waits is going on, and the path
that is going to be cut has a slash. -/
structure Once (m : Main V) : Prop where
  ends : EndsOnce m.s.results
  waits : ∀ k, m.s.user.doneFn = some k → k.counted → m.s.usr.busy = true → opened m.s.results = some k
  slash : ∀ k, m.s.user.doneFn = some k → k.cuts → m.s.usr.busy = true → 47 ∈ m.s.usr.path
  left : m.mode = .download ∨ m.mode = .moveInput → 47 ∈ m.s.usr.path
  fault : m.s.usr.fault = false

lemma EndsOnce.other (h : EndsOnce t) (hk : k.counted = false) (r : Result) :
    EndsOnce (.done k r :: t) ∧ opened (.done k r :: t) = opened t := by
  refine ⟨⟨?_, h⟩, ?_⟩
  · simp [endsOpened, hk]
  · simp [opened, seeDone, hk]

lemma EndsOnce.report (h : EndsOnce t) (k : Ptr) {r : Result} (hr : r.ends = false) : EndsOnce (.done k r :: t) :=
  ⟨by simp [endsOpened, hr], h⟩

lemma EndsOnce.result (h : EndsOnce t) (hk : k.counted → opened t = some k) (r : Result) : EndsOnce (.done k r :: t) := by
  refine ⟨?_, h⟩
  cases hc : k.counted with
  | false => simp [endsOpened, hc]
  | true => simp [endsOpened, hk hc]

lemma Ptr.isOp_of_counted (h : k.counted = true) : k.isOp = true := by
  cases k <;> first | rfl | cases h

lemma Ptr.cuts.counted (h : k.cuts) : k.counted = true := by rcases h with rfl | rfl | rfl <;> rfl

section Step

variable {m m' : Main V} {s x : Prog V} {e : Event} {mode : Mode} {b : Option Began} {op : Op}

lemma Once.of_quiet (he : EndsOnce x.results) (hd : ∀ k, x.user.doneFn = some k → k.counted → x.usr.busy = false) (hl : mode = .download ∨ mode = .moveInput → 47 ∈ x.usr.path)
    (hf : x.usr.fault = false) : Once ⟨x, mode, b⟩ := by
  refine ⟨he, fun k hk hc hb => ?_, fun k hk hc hb => ?_, hl, hf⟩
  · exact absurd (hb.symm.trans (hd k hk hc)) (by simp)
  · exact absurd (hb.symm.trans (hd k hk hc.counted)) (by simp)

lemma Once.frame (h : Once m) (f : AppT V → AppT V) (hf : Same m.s.usr (f m.s.usr)) (hfault : (f m.s.usr).fault = m.s.usr.fault) (hm : mode = .download ∨ mode = .moveInput → m.mode = mode) :
    Once ⟨onApp f m.s, mode, b⟩ := by
  obtain ⟨hp, hb, -⟩ := hf
  refine ⟨h.ends, fun k hk hc hx => h.waits k hk hc (hb.symm.trans hx), fun k hk hc hx => ?_, fun hx => ?_,
    hfault.trans h.fault⟩
  · exact hp.symm ▸ h.slash k hk hc (hb.symm.trans hx)
  · refine hp.symm ▸ h.left ?_
    rw [hm hx]
    exact hx

lemma Once.issued {a : Api} {st : State} {k : Ptr} (h : Issued a st k s x) (he : EndsOnce s.results)
    (hk : s.user.doneFn = some k) (hslash : k.cuts → 47 ∈ s.usr.path) (hf : s.usr.fault = false) (hl : mode = .download → k ≠ .ftpStorCallback ∧ 47 ∈ s.usr.path) (hm : mode ≠ .moveInput) :
    Once ⟨x, mode, b⟩ := by
  obtain ⟨r, hr, hres⟩ := h.report
  have hends : EndsOnce x.results := hres ▸ he.report k hr
  cases h.started with
  | accepted hu hw hd =>
    refine ⟨hends, fun k' hk' hc _ => ?_, fun k' hk' hc _ => ?_, fun hx => ?_, hw ▸ hf⟩
    · obtain rfl := Option.some.inj (hk.symm.trans (hu ▸ hk'))
      rw [hd]
      simp [opened, seeDone, hc]
    · obtain rfl := Option.some.inj (hk.symm.trans (hu ▸ hk'))
      exact hw ▸ hslash hc
    · exact hw ▸ (hl (hx.resolve_right hm)).2
  | @refused r' _ _ hu hw =>
    refine .of_quiet hends (fun _ _ _ => by rw [hw]; rfl) (fun hx => ?_) ?_
    · obtain ⟨hns, hpath⟩ := hl (hx.resolve_right hm)
      rw [hw]
      simpa [fails, hns] using hpath
    · rw [hw]
      simp only [fails]
      split_ifs with hstor
      · exact (cutPath_fault (hslash (.inl hstor))).trans hf
      · exact hf

lemma Once.called (h : Once m) (hst : Steady m) {e : Tcp} {new : Option ℕ} {r : Result} {t : Prog V}
    (hr : e.result m.s = some r) (hcall : Calling (appCaller F (n + 1)) e r (setNew new m.s) t)
    (hok : orderly m (.tcp e new)) {k : Ptr} (hk : t.user.doneFn = some k) (hx : Called F k r (t.note (.done k r)) x) :
    Once { m with s := x } := by
  have hu : t.user = m.s.user := hcall.turn.user
  have hks : m.s.user.doneFn = some k := hu ▸ hk
  have hfault : t.usr.fault = false := (fault_of_turn hcall.turn).trans h.fault
  -- the callback is not stale
  have hbusy : k.counted → m.s.usr.busy = true := by
    intro hc
    simp only [orderly, Bool.and_eq_true, decide_eq_true_eq, hr, reduceCtorEq, or_false] at hok
    have hstale := hok.1
    simp only [stale, hks, any_some, hc, true_and, decide_eq_false_iff_not] at hstale
    simpa using hstale
  have hends : EndsOnce (.done k r :: m.s.results) := h.ends.result (fun hc => h.waits k hks hc (hbusy hc)) r
  have hres : (t.note (.done k r)).results = .done k r :: m.s.results := congrArg (_ :: ·) hcall.turn.results
  -- where a path is going to be cut, PWD is not what is waited for
  have hpath : k ≠ .ftpPwdCallback → 47 ∈ m.s.usr.path → 47 ∈ t.usr.path := fun hne =>
    slash_of_turn hcall.turn (fun hp => hne (Option.some.inj (hks.symm.trans (hst.pwd hp).1))) hok
  have hcut : k.cuts → 47 ∈ t.usr.path := by
    intro hc
    refine hpath ?_ (h.slash k hks hc (hbusy hc.counted))
    rintro rfl
    simp [cuts] at hc
  have hdl : m.mode = .download → k = .ftpRetrCallback := fun hm => Option.some.inj (hks.symm.trans (hst.download hm))
  have hin : m.mode = .moveInput → k.counted = false ∧ r ≠ .ok ∧ r ≠ .logged := by
    intro hm
    have hnb := hst.input hm
    refine ⟨?_, ?_⟩
    · cases hc : k.counted with
      | false => rfl
      | true => exact absurd ((hbusy hc).symm.trans hnb) (by simp)
    · rw [← not_or]
      intro hr
      obtain ⟨h1, h2, -⟩ := hcall.ok hr
      rcases hst.idle (by simp [hm]) (hst.online (by rw [hm]; rfl)) hnb with h | ⟨h, -⟩
      · exact h1 h
      · exact h2 h
  have hpwd : m.mode = .moveInput → 47 ∈ t.usr.path := fun hm =>
    slash_of_turn hcall.turn (hst.idle (by simp [hm]) (hst.online (by rw [hm]; rfl)) (hst.input hm)).not_pwd hok
      (h.left (.inr hm))
  cases hx with
  | fails ho hne =>
    refine .of_quiet (hres ▸ hends) (fun _ _ _ => rfl) (fun hm => ?_) ?_
    · have hns : k ≠ .ftpStorCallback := by
        rintro rfl
        rcases hm with hm | hm
        · cases hdl hm
        · cases (hin hm).1
      have hsame : (fails k r t.usr).path = t.usr.path := by simp [fails, hns]
      change 47 ∈ (fails k r t.usr).path
      rw [hsame]
      rcases hm with hm | hm
      · exact hpath (by rw [hdl hm]; decide) (h.left (.inl hm))
      · exact hpwd hm
    · unfold fails
      split_ifs with hs
      · exact (cutPath_fault (hcut (.inl hs))).trans hfault
      · exact hfault
  | hangs hkc hxu hxw hxd _ =>
    subst hkc
    have hstarted := hst.login hks
    have hoff : ∀ {P : Prop}, m.mode.online → P := fun hm => absurd ((hst.online hm).symm.trans hstarted) (by simp)
    refine .of_quiet ((hxd.trans hres) ▸ hends) (fun k' hk' hc => ?_) (fun hm => ?_) (by rw [hxw]; exact hfault)
    · rw [hxu] at hk'
      cases Option.some.inj (hk.symm.trans hk')
      cases hc
    · rcases hm with hm | hm <;> exact hoff (by rw [hm]; rfl)
  | @lists _ f hrel hiss =>
    have hres' : (toList (onApp f (t.note (.done k r)))).results = .done k r :: m.s.results := hres
    have hmode : m.mode ≠ .download ∧ m.mode ≠ .moveInput := by
      refine ⟨fun hm => ?_, fun hm => ?_⟩
      · have := hdl hm
        subst this
        cases hrel
      · obtain ⟨-, h1, h2⟩ := hin hm
        cases hrel <;> first | exact h1 rfl | exact h2 rfl
    refine .issued hiss (hres' ▸ hends) rfl (fun hc => absurd hc (by simp [cuts])) ?_ (fun hm => absurd hm hmode.1) hmode.2
    cases hrel with
    | login | cwd => exact hfault
    | del => exact (cutPath_fault (hcut (.inr (.inl rfl)))).trans hfault
    | move => exact (dropEntry_fault _).trans ((cutPath_fault (hcut (.inr (.inr rfl)))).trans hfault)
    | stor => exact (cutPath_fault (hcut (.inl rfl))).trans hfault
  | asks hkl hok' hiss =>
    subst hkl
    have hres' : (toPwd (t.note (.done .ftpListCallback r))).results = .done .ftpListCallback r :: m.s.results := hres
    refine .issued hiss (hres' ▸ hends) rfl (fun hc => absurd hc (by simp [cuts])) hfault (fun hm => ?_) fun hm => ?_
    · cases hdl hm
    · exact (hin hm).2.1 hok'
  | told hkp hok' =>
    subst hkp
    refine .of_quiet (hres ▸ hends) (fun _ _ _ => rfl) (fun hm => ?_) hfault
    rcases hm with hm | hm
    · cases hdl hm
    · exact absurd hok' (hin hm).2.1
  | stores hkr hok' =>
    subst hkr
    have hsame : (store F t.usr).path = t.usr.path ∧ (store F t.usr).fault = t.usr.fault ∧
        (store F t.usr).busy = false := by
      unfold store
      split <;> exact ⟨rfl, rfl, rfl⟩
    refine .of_quiet (hres ▸ hends) (fun _ _ _ => hsame.2.2) (fun hm => ?_) (hsame.2.1.trans hfault)
    change 47 ∈ (store F t.usr).path
    rw [hsame.1]
    rcases hm with hm | hm
    · exact hpath (by decide) (h.left (.inl hm))
    · exact hpwd hm
  | idle ho hc =>
    refine .of_quiet (hres ▸ hends) (fun k' hk' hc' => ?_) (fun hm => ?_) hfault
    · cases Option.some.inj (hk.symm.trans hk')
      exact absurd (ho.symm.trans (isOp_of_counted hc')) (by simp)
    · rcases hm with hm | hm
      · have := hdl hm
        subst this
        cases ho
      · exact hpwd hm

lemma beginOf_slash {a : AppT V} {g : Begin V} (h : beginOf F a op = some g) :
    (g.k.cuts ∨ g.mode = .download → 47 ∈ (g.before a).path) ∧ (op = .back ∨ (g.before a).fault = a.fault) ∧
    (g.mode = .download → g.k ≠ .ftpStorCallback) ∧ ∀ a, (g.after a).fault = a.fault := by
  cases op with
  | enter =>
    cases h
    exact ⟨fun hc => absurd hc (by simp [beginCwd, cuts]), .inr rfl, by simp [beginCwd], fun _ => rfl⟩
  | back =>
    cases h
    exact ⟨fun hc => absurd hc (by simp [beginCwd, cuts]), .inl rfl, by simp [beginCwd], fun _ => rfl⟩
  | upload =>
    obtain ⟨-, h⟩ := ite_none_left_eq_some.1 h
    cases h
    exact ⟨fun _ => slash_filePath _ _, .inr rfl, by simp [beginStor], fun _ => rfl⟩
  | delete =>
    obtain ⟨-, h⟩ := ite_none_left_eq_some.1 h
    cases h
    exact ⟨fun _ => slash_filePath _ _, .inr rfl, by simp [beginDel], dropEntry_fault⟩
  | download =>
    obtain ⟨-, h⟩ := ite_none_left_eq_some.1 h
    cases h
    exact ⟨fun _ => slash_filePath _ _, .inr rfl, by simp [beginRetr], fun _ => rfl⟩
  | move => cases h

lemma Once.ran {b' : Option Began} (h : Once ⟨s, .main, b⟩) (hb : s.usr.busy = false)
    (hx : Ran F s op x mode) (hback : op = .back → 47 ∈ s.usr.path) : Once ⟨x, mode, b'⟩ := by
  have hfault : s.usr.fault = false := h.fault
  cases hx with
  | @begins g y hg hiss =>
    have hp := beginOf_proper hg
    obtain ⟨hslash, hbefore, hdl, hafter⟩ := beginOf_slash hg
    have hg' : (g.before s.usr).fault = false := by
      rcases hbefore with rfl | hbefore
      · cases hg
        exact (cutPath_fault (hback rfl)).trans hfault
      · exact hbefore.trans hfault
    have hy : Once ⟨y, g.mode, b'⟩ := by
      refine .issued hiss h.ends (hp.doneFn _) (fun hc => hslash (.inl hc)) hg' (fun hm => ⟨hdl hm, hslash (.inr hm)⟩) ?_
      rcases hp.mode with hm | hm | hm <;> rw [hm] <;> decide
    exact hy.frame g.after (hp.after y.usr) (hafter y.usr) fun _ => rfl
  | erases _ _ =>
    have hf : (erase F s.usr).fault = s.usr.fault := dropEntry_fault _
    refine .of_quiet h.ends (fun _ _ _ => ?_) (by simp) (hf.trans hfault)
    exact (same_dropEntry _).2.1.trans hb
  | names _ _ _ =>
    exact .of_quiet h.ends
      (fun _ _ _ => hb) (fun _ => slash_filePath _ _) hfault
  | nothing => exact .of_quiet h.ends (fun _ _ _ => hb) (by simp) hfault

lemma moveCursor_fault (down : Key → Bool) (a : AppT V) : (moveCursor down a).fault = a.fault := by
  unfold moveCursor
  simp only
  split_ifs <;> rfl

lemma Once.step (h : Once m) (hst : Steady m) (hok : orderly m e) (hs : Effect F n m e m') : Once m' := by
  cases hs with
  | @connect new conn r x mode hm hrep ho hx =>
    have hoff := ho (hst.setup hm)
    have hmode : mode ≠ .download ∧ mode ≠ .moveInput := by rcases hx with rfl | rfl <;> decide
    refine .of_quiet ?_ (fun k hk hc => ?_) (fun hx => (hx.elim hmode.1 hmode.2).elim) ?_
    · rw [hrep.results]
      exact (EndsOnce.other h.ends rfl r).1
    · cases Option.some.inj (hoff.doneFn.symm.trans hk)
      cases hc
    · rcases hrep.usr with hu | hu <;> rw [hu] <;> exact h.fault
  | @quiet _ new x hm hr hq =>
    have hu : x.user = m.s.user := hq.turn.user
    obtain ⟨hb, -⟩ := flags_of_turn hq.turn
    have hpath := slash_of_turn hq.turn
    have hres : x.results = m.s.results := hq.turn.results
    refine ⟨hres ▸ h.ends, fun k hk hc hx => ?_, fun k hk hc hx => ?_, fun hx => ?_,
      (fault_of_turn hq.turn).trans h.fault⟩
    · rw [hres]
      exact h.waits k (hu ▸ hk) hc (hb.symm.trans hx)
    · refine hpath (fun hp => ?_) hok (h.slash k (hu ▸ hk) hc (hb.symm.trans hx))
      cases Option.some.inj ((hst.pwd hp).1.symm.trans (hu ▸ hk))
      simp [cuts] at hc
    · refine hpath (fun hp => ?_) hok (h.left hx)
      rcases hx with hx | hx
      · cases (hst.pwd hp).1.symm.trans (hst.download hx)
      · exact (hst.idle (by simp [show m.mode = .moveInput from hx]) (hst.online (by rw [show m.mode = .moveInput from hx]; rfl))
          (hst.input hx)).not_pwd hp
  | @silent _ new r t hm hr hcall hk =>
    have hpath := slash_of_turn hcall.turn
    have hres : t.results = m.s.results := hcall.turn.results
    refine .of_quiet (hres ▸ h.ends) (fun k hk' => by cases hk.symm.trans hk') (fun hx => ?_)
      ((fault_of_turn hcall.turn).trans h.fault)
    have hdone : m.s.user.doneFn = none := (congrArg User.doneFn hcall.turn.user).symm.trans hk
    refine hpath (fun hp => ?_) hok (h.left hx)
    cases hdone.symm.trans (hst.pwd hp).1
  | called hm hr hcall hk hx => exact h.called hst hr hcall hok hk hx
  | started hm hx =>
    refine ⟨h.ends, h.waits, h.slash, fun hmode => ?_, h.fault⟩
    rcases hx with ⟨rfl, -⟩ | rfl <;> simp at hmode
  | @cursor down new hm hop =>
    have hsame : Same m.s.usr { moveCursor down m.s.usr with tcpNew := new } := same_moveCursor down m.s.usr
    exact h.frame (fun a => { moveCursor down a with tcpNew := new }) hsame (moveCursor_fault down _) fun _ => rfl
  | @runs down new op x mode b hm hop hx =>
    have hsame : Same m.s.usr { moveCursor down m.s.usr with tcpNew := new } := same_moveCursor down m.s.usr
    have hmoved : Once ⟨setNew new (onApp (moveCursor down) m.s), .main, m.began⟩ :=
      h.frame (fun a => { moveCursor down a with tcpNew := new }) hsame (moveCursor_fault down _) (by simp)
    refine hmoved.ran (chooseOp_some hop).2 hx fun hback => ?_
    subst hback
    simp only [orderly, hop, ne_eq, not_true_eq_false, false_or, decide_eq_true_eq] at hok
    exact hsame.1.symm ▸ hok
  | noInput _ | uploaded _ => exact ⟨h.ends, h.waits, h.slash, by simp, h.fault⟩
  | input hm hstr hiss =>
    exact .issued hiss h.ends rfl (fun _ => h.left (.inr hm)) h.fault (by simp) (by simp)
  | downloaded hm =>
    exact .of_quiet h.ends (fun k hk => by cases hk) (by simp) ((cutPath_fault (h.left (.inl hm))).trans h.fault)
  | quit hm hu hst =>
    refine ⟨hu.results ▸ h.ends, ?_, ?_, by simp, hu.usr ▸ h.fault⟩
    · rw [hu.user, hu.usr, hu.results]
      exact h.waits
    · rw [hu.user, hu.usr]
      exact h.slash

end Step

lemma orderly_began (m : Main V) (b : Option Began) (e : Event) : orderly { m with began := b } e = orderly m e := by
  cases e <;> rfl

/-- **Every operation ends at most once**, and every path that is cut has a slash, in a run of orderly events. -/
theorem ends_once (F : Fileioc V) (n : ℕ) (vars : V) (userName password : Bytes) (es : List Event) (m : Main V)
    (h : run (guarded orderly (stepMain F (n + 1))) (boot F vars userName password) es = some m) :
    EndsOnce m.s.trace ∧ m.s.usr.fault = false := by
  have hboot : Once (boot F vars userName password) :=
    .of_quiet trivial (fun k hk hc => by cases hk; cases hc) (by simp) rfl
  obtain ⟨-, hm⟩ := run_steady (fun m b h => ⟨h.ends, h.waits, h.slash, h.left, h.fault⟩) orderly_began
    (fun m e m' hst _ hi hok hs => hi.step hst hok hs) hboot h
  exact ⟨(endsOnce_results m.s).1 hm.ends, hm.fault⟩

def refusedUpload : List Event :=
  [press .window, reply "200 ok", reply "227 passive (10,0,0,1,4,210)", reply "550 no", .leave false]

theorem ends_once_refused :
    ∃ m, run (guarded orderly (stepMain noVars 1)) (boot noVars () [] []) (loginEvents ++ refusedUpload) = some m ∧
      stale m.s ∧ EndsOnce m.s.trace ∧ m.s.usr.fault = false :=
  ⟨_, rfl, by decide +kernel, ends_once noVars 0 () [] [] (loginEvents ++ refusedUpload) _ rfl⟩

instance (t : List (Obs Ptr)) : Decidable (EndsOnce t) := inferInstanceAs (Decidable (Always _ t))

/-- **The callback of the upload runs twice**: when the server refuses it, and when the program is left. -/
theorem ends_twice :
    ∃ m, run (stepMain noVars 1) (boot noVars () [] []) (loginEvents ++ refusedUpload ++ [.quit, reply "221 bye"]) = some m ∧
      ¬ EndsOnce m.s.trace :=
  ⟨_, rfl, by decide +kernel⟩

end LwftpCe.App
