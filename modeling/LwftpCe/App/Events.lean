import LwftpCe.App.Path

/-!
# What an event does to the application

What the invariants of the following modules share: a report of the stack with a result ends in a call of `done_fn`
(`handle_calls`), what the callbacks do with it (`Called`), what the operations do around their call of the API (`Ran`), and
what holds between the events of every run (`Steady`).
-/

namespace LwftpCe.App

open Lib Lwftp List Session Option AppT

variable {V : Type} {F : Fileioc V} {n : ℕ} {c : Caller Ptr (AppT V)} {s : Prog V} {e : Tcp} {r : Result} {m : Main V}
  {t : Prog V} {op : Op} {api : Api → Prog V → Prog V} {down : Key → Bool}

/-! ### Reports of the stack -/

/-- A report of the stack that ends in a call of `done_fn`: the session `t` just before it. -/
structure Calling (c : Caller Ptr (AppT V)) (e : Tcp) (r : Result) (s t : Prog V) : Prop where
  turn : Turn c e s t
  ends : r.ends
  /-- nothing but the reply to PWD goes to the sink -/
  data : e.payloads s = [] ∨ s.controlState = .pwdSent
  rest : t.controlState = .logged ∧ t.dataPcb = none ∧ s.controlState ≠ .logged ∧ s.controlState ≠ .closed ∨
    t.controlState = .closed ∧ t.controlPcb = none
  ok : r = .ok ∨ r = .logged → s.controlState ≠ .logged ∧ s.controlState ≠ .closed ∧
    (t.controlState = .closed → s.controlState = .quitSent)

lemma handle_calls (hc : Lawful c) (h : Wf s) (hf : s.fault = false) (he : e.enabled s) (hr : e.result s = some r) :
    ∃ t, Calling c e r s t ∧ e.handle c s = t.callDone c r := by
  have ht := handle_turned hc h hf e he
  generalize e.handle c s = x at ht
  unfold Turned at ht
  simp only [hr] at ht
  cases ht with
  | @ends m t hd hends hs hok herr =>
    exact ⟨m, ⟨t, hends, .inl hd, hs, fun h => ⟨(hok h).2.1, (hok h).2.2.1, fun hm => ((hok h).2.2.2 hm).1⟩⟩, rfl⟩
  | pwd pc q qs he hs hq hr =>
    subst hr he
    have hpay : (Tcp.controlRecv pc (q :: qs) true).payloads s = [some q.payload] := by
      simp [Tcp.payloads, hs, hq]
    refine ⟨_, ⟨⟨?_, fun P _ hsink hP => ?_, ?_, fun h => by cases h⟩, rfl, .inr hs, .inl ⟨rfl, ?_, ?_, ?_⟩, fun _ =>
      ⟨?_, ?_, fun h => by cases h⟩⟩, rfl⟩
    · unfold callSink
      split <;> rfl
    · unfold callSink
      split
      · exact hP
      · next k hk => exact hsink k _ _ hk (by rw [hpay]; exact mem_cons_self) hP
    · unfold callSink
      split <;> rfl
    · have hnone := h.dataPcb_eq_none (by rw [hs]; rfl)
      unfold callSink
      split <;> exact hnone
    all_goals
      rw [hs]
      decide

lemma handle_quiet (hc : Lawful c) (h : Wf s) (hf : s.fault = false)
    (he : e.enabled s) (hr : e.result s = none) : Quiet c e s (e.handle c s) := by
  have ht := handle_turned hc h hf e he
  unfold Turned at ht
  simpa only [hr] using ht

lemma Calling.resting (h : Calling c e r s t) : resting t :=
  h.rest.imp And.left id

/-! ### The callbacks -/

def toList (s : Prog V) : Prog V :=
  onUser (fun u => { u with dataSink := some .ftpListDataSink, doneFn := some .ftpListCallback }) (onApp AppT.clearRemote s)
def toPwd (s : Prog V) : Prog V :=
  onUser (fun u => { u with dataSink := some .ftpPwdDataSink, doneFn := some .ftpPwdCallback })
    (onApp (fun a => { a with busy := true, rxOffset := 0, path := [] }) s)

/-- The callbacks that go on with a listing: the result for which they do so, and what they do before. -/
inductive Relists : Ptr → Result → (AppT V → AppT V) → Prop
  | login : Relists .ftpConnectCallback .logged fun a => { a with ftpStarted := true }
  | cwd : Relists .ftpCwdCallback .ok id
  | del : Relists .ftpDelCallback .ok AppT.cutPath
  | move : Relists .ftpMoveCallback .ok fun a => a.cutPath.dropEntry
  | stor : Relists .ftpStorCallback .ok AppT.cutPath

def AppT.store (F : Fileioc V) (a : AppT V) : AppT V :=
  match receiveFile a.fileBuffer with
  | none => { a with busy := false }
  | some v => utilGetLocalFiles F { a with busy := false, vars := F.writeVar a.vars v.name v.type v.data v.archived }

/-- A call of the API that starts an operation: it is accepted or refused. -/
structure Issued (a : Api) (st : State) (k : Ptr) (s x : Prog V) : Prop where
  started : Started a st k s x
  report : ∃ r, r.ends = false ∧ x.results = .done k r :: s.results

lemma callApi_issued (F : Fileioc V) (n : ℕ) {a : Api} {st : State} (ha : a.begins = some st) {k : Ptr}
    (hk : s.user.doneFn = some k) (ho : k.isOp) : Issued a st k s (callApi (appCaller F n) a s) := by
  obtain ⟨api, hdone⟩ := appCaller_done F n
  have hb := callApi_begun (c := appCaller F n) ha s
  generalize callApi (appCaller F n) a s = s' at hb
  cases hb with
  | @accepted m h hs hm =>
    have he : m.callDone (appCaller F n) .inprogress = m.note (.done k .inprogress) := by
      simp only [callDone, h.user, hk, hdone, appDone_inprogress]
    have hd : (m.note (.done k .inprogress)).results = .done k .inprogress :: s.results := congrArg (_ :: ·) h.results
    rw [he]
    exact ⟨.accepted h.user h.usr hd hs hm, .inprogress, rfl, hd⟩
  | @refused m r hr h hs hp hn =>
    have hne : r ≠ .inprogress ∧ r ≠ .ok ∧ r.ends = false := by
      rcases hr with rfl | rfl <;> exact ⟨by decide, by decide, rfl⟩
    have he : m.callDone (appCaller F n) r = onApp (fails k r) (m.note (.done k r)) := by
      simp only [callDone, h.user, hk, hdone]
      exact appDone_fails F api ho hne.1 hne.2.1 _
    have hd : (m.note (.done k r)).results = .done k r :: s.results := congrArg (_ :: ·) h.results
    rw [he]
    exact ⟨.refused hne.1 hne.2.1 h.user (congrArg (fails k r) h.usr) hd hs hp hn, r, hne.2.2, hd⟩

/-- What the callback `k` makes of the result `r` of an operation, or of the connection. -/
inductive Called (F : Fileioc V) (k : Ptr) (r : Result) (t : Prog V) : Prog V → Prop
  | fails (hk : k.isOp) (hr : r ≠ .ok) : Called F k r t (onApp (AppT.fails k r) t)
  /-- the login has failed -/
  | hangs {x : Prog V} (hk : k = .ftpConnectCallback) (hu : x.user = t.user)
      (hw : x.usr = { t.usr with ftpResult := r, busy := false }) (hd : x.results = t.results)
      (hs : x.controlState = t.controlState ∧ x.controlPcb = t.controlPcb ∨ x.controlState = .quitSent) : Called F k r t x
  | lists {x : Prog V} {f : AppT V → AppT V} (hk : Relists k r f)
      (h : Issued (.mlsd (f t.usr).tcpNew) .typeSent .ftpListCallback (toList (onApp f t)) x) : Called F k r t x
  | asks {x : Prog V} (hk : k = .ftpListCallback) (hr : r = .ok)
      (h : Issued .printDir .pwdSent .ftpPwdCallback (toPwd t) x) : Called F k r t x
  | told (hk : k = .ftpPwdCallback) (hr : r = .ok) : Called F k r t (onApp (fun a => { a with busy := false }) t)
  | stores (hk : k = .ftpRetrCallback) (hr : r = .ok) : Called F k r t (onApp (AppT.store F) t)
  | idle (hk : k.isOp = false) (hc : k ≠ .ftpConnectCallback) : Called F k r t t

lemma utilGetRemoteFiles_issued (F : Fileioc V) (n : ℕ) (s : Prog V) :
    Issued (.mlsd s.usr.tcpNew) .typeSent .ftpListCallback (toList s)
      (utilGetRemoteFiles (callApi (appCaller F n)) s) :=
  callApi_issued F n rfl rfl rfl

lemma appDone_called (F : Fileioc V) (n : ℕ) (k : Ptr) (hr : r ≠ .inprogress) (t : Prog V) :
    Called F k r t (appDone F (callApi (appCaller F n)) k r t) := by
  by_cases ho : k.isOp
  · by_cases hok : r = .ok
    · subst hok
      cases k with
      | ftpListCallback => exact .asks rfl rfl (callApi_issued F n rfl rfl rfl)
      | ftpPwdCallback => exact .told rfl rfl
      | ftpCwdCallback => exact .lists .cwd (utilGetRemoteFiles_issued F n t)
      | ftpDelCallback =>
        have hnew : t.usr.cutPath.tcpNew = (onApp cutPath t).usr.tcpNew := rfl
        exact .lists .del (hnew ▸ utilGetRemoteFiles_issued F n (onApp cutPath t))
      | ftpMoveCallback => exact .lists .move (utilGetRemoteFiles_issued F n (onApp (fun a => a.cutPath.dropEntry) t))
      | ftpStorCallback => exact .lists .stor (utilGetRemoteFiles_issued F n (onApp cutPath t))
      | ftpRetrCallback =>
        have he : appDone F (callApi (appCaller F n)) .ftpRetrCallback .ok t = onApp (store F) t := by
          simp only [appDone, ftpRetrCallback, reduceCtorEq, if_false, ne_eq, not_true_eq_false, onApp, store]
          cases receiveFile t.usr.fileBuffer <;> rfl
        rw [he]
        exact .stores rfl rfl
      | _ => cases ho
    · rw [appDone_fails F _ ho hr hok]
      exact .fails ho hok
  · by_cases hc : k = .ftpConnectCallback
    · subst hc
      simp only [appDone, ftpConnectCallback]
      rw [if_neg hr]
      split_ifs with hl
      · have hu := callApi_close_uncalled (c := appCaller F n) (onApp (fun a => { a with ftpResult := r }) t)
        refine .hangs rfl hu.user ?_ hu.results (callApi_close_control _)
        change { (callApi (appCaller F n) .close _).usr with busy := false } = _
        rw [hu.usr]
        rfl
      · obtain rfl : r = .logged := by simpa using hl
        exact .lists .login (utilGetRemoteFiles_issued F n (onApp (fun a => { a with ftpStarted := true }) t))
    · have hid : appDone F (callApi (appCaller F n)) k r t = t := by
        cases k <;> first | rfl | exact absurd rfl ho | exact absurd rfl hc
      rw [hid]
      exact .idle (by simpa using ho) hc

/-- The report of `lwftp_connect`: nothing changes but the flag and the result. -/
structure Reported (r : Result) (s x : Prog V) : Prop where
  user : x.user = s.user
  results : x.results = .done .ftpConnectCallback r :: s.results
  usr : x.usr = s.usr ∨ x.usr = { s.usr with ftpResult := r, busy := false }

lemma Offline.reported {x : Prog V} (h : Offline s) (hr : Reported r s x) (hx : x.controlState ≠ .pwdSent) : Offline x := by
  refine ⟨hr.user ▸ h.doneFn, ?_, hx, h.calm.done hr.results (.inl (by decide))⟩
  rcases hr.usr with hu | hu <;> rw [hu] <;> exact h.started

lemma callDone_reported (hd : s.user.doneFn = some .ftpConnectCallback) (hu : Uncalled s t) (hr : r ≠ .logged)
    (ht : t.controlState ≠ .pwdSent) :
    Reported r s (t.callDone (appCaller F (n + 1)) r) ∧
      (t.callDone (appCaller F (n + 1)) r).controlState ≠ .pwdSent := by
  have hk : t.user.doneFn = some .ftpConnectCallback := hu.user ▸ hd
  simp only [callDone, hk]
  by_cases hin : r = .inprogress
  · subst hin
    have hsame : (appCaller F (n + 1)).done .ftpConnectCallback .inprogress (t.note (.done .ftpConnectCallback .inprogress)) =
        t.note (.done .ftpConnectCallback .inprogress) :=
      appDone_inprogress F (callApi (appCaller F n)) .ftpConnectCallback (t.note (.done .ftpConnectCallback .inprogress))
    exact ⟨⟨hu.user, congrArg (_ :: ·) hu.results, .inl hu.usr⟩, ht⟩
  · have hc : Called F .ftpConnectCallback r (t.note (.done .ftpConnectCallback r)) ((appCaller F (n + 1)).done
        .ftpConnectCallback r (t.note (.done .ftpConnectCallback r))) := appDone_called F n .ftpConnectCallback hin _
    generalize (appCaller F (n + 1)).done .ftpConnectCallback r (t.note (.done .ftpConnectCallback r)) = x at hc
    cases hc with
    | fails ho => cases ho
    | hangs _ hxu hxw hxd hxs =>
      refine ⟨⟨hxu.trans hu.user, hxd.trans (congrArg (_ :: ·) hu.results), .inr ?_⟩, fun hp => ?_⟩
      · rw [hxw, ← hu.usr]
        rfl
      · rcases hxs with ⟨hxs, -⟩ | hxs
        · exact ht (hxs.symm.trans hp)
        · cases hxs.symm.trans hp
    | lists hrel =>
      cases hrel
      exact absurd rfl hr
    | asks hk | told hk | stores hk => cases hk
    | idle _ hne => exact absurd rfl hne

lemma lwftpConnect_reported (hd : s.user.doneFn = some .ftpConnectCallback) (hs : s.controlState ≠ .pwdSent)
    (new : Option ℕ) (conn : Bool) :
    ∃ r, Reported r s (lwftpConnect (appCaller F (n + 1)) new conn s).1 ∧
      (lwftpConnect (appCaller F (n + 1)) new conn s).1.controlState ≠ .pwdSent := by
  unfold lwftpConnect
  split
  · exact ⟨_, callDone_reported hd ⟨rfl, rfl, rfl⟩ (by decide) hs⟩
  · cases new with
    | none => exact ⟨_, callDone_reported hd ⟨rfl, rfl, rfl⟩ (by decide) hs⟩
    | some mss =>
      cases conn with
      | true =>
        refine ⟨.inprogress, callDone_reported hd ?_ (by decide) hs⟩
        exact ⟨rfl, rfl, rfl⟩
      | false =>
        have hu := closeAll_uncalled { s.setLink (s.newPcb mss) (some ⟨.control, false⟩) with
          controlPcb := some (s.newPcb mss), nextPcb := s.nextPcb + 1 }
        refine ⟨.errUnknown, callDone_reported hd ?_ (by decide) fun hp => ?_⟩
        · exact ⟨hu.user, hu.usr, hu.results⟩
        · cases (closeAll_closed _).1.symm.trans hp

/-! ### The operations -/

/-- An operation that calls the API: what it does before and behind the call, and where `main` goes on. -/
structure Begin (V : Type) where
  api : Api
  st : State
  k : Ptr
  mode : Mode
  before : AppT V → AppT V
  user : User Ptr → User Ptr
  after : AppT V → AppT V

def AppT.startCwd (a : AppT V) : AppT V :=
  { a with busy := true, selected := Function.update a.selected true 0, start := Function.update a.start true 0 }

def beginCwd (f : AppT V → AppT V) (g : UInt8 → UInt8) : Begin V where
  api := .changeDir
  st := .cwdSent
  k := .ftpCwdCallback
  mode := .main
  before := fun a => (f a).startCwd
  user := fun u => { u with remotePath := some .appPath, doneFn := some .ftpCwdCallback }
  after := fun a => { a with dir := g a.dir }

def beginStor (F : Fileioc V) (f : FileT) (new : Option ℕ) : Begin V where
  api := .store new
  st := .typeSent
  k := .ftpStorCallback
  mode := .upload
  before := fun a => AppT.startUpload F f { a with path := filePath a.path f }
  user := fun u => { u with
    remotePath := some .appPath, dataSource := some .ftpStorDataSource, doneFn := some .ftpStorCallback }
  after := id

def beginDel (f : FileT) : Begin V where
  api := .delete
  st := .deleSent
  k := .ftpDelCallback
  mode := .main
  before := fun a => { a with busy := true, path := filePath a.path f }
  user := fun u => { u with remotePath := some .appPath, doneFn := some .ftpDelCallback }
  after := AppT.dropEntry

def beginRetr (f : FileT) (new : Option ℕ) : Begin V where
  api := .retrieve new
  st := .typeSent
  k := .ftpRetrCallback
  mode := .download
  before := fun a => AppT.startDownload { a with path := filePath a.path f }
  user := fun u => { u with
    remotePath := some .appPath, dataSink := some .ftpRetrDataSink, doneFn := some .ftpRetrCallback }
  after := id

def beginOf (F : Fileioc V) (a : AppT V) : Op → Option (Begin V)
  | .enter => some (beginCwd (fun a => { a with path := dirPath a.path a.dirEntry }) (· + 1))
  | .back => some (beginCwd AppT.cutPath (· - 1))
  | .upload => if a.remoteColumn then none else some (beginStor F a.localEntry a.tcpNew)
  | .delete => if a.remoteColumn = false ∨ a.remoteEntry.type = .dir then none else some (beginDel a.remoteEntry)
  | .download => if a.remoteColumn = false then none else some (beginRetr a.remoteEntry a.tcpNew)
  | .move => none

def AppT.erase (F : Fileioc V) (a : AppT V) : AppT V :=
  (utilGetLocalFiles F { a with vars := F.deleteVar a.vars a.localEntry.str (osType a.localEntry) }).dropEntry

/-- The operation `op` at `s` leads to `x`, in `mode`. -/
inductive Ran (F : Fileioc V) (s : Prog V) (op : Op) : Prog V → Mode → Prop
  | begins {b : Begin V} {y : Prog V} (hb : beginOf F s.usr op = some b)
      (h : Issued b.api b.st b.k (onUser b.user (onApp b.before s)) y) : Ran F s op (onApp b.after y) b.mode
  | erases (ho : op = .delete) (hc : s.usr.remoteColumn = false) : Ran F s op (onApp (AppT.erase F) s) .main
  | names (ho : op = .move) (hc : s.usr.remoteColumn = true) (ht : s.usr.remoteEntry.type ≠ .dir) :
      Ran F s op (onApp (fun a => { a with input := [] }) (appendName s.usr.remoteEntry s)) .moveInput
  | nothing : Ran F s op s .main

/-- What all operations that call the API have in common. -/
structure Begin.Proper (b : Begin V) : Prop where
  begins : b.api.begins = some b.st
  isOp : b.k.isOp
  doneFn : ∀ u, (b.user u).doneFn = some b.k
  remotePath : ∀ u, (b.user u).remotePath.isSome
  state : b.st ≠ .pwdSent
  before : ∀ a, (b.before a).busy = true ∧ (b.before a).ftpStarted = a.ftpStarted
  after : ∀ a, Same a (b.after a)
  download : b.mode = .download → b.k = .ftpRetrCallback
  mode : b.mode = .main ∨ b.mode = .upload ∨ b.mode = .download

lemma beginCwd_proper {f : AppT V → AppT V} {g : UInt8 → UInt8} (hf : ∀ a, (f a).ftpStarted = a.ftpStarted) : (beginCwd f g).Proper :=
  ⟨rfl, rfl, fun _ => rfl, fun _ => rfl, by simp [beginCwd], fun a => ⟨rfl, hf a⟩, fun _ => ⟨rfl, rfl, rfl⟩,
    by simp [beginCwd], by simp [beginCwd]⟩

lemma beginOf_proper {a : AppT V} {b : Begin V} (h : beginOf F a op = some b) : b.Proper := by
  cases op with
  | enter =>
    cases h
    exact beginCwd_proper fun _ => rfl
  | back =>
    cases h
    exact beginCwd_proper fun a => (cutPath_same a).2
  | upload =>
    obtain ⟨-, h⟩ := ite_none_left_eq_some.1 h
    cases h
    exact ⟨rfl, rfl, fun _ => rfl, fun _ => rfl, by simp [beginStor], fun _ => ⟨rfl, rfl⟩, Same.refl, by simp [beginStor],
      by simp [beginStor]⟩
  | delete =>
    obtain ⟨-, h⟩ := ite_none_left_eq_some.1 h
    cases h
    exact ⟨rfl, rfl, fun _ => rfl, fun _ => rfl, by simp [beginDel], fun _ => ⟨rfl, rfl⟩, same_dropEntry, by simp [beginDel],
      by simp [beginDel]⟩
  | download =>
    obtain ⟨-, h⟩ := ite_none_left_eq_some.1 h
    cases h
    exact ⟨rfl, rfl, fun _ => rfl, fun _ => rfl, by simp [beginRetr], fun _ => ⟨rfl, rfl⟩, Same.refl, fun _ => rfl,
      by simp [beginRetr]⟩
  | move => cases h

lemma runOp_ran (F : Fileioc V) (n : ℕ) (s : Prog V) (op : Op) :
    Ran F s op (runOp F (callApi (appCaller F n)) s op).1 (runOp F (callApi (appCaller F n)) s op).2 := by
  have hbegin : ∀ {b : Begin V}, beginOf F s.usr op = some b →
      Issued b.api b.st b.k (onUser b.user (onApp b.before s))
        (callApi (appCaller F n) b.api (onUser b.user (onApp b.before s))) := by
    intro b hb
    have hp := beginOf_proper hb
    exact callApi_issued F n hp.begins (hp.doneFn _) hp.isOp
  cases op with
  | enter | back => exact .begins rfl (hbegin rfl)
  | upload =>
    simp only [runOp, utilUploadFile]
    split_ifs with hc
    · exact .nothing
    · have hb : beginOf F s.usr .upload = some (beginStor F s.usr.localEntry s.usr.tcpNew) := by simp [beginOf, hc]
      exact .begins hb (hbegin hb)
  | delete =>
    simp only [runOp, utilDeleteFile]
    split_ifs with hc ht
    · have he : onApp dropEntry (onApp (fun a => utilGetLocalFiles F { a with
          vars := F.deleteVar a.vars s.usr.localEntry.str (osType s.usr.localEntry) }) s) = onApp (erase F) s := by
        simp only [onApp, erase]
      rw [he]
      exact .erases rfl hc
    · exact .nothing
    · have hb : beginOf F s.usr .delete = some (beginDel s.usr.remoteEntry) := by simp [beginOf, hc, ht]
      exact .begins hb (hbegin hb)
  | download =>
    simp only [runOp, utilDownloadFile]
    split_ifs with hc
    · exact .nothing
    · have hb : beginOf F s.usr .download = some (beginRetr s.usr.remoteEntry s.usr.tcpNew) := by simp [beginOf, hc]
      exact .begins hb (hbegin hb)
  | move =>
    simp only [runOp, utilMoveFile]
    split_ifs with hc
    · exact .nothing
    · rw [not_or] at hc
      exact .names rfl (by simpa using hc.1) hc.2

lemma pressKeys_none (h : chooseOp down (moveCursor down m.s.usr) = none) :
    pressKeys F api down m = { m with s := onApp (moveCursor down) m.s } := by
  have h' : chooseOp down (onApp (moveCursor down) m.s).usr = none := h
  simp only [pressKeys, h']

lemma pressKeys_some (h : chooseOp down (moveCursor down m.s.usr) = some op) :
    pressKeys F api down m = ⟨(runOp F api (onApp (moveCursor down) m.s) op).1, (runOp F api (onApp (moveCursor down) m.s) op).2,
      some (beganAt op (onApp (moveCursor down) m.s))⟩ := by
  have h' : chooseOp down (onApp (moveCursor down) m.s).usr = some op := h
  simp only [pressKeys, h']
  rfl

def toMove (str : Bytes) (s : Prog V) : Prog V :=
  onUser (fun u => { u with remoteNewPath := some .input, doneFn := some .ftpMoveCallback })
    (onApp (fun a => { a with
      input := if str.getLast? = some 47 then str ++ fileName s.usr.remoteEntry else str, busy := true }) s)

lemma utilMoveEnd_issued (F : Fileioc V) (n : ℕ) {str : Bytes} (h : str ≠ []) (s : Prog V) :
    Issued .move .rnfrSent .ftpMoveCallback (toMove str s) (utilMoveEnd (callApi (appCaller F n)) str s) := by
  unfold utilMoveEnd
  rw [if_neg h]
  exact callApi_issued F n rfl rfl rfl

/-! ### Events -/

inductive Effect (F : Fileioc V) (n : ℕ) (m : Main V) : Event → Main V → Prop
  | connect {new : Option ℕ} {conn : Bool} {r : Result} {x : Prog V} {mode : Mode} (hm : m.mode = .setup)
      (h : Reported r (m.s.note (.api (.connect new conn) m.s.controlState)) x) (ho : Offline m.s → Offline x)
      (hx : mode = .connecting ∨ mode = .stopped) :
      Effect F n m (.connect new conn) { m with s := x, mode }
  | quiet {e : Tcp} {new : Option ℕ} {x : Prog V} (hm : m.mode.network) (hr : e.result m.s = none)
      (h : Quiet (appCaller F (n + 1)) e (setNew new m.s) x) : Effect F n m (.tcp e new) { m with s := x }
  /-- `done_fn` is `NULL` -/
  | silent {e : Tcp} {new : Option ℕ} {r : Result} {t : Prog V} (hm : m.mode.network) (hr : e.result m.s = some r)
      (h : Calling (appCaller F (n + 1)) e r (setNew new m.s) t) (hk : t.user.doneFn = none) :
      Effect F n m (.tcp e new) { m with s := t }
  | called {e : Tcp} {new : Option ℕ} {r : Result} {t x : Prog V} {k : Ptr} (hm : m.mode.network)
      (hr : e.result m.s = some r) (h : Calling (appCaller F (n + 1)) e r (setNew new m.s) t)
      (hk : t.user.doneFn = some k) (hx : Called F k r (t.note (.done k r)) x) : Effect F n m (.tcp e new) { m with s := x }
  | started {mode : Mode} (hm : m.mode = .connecting)
      (hx : mode = .main ∧ m.s.usr.ftpStarted = true ∨ mode = .stopped) : Effect F n m .started { m with mode }
  | cursor {down : Key → Bool} {new : Option ℕ} (hm : m.mode = .main)
      (h : chooseOp down (moveCursor down m.s.usr) = none) :
      Effect F n m (.keys down new) { m with s := setNew new (onApp (moveCursor down) m.s) }
  | runs {down : Key → Bool} {new : Option ℕ} {op : Op} {x : Prog V} {mode : Mode} {b : Option Began}
      (hm : m.mode = .main) (h : chooseOp down (moveCursor down m.s.usr) = some op)
      (hx : Ran F (setNew new (onApp (moveCursor down) m.s)) op x mode) : Effect F n m (.keys down new) ⟨x, mode, b⟩
  | noInput (hm : m.mode = .moveInput) : Effect F n m (.input []) { m with mode := .main }
  | input {str : Bytes} {x : Prog V} (hm : m.mode = .moveInput) (hs : str ≠ [])
      (h : Issued .move .rnfrSent .ftpMoveCallback (toMove str m.s) x) :
      Effect F n m (.input str) { m with s := x, mode := .main }
  | uploaded {clear : Bool} (hm : m.mode = .upload) : Effect F n m (.leave clear) { m with mode := .main }
  | downloaded {clear : Bool} (hm : m.mode = .download) :
      Effect F n m (.leave clear) { m with s := utilDownloadEnd m.s, mode := .main }
  | quit {x : Prog V} (hm : m.mode = .main) (hu : Uncalled m.s x)
      (hs : x.controlState = m.s.controlState ∧ x.controlPcb = m.s.controlPcb ∨ x.controlState = .quitSent) :
      Effect F n m .quit { m with s := x, mode := .closing }

lemma result_setNew (e : Tcp) (new : Option ℕ) (s : Prog V) : e.result (setNew new s) = e.result s := by
  cases e with
  | controlRecv p q ok => cases q <;> cases ok <;> rfl
  | _ => rfl

lemma react_effect {m' : Main V} {e : Event} (h : Wf m.s) (hf : m.s.fault = false)
    (hset : m.mode = .setup → Offline m.s) (hs : react F (n + 1) m e = some m') : Effect F n m e m' := by
  cases e with
  | connect new conn =>
    simp only [react, ite_none_right_eq_some] at hs
    obtain ⟨hm, hs⟩ := hs
    obtain ⟨r, hrep, hst⟩ := lwftpConnect_reported
      (s := m.s.note (.api (.connect new conn) m.s.controlState)) (hset hm).doneFn (hset hm).state new conn
    cases hs
    refine .connect hm hrep (fun ho => ?_) ?_
    · exact Offline.reported (s := m.s.note _) ⟨ho.doneFn, ho.started, ho.state, ho.calm.same rfl⟩ hrep hst
    · split_ifs
      · exact .inl rfl
      · exact .inr rfl
  | tcp e new =>
    obtain ⟨⟨hm, he⟩, hs⟩ := ite_none_right_eq_some.1 hs
    cases hs
    have hlaw := appCaller_lawful F (n + 1)
    have hw := Wf.setNew h new
    cases hr : e.result m.s with
    | none =>
      exact .quiet hm ((result_setNew e new m.s).symm.trans hr) (handle_quiet hlaw hw hf he hr)
    | some r =>
      have hr' := (result_setNew e new m.s).trans hr
      obtain ⟨t, hcall, heq⟩ := handle_calls hlaw hw hf he hr'
      have hne : r ≠ .inprogress := by
        rintro rfl
        cases hcall.ends
      rw [heq]
      cases hk : t.user.doneFn with
      | none =>
        simp only [callDone, hk]
        exact .silent hm hr hcall hk
      | some k =>
        simp only [callDone, hk]
        exact .called hm hr hcall hk (appDone_called F n k hne _)
  | started =>
    obtain ⟨hm, hs⟩ := ite_none_right_eq_some.1 hs
    split_ifs at hs with hstarted hres
    · cases hs
      exact .started hm (.inl ⟨rfl, hstarted⟩)
    · cases hs
      exact .started hm (.inr rfl)
  | keys down new =>
    obtain ⟨hm, hs⟩ := ite_none_right_eq_some.1 hs
    cases hs
    -- what `tcp_new` is going to return plays no part in the choice
    have hnew : chooseOp down (moveCursor down (setNew new m.s).usr) = chooseOp down (moveCursor down m.s.usr) :=
      congrArg (fun s => chooseOp down s.usr) (moveCursor_setNew down new m.s)
    cases hop : chooseOp down (moveCursor down m.s.usr) with
    | none =>
      rw [pressKeys_none (m := { m with s := setNew new m.s }) (hnew.trans hop)]
      simp only [moveCursor_setNew]
      exact .cursor hm hop
    | some op =>
      rw [pressKeys_some (m := { m with s := setNew new m.s }) (hnew.trans hop)]
      simp only [moveCursor_setNew]
      exact .runs hm hop (runOp_ran F (n + 1) _ op)
  | input str =>
    obtain ⟨⟨hm, -⟩, hs⟩ := ite_none_right_eq_some.1 hs
    cases hs
    by_cases hstr : str = []
    · subst hstr
      exact .noInput hm
    · exact .input hm hstr (utilMoveEnd_issued F (n + 1) hstr m.s)
  | leave clear =>
    obtain ⟨-, hs⟩ := ite_none_right_eq_some.1 hs
    unfold leaveLoop at hs
    split at hs
    · next hm =>
      cases hs
      exact .uploaded hm
    · next hm =>
      cases hs
      exact .downloaded hm
    · cases hs
  | quit =>
    obtain ⟨hm, hs⟩ := ite_none_right_eq_some.1 hs
    cases hs
    exact .quit hm (callApi_close_uncalled _) (callApi_close_control _)

/-! ### Every run -/

def Mode.online : Mode → Bool
  | .main | .upload | .download | .moveInput | .closing => true
  | .setup | .connecting | .stopped => false

structure Steady (m : Main V) : Prop where
  wf : Wf m.s
  setup : m.mode = .setup → Offline m.s
  online : m.mode.online → m.s.usr.ftpStarted = true
  idle : m.mode ≠ .closing → m.s.usr.ftpStarted = true → m.s.usr.busy = false → resting m.s
  pwd : m.s.controlState = .pwdSent → m.s.user.doneFn = some .ftpPwdCallback ∧ m.s.user.dataSink = some .ftpPwdDataSink
  login : m.s.user.doneFn = some .ftpConnectCallback → m.s.usr.ftpStarted = false
  download : m.mode = .download → m.s.user.doneFn = some .ftpRetrCallback
  input : m.mode = .moveInput → m.s.usr.busy = false
  remotePath : m.s.user.remotePath.isSome

section Steady

variable {m m' : Main V} {s t x : Prog V} {began : Option Began} {e : Event} {mode : Mode}

def Flags (a a' : AppT V) : Prop := a'.busy = a.busy ∧ a'.ftpStarted = a.ftpStarted

lemma flags_sink (F : Fileioc V) (n : ℕ) (k : Ptr) (d : Option Bytes) (a : AppT V) : Flags a ((appCaller F n).sink k d a) := by
  obtain ⟨_, _, _, _, _, h⟩ | ⟨-, _, _, -, h⟩ := sink_frame F n k d a
  · rw [h]
    exact ⟨rfl, rfl⟩
  · rw [h]
    exact ⟨rfl, rfl⟩

lemma flags_of_turn {e : Tcp} (h : Turn (appCaller F n) e s t) : Flags s.usr t.usr :=
  h.usr (Flags s.usr)
    (fun k b len u hu => ⟨(same_source F n k b len u).2.1.trans hu.1, (same_source F n k b len u).2.2.trans hu.2⟩)
    (fun k d u _ _ hu => ⟨(flags_sink F n k d u).1.trans hu.1, (flags_sink F n k d u).2.trans hu.2⟩) ⟨rfl, rfl⟩

lemma Steady.of_resting (hw : Wf x) (hr : resting x) (hd : x.user.doneFn ≠ some .ftpConnectCallback)
    (hp : x.user.remotePath.isSome) (hset : mode ≠ .setup)
    (hon : mode.online → x.usr.ftpStarted = true) (hdl : mode = .download → x.user.doneFn = some .ftpRetrCallback)
    (hin : mode = .moveInput → x.usr.busy = false) : Steady ⟨x, mode, began⟩ :=
  ⟨hw, fun h => absurd h hset, hon, fun _ _ _ => hr, fun h => absurd h hr.not_pwd, fun h => absurd h hd, hdl, hin, hp⟩

lemma Steady.of_busy (hw : Wf x) (hb : x.usr.busy = true) (hst : x.controlState = .pwdSent →
      x.user.doneFn = some .ftpPwdCallback ∧ x.user.dataSink = some .ftpPwdDataSink)
    (hd : x.user.doneFn ≠ some .ftpConnectCallback) (hp : x.user.remotePath.isSome) (hset : mode ≠ .setup) (hon : mode.online → x.usr.ftpStarted = true)
    (hdl : mode = .download → x.user.doneFn = some .ftpRetrCallback) (hin : mode ≠ .moveInput) :
    Steady ⟨x, mode, began⟩ :=
  ⟨hw, fun h => absurd h hset, hon, fun _ _ h => by simp [hb] at h, hst, fun h => absurd h hd, hdl,
    fun h => absurd h hin, hp⟩

lemma Steady.anyBegan (h : Steady m) (b : Option Began) : Steady { m with began := b } :=
  ⟨h.wf, h.setup, h.online, h.idle, h.pwd, h.login, h.download, h.input, h.remotePath⟩

lemma Steady.settle (h : Steady m) : Steady m.settle := by
  unfold Main.settle
  split_ifs
  · exact h.anyBegan none
  · exact h

lemma Steady.frame (h : Steady m) (f : AppT V → AppT V) (hf : Flags m.s.usr (f m.s.usr)) : Steady { m with s := onApp f m.s } := by
  obtain ⟨hb, hs⟩ := hf
  refine ⟨h.wf.frame _ _ _ _ _, fun hm => ?_, ?_, ?_, h.pwd, ?_, h.download, ?_, h.remotePath⟩
  · obtain ⟨h1, h2, h3, h4⟩ := h.setup hm
    exact ⟨h1, hs.trans h2, h3, h4⟩
  · exact fun hm => hs.trans (h.online hm)
  · exact fun hm h1 h2 => h.idle hm (hs.symm.trans h1) (hb.symm.trans h2)
  · exact fun hd => hs.trans (h.login hd)
  · exact fun hm => hb.trans (h.input hm)

lemma Steady.started {a : Api} {st : State} {k : Ptr} (h : Started a st k s x) (hx : Wf x) (hr : resting s) (hb : s.usr.busy = true)
    (hst : st = .pwdSent → s.user.doneFn = some .ftpPwdCallback ∧ s.user.dataSink = some .ftpPwdDataSink)
    (hd : s.user.doneFn ≠ some .ftpConnectCallback) (hp : s.user.remotePath.isSome)
    (hset : mode ≠ .setup) (hon : mode.online → s.usr.ftpStarted = true)
    (hdl : mode = .download → s.user.doneFn = some .ftpRetrCallback) (hin : mode ≠ .moveInput) :
    Steady ⟨x, mode, began⟩ := by
  cases h with
  | accepted hu hw _ _ hxst =>
    refine .of_busy hx (hw ▸ hb) (fun h => ?_) (hu ▸ hd) (hu ▸ hp) hset (hw ▸ hon) (hu ▸ hdl) hin
    rw [hu]
    exact hst (hxst.symm.trans h)
  | @refused r _ _ hu hw _ hs hpcb _ =>
    refine .of_resting hx (hr.congr hs hpcb) (hu ▸ hd) (hu ▸ hp) hset (fun h => ?_) (hu ▸ hdl) fun h => absurd h hin
    rw [hw]
    have hstarted : (s.usr.fails k r).ftpStarted = s.usr.ftpStarted := by
      unfold fails
      split_ifs
      · exact (cutPath_same s.usr).2
      · rfl
    exact hstarted.trans (hon h)

lemma not_setup_of_network (h : mode.network) : mode ≠ .setup := by
  rintro rfl
  cases h

lemma Steady.called (h : Steady m) {c : Caller Ptr (AppT V)} {e : Tcp} {r : Result} (hcall : Calling c e r m.s t)
    (hflags : Flags m.s.usr t.usr) (hnet : m.mode.network) {k : Ptr} (hk : t.user.doneFn = some k)
    (hdone : Called F k r (t.note (.done k r)) x) (hx : Wf x) : Steady { m with s := x } := by
  have hset := not_setup_of_network hnet
  obtain ⟨hb, hs⟩ := hflags
  have hu := hcall.turn.user
  have hon : m.mode.online → t.usr.ftpStarted = true := fun hm => hs.trans (h.online hm)
  have hdl : m.mode = .download → t.user.doneFn = some .ftpRetrCallback := fun hm => hu ▸ h.download hm
  have hp : t.user.remotePath.isSome := hu ▸ h.remotePath
  -- the input of a move finds the session at rest, and then no operation ends well
  have hin : r = .ok ∨ r = .logged → m.mode ≠ .moveInput := by
    intro hr hm
    obtain ⟨h1, h2, -⟩ := hcall.ok hr
    rcases h.idle (by simp [hm]) (h.online (by rw [hm]; rfl)) (h.input hm) with h | ⟨h, -⟩
    · exact h1 h
    · exact h2 h
  have hrt : resting (t.note (.done k r)) := hcall.resting
  cases hdone with
  | fails ho hr =>
    refine .of_resting hx hrt ?_ hp hset (fun hm => ?_) hdl fun _ => rfl
    · simp only [onApp, note, hk, ne_eq, Option.some.injEq]
      rintro rfl
      cases ho
    · refine Eq.trans ?_ (hon hm)
      simp only [onApp, note, fails]
      split_ifs
      · exact (cutPath_same t.usr).2
      · rfl
  | hangs hkc hxu hxw _ hxs =>
    subst hkc
    have hstarted : t.usr.ftpStarted = false := hs.trans (h.login (hu ▸ hk))
    have hnon : ∀ {P : Prop}, m.mode.online → P := fun hm => absurd ((hon hm).symm.trans hstarted) (by simp)
    have hxf : x.usr.ftpStarted = false := by rw [hxw]; exact hstarted
    refine ⟨hx, fun hm => absurd hm hset, hnon, fun _ h1 => absurd (hxf.symm.trans h1) (by simp), fun hpwd => ?_,
      fun _ => hxf, fun hm => hnon (by rw [hm]; rfl), fun hm => hnon (by rw [hm]; rfl), by rw [hxu]; exact hp⟩
    rcases hxs with ⟨hxs, -⟩ | hxs
    · exact absurd (hxs.symm.trans hpwd) hrt.not_pwd
    · exact absurd (hxs.symm.trans hpwd) (by decide)
  | @lists _ f hrel hst =>
    have hdl' : m.mode ≠ .download := by
      intro hm
      have := Option.some.inj (hk.symm.trans (hdl hm))
      subst this
      cases hrel
    refine .started hst.started hx (hrt.congr rfl rfl) rfl (fun h => by cases h) (by simp [toList, onUser]) hp hset (fun hm => ?_)
      (fun hm => absurd hm hdl') (hin (by cases hrel <;> simp))
    cases hrel with
    | login => rfl
    | cwd => exact hon hm
    | del | stor => exact (cutPath_same t.usr).2.trans (hon hm)
    | move => exact (same_dropEntry _).2.2.trans ((cutPath_same t.usr).2.trans (hon hm))
  | asks hkl hr hst =>
    subst hkl
    have hdl' : m.mode ≠ .download := by
      intro hm
      cases hk.symm.trans (hdl hm)
    exact .started hst.started hx (hrt.congr rfl rfl) rfl (fun _ => ⟨rfl, rfl⟩) (by simp [toPwd, onUser]) hp hset hon
      (fun hm => absurd hm hdl') (hin (.inl hr))
  | told hkp hr =>
    subst hkp
    exact .of_resting hx hrt (by simp [onApp, note, hk]) hp hset hon hdl fun _ => rfl
  | stores hkr hr =>
    subst hkr
    have hflags : ∀ a : AppT V, (a.store F).busy = false ∧ (a.store F).ftpStarted = a.ftpStarted := by
      intro a
      unfold store
      split <;> exact ⟨rfl, rfl⟩
    exact .of_resting hx hrt (by simp [onApp, note, hk]) hp hset (fun hm => (hflags t.usr).2.trans (hon hm)) hdl
      fun _ => (hflags t.usr).1
  | idle ho hc =>
    refine .of_resting hx hrt ?_ hp hset hon hdl fun hm => hb.trans (h.input hm)
    simpa [note, hk] using hc

lemma Steady.ran (h : Steady ⟨s, .main, began⟩) (hb : s.usr.busy = false) {op : Op}
    (hr : Ran F s op x mode) (hx : Wf x) (b' : Option Began) : Steady ⟨x, mode, b'⟩ := by
  have hs : s.usr.ftpStarted = true := h.online rfl
  have hrest : resting s := h.idle (by simp) hs hb
  have hd : s.user.doneFn ≠ some .ftpConnectCallback := fun hd => absurd (hs.symm.trans (h.login hd)) (by simp)
  cases hr with
  | @begins b y hbegin hst =>
    have hp := beginOf_proper hbegin
    have hpb := hp.before s.usr
    have hset : b.mode ≠ .setup ∧ b.mode ≠ .moveInput := by
      rcases hp.mode with hm | hm | hm <;> rw [hm] <;> decide
    have hy : Wf y := hx.frame y.user y.usr y.trace y.fault y.dataState
    have hsteady : Steady ⟨y, b.mode, b'⟩ := by
      refine .started hst.started hy (hrest.congr rfl rfl) hpb.1 (fun h => absurd h hp.state) ?_ (hp.remotePath _) hset.1
        (fun _ => hpb.2.trans hs) (fun hm => (hp.doneFn _).trans (congrArg some (hp.download hm))) hset.2
      simp only [onUser, hp.doneFn, ne_eq, Option.some.injEq]
      intro hk
      have := hp.isOp
      rw [hk] at this
      cases this
    exact hsteady.frame b.after (hp.after y.usr).2
  | erases _ _ =>
    have hflags : Flags s.usr (erase F s.usr) := (same_dropEntry _).2
    exact (h.anyBegan b').frame _ hflags
  | names _ _ _ =>
    exact .of_resting hx (hrest.congr rfl rfl) hd rfl (by simp) (fun _ => hs) (by simp) fun _ => hb
  | nothing => exact h.anyBegan b'

lemma Steady.step (h : Steady m) (hs : Effect F n m e m') (hwf : Wf m'.s) : Steady m' := by
  have hnew : ∀ new, Steady { m with s := setNew new m.s } := fun new => h.frame _ ⟨rfl, rfl⟩
  cases hs with
  | connect hm hrep hoff hmode =>
    have hoff' := hoff (h.setup hm)
    refine ⟨hwf, ?_, ?_, fun _ hs => ?_, fun hp => absurd hp hoff'.state, fun _ => hoff'.started, ?_, ?_, ?_⟩
    · rcases hmode with rfl | rfl <;> simp
    · rcases hmode with rfl | rfl <;> simp [Mode.online]
    · exact absurd (hoff'.started.symm.trans hs) (by simp)
    · rcases hmode with rfl | rfl <;> simp
    · rcases hmode with rfl | rfl <;> simp
    · exact hrep.user ▸ h.remotePath
  | @quiet _ new x hm hr hq =>
    obtain ⟨hb, hs⟩ := flags_of_turn hq.turn
    have hu := hq.turn.user
    refine ⟨hwf, fun h' => absurd h' (not_setup_of_network hm), fun hm => hs.trans (h.online hm), fun hm h1 h2 => ?_, fun hp => ?_,
      fun hd => ?_, fun hm => ?_, fun hm => hb.trans (h.input hm), ?_⟩
    · rcases h.idle hm (hs.symm.trans h1) (hb.symm.trans h2) with h | ⟨h, h'⟩
      · exact .inl ((hq.rest (.inl h)).trans h)
      · exact .inr (hq.closed h h')
    · rw [hu]
      exact h.pwd (hq.turn.pwd hp)
    · exact hs.trans (h.login (hu ▸ hd))
    · rw [hu]
      exact h.download hm
    · rw [hu]
      exact h.remotePath
  | @silent _ new _ t hm hr hcall hk =>
    obtain ⟨hb, hs⟩ := flags_of_turn hcall.turn
    have hu := hcall.turn.user
    exact .of_resting hwf hcall.resting (by simp [hk]) (hu ▸ h.remotePath) (not_setup_of_network hm) (fun hm => hs.trans (h.online hm))
      (fun hm => hu ▸ h.download hm) fun hm => hb.trans (h.input hm)
  | @called _ new _ t x k hm hr hcall hk hx =>
    exact (hnew new).called hcall (flags_of_turn hcall.turn) hm hk hx hwf
  | started hm hmode =>
    have hidle := h.idle (by simp [hm])
    rcases hmode with ⟨rfl, hstarted⟩ | rfl
    · exact ⟨h.wf, by simp, fun _ => hstarted, fun _ => hidle, h.pwd, h.login, by simp, by simp, h.remotePath⟩
    · exact ⟨h.wf, by simp, by simp [Mode.online], fun _ => hidle, h.pwd, h.login, by simp, by simp, h.remotePath⟩
  | @cursor down new hm hop => exact (h.frame _ (same_moveCursor down _).2).frame _ ⟨rfl, rfl⟩
  | @runs down new op x mode b hm hop hx =>
    have hmoved : Steady { m with s := setNew new (onApp (moveCursor down) m.s) } :=
      (h.frame _ (same_moveCursor down _).2).frame _ ⟨rfl, rfl⟩
    obtain ⟨s, mode, began⟩ := m
    cases hm
    exact hmoved.ran (chooseOp_some hop).2 hx hwf _
  | noInput hm =>
    have hon := h.online (by rw [hm]; rfl)
    exact ⟨h.wf, by simp, fun _ => hon, fun _ => h.idle (by simp [hm]), h.pwd, h.login, by simp, by simp, h.remotePath⟩
  | input hm hstr hst =>
    have hon := h.online (by rw [hm]; rfl)
    have hrest := h.idle (by simp [hm]) hon (h.input hm)
    exact .started hst.started hwf (hrest.congr rfl rfl) rfl (by simp) (by simp [toMove, onUser]) h.remotePath (by simp)
      (fun _ => hon) (by simp) (by simp)
  | uploaded hm =>
    exact ⟨h.wf, by simp, fun _ => h.online (by rw [hm]; rfl), fun _ => h.idle (by simp [hm]), h.pwd, h.login, by simp,
      by simp, h.remotePath⟩
  | downloaded hm =>
    obtain ⟨hb, hstarted⟩ := cutPath_same m.s.usr
    refine ⟨hwf, by simp, fun _ => hstarted.trans (h.online (by rw [hm]; rfl)),
      fun _ h1 h2 => (h.idle (by simp [hm]) (hstarted ▸ h1) (hb ▸ h2)).congr rfl rfl, fun hp => ?_, fun hd => ?_, by simp,
      by simp, h.remotePath⟩
    · exact absurd ((h.download hm).symm.trans (h.pwd hp).1) (by decide)
    · cases hd
  | quit hm hu hst =>
    refine ⟨hwf, by simp, fun _ => ?_, by simp, fun hp => ?_, ?_, by simp, by simp, ?_⟩
    · rw [hu.usr]
      exact h.online (by rw [hm]; rfl)
    · rw [hu.user]
      rcases hst with ⟨hst, -⟩ | hst
      · exact h.pwd (hst.symm.trans hp)
      · cases hst.symm.trans hp
    · rw [hu.user, hu.usr]
      exact h.login
    · rw [hu.user]
      exact h.remotePath

lemma steady_boot (vars : V) (userName password : Bytes) : Steady (boot F vars userName password) := by
  have hoff : Offline (boot F vars userName password).s := ⟨rfl, rfl, fun h => (by cases h), fun o ho => (by cases ho)⟩
  exact ⟨wf_initial _ _, fun _ => hoff, fun h => (by cases h), fun _ h => (by cases h), fun h => (by cases h), fun _ => rfl,
    fun h => (by cases h), fun h => (by cases h), rfl⟩

lemma Steady.next (h : Steady m) (hs : stepMain F (n + 1) m e = some m') : Steady m' ∧ Effect F n m.settle e m' := by
  obtain ⟨⟨hf, -⟩, hs⟩ := ite_none_right_eq_some.1 hs
  have hm := h.settle
  have hf' : m.settle.s.fault = false := settle_s m ▸ hf
  have heff := react_effect hm.wf hf' hm.setup hs
  exact ⟨hm.step heff ((react_moves hm.wf hf' hs).wf hm.wf), heff⟩

/-- **No overlapping operations.**  While the main loop is running, `app.busy` is clear only when the session waits for no
reply; so it is whenever a key starts an operation. -/
theorem idle_at_rest (F : Fileioc V) (n : ℕ) (vars : V) (userName password : Bytes) (es : List Event) (m : Main V)
    (h : run (stepMain F (n + 1)) (boot F vars userName password) es = some m) (hm : m.mode ≠ .closing) :
    (m.s.usr.ftpStarted = true → m.s.usr.busy = false → m.s.controlState = .logged ∨ m.s.controlState = .closed) ∧
      ∀ down op, chooseOp down (moveCursor down m.s.usr) = some op →
        m.s.controlState = .logged ∨ m.s.controlState = .closed := by
  have hst := run_inv Steady (fun _ _ _ h hs => (h.next hs).1) (steady_boot vars userName password) h
  have hrest := fun hs hb => (hst.idle hm hs hb).imp_right And.left
  refine ⟨hrest, fun down op hop => ?_⟩
  obtain ⟨-, hbusy, hstarted⟩ := same_moveCursor down m.s.usr
  obtain ⟨hs, hb⟩ := chooseOp_some hop
  exact hrest (hstarted.symm.trans hs) (hbusy.symm.trans hb)

theorem idle_at_rest_login : ∃ m, run (stepMain noVars 1) (boot noVars () [] []) loginEvents = some m ∧ m.s.usr.ftpStarted = true ∧
      m.s.usr.busy = false ∧ (m.s.controlState = .logged ∨ m.s.controlState = .closed) := by
  refine ⟨_, rfl, by decide +kernel, by decide +kernel, ?_⟩
  exact (idle_at_rest noVars 0 () [] [] loginEvents _ rfl (by decide +kernel)).1 (by decide +kernel) (by decide +kernel)

lemma run_steady {I : Main V → Prop} {ok : Main V → Event → Bool}
    (hI : ∀ (m : Main V) b, I m → I { m with began := b }) (hok : ∀ (m : Main V) b e, ok { m with began := b } e = ok m e)
    (hstep : ∀ m e m', Steady m → m.s.usr.fault = false → I m → ok m e → Effect F n m e m' → I m')
    {vars : V} {userName password : Bytes} (h0 : I (boot F vars userName password)) {es : List Event} {m : Main V}
    (h : run (guarded ok (stepMain F (n + 1))) (boot F vars userName password) es = some m) : Steady m ∧ I m := by
  refine run_inv (fun m => Steady m ∧ I m) ?_ ⟨steady_boot vars userName password, h0⟩ h
  rintro m e m' ⟨hm, hi⟩ hs
  obtain ⟨hb, hs⟩ := guarded_some.1 hs
  obtain ⟨hm', heff⟩ := hm.next hs
  have hfault : m.s.usr.fault = false := (ite_none_right_eq_some.1 hs).1.2
  have hsettle : m.settle = m ∨ m.settle = { m with began := none } := by
    unfold Main.settle
    split_ifs
    · exact .inr rfl
    · exact .inl rfl
  have hi' : I m.settle := by
    rcases hsettle with h | h <;> rw [h]
    · exact hi
    · exact hI m none hi
  have hb' : ok m.settle e := by
    rcases hsettle with h | h <;> rw [h]
    · exact hb
    · rw [hok]
      exact hb
  exact ⟨hm', hstep _ _ _ hm.settle (settle_s m ▸ hfault) hi' hb' heff⟩

end Steady

end LwftpCe.App
