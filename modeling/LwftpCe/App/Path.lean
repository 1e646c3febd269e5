import LwftpCe.App.Callbacks

/-!
# The path over an operation

Each operation appends a name to `app.path`, and it is the callback, or the end of a download, that cuts it off again.
The callbacks of DELE, RNTO and CWD do so, or undo what the key has done, only after a success; `util_MoveFile` does not
when the input is empty; and PWD, which follows every listing, starts by clearing the path.  `benign` are the events at which
none of this happens.
-/

namespace LwftpCe.App

open Lib Lwftp List

variable {V : Type} {a : AppT V} {s t : Prog V} {b : Began} {k : Ptr}

/-! ### What an operation has to keep -/

def sinceBegan (b : Began) (s : Prog V) : List (Obs Ptr) := s.trace.take (s.trace.length - b.since)

def lastPwd : List (Obs Ptr) → Option Bytes
  | .sink (some d) :: .reply 257 .pwdSent :: _ => (quoted d).map fun p => cstr (p.take rxBufSize)
  | _ :: t => lastPwd t
  | [] => none

def Obs.cwdError : Obs Ptr → Bool
  | .done .ftpCwdCallback r => r ≠ .ok ∧ r ≠ .inprogress
  | _ => false

def cwdRefused (t : List (Obs Ptr)) : Bool := t.any Obs.cwdError

/-- `app.path` is what it was when the operation began, or what PWD has told since; where CWD has been refused, `app.path`
and `app.dir` are what they were. -/
def restored (b : Began) (s : Prog V) : Bool :=
  match b.op with
  | .enter | .back => cwdRefused (sinceBegan b s) = false ∨ s.usr.path = b.path ∧ s.usr.dir = b.dir
  | _ => s.usr.path = b.path ∨ lastPwd (sinceBegan b s) = some s.usr.path

def Main.kept (m : Main V) : Bool :=
  match m.began with
  | none => true
  | some b => m.isOver = false ∨ restored b m.s

/-! ### The condition -/

def Ptr.noUndo : Ptr → Bool
  | .ftpDelCallback | .ftpMoveCallback | .ftpCwdCallback => true
  | _ => false

def exposed (s : Prog V) : Bool := s.user.doneFn.any Ptr.noUndo ∨ s.controlState = .pwdSent

/-- A report of the stack that the operations are made for: no error while the path is exposed to it, a path in every reply 257 to
PWD and in no other data, and no reply to QUIT while a listing is waited for. -/
def benignTcp (s : Prog V) (e : Tcp) : Bool :=
  (exposed s = false ∨ e.fails s = false) &&
  match e with
  | .controlRecv _ (q :: _) true =>
    (s.controlState ≠ .pwdSent ∨ response q ≠ 257 ∨ (quoted q.payload).isSome) ∧
      (s.controlState ≠ .quitSent ∨ s.user.doneFn ≠ some .ftpListCallback ∨ s.usr.busy = false)
  | .dataRecv _ p => s.user.dataSink ≠ some .ftpPwdDataSink ∨ ∀ q ∈ p, quoted q.payload = none
  | _ => true

def plainName (a : AppT V) (f : FileT) : Bool := 47 ∉ f.str ∧ (filePath a.path f).length ≤ rxBufSize + 1

/-- The operation appends only such a name, and where its callback does not undo that, the session takes the command. -/
def benignOp (s : Prog V) : Op → Bool
  | .upload => s.usr.remoteColumn ∨ plainName s.usr s.usr.localEntry
  | .download => s.usr.remoteColumn = false ∨ plainName s.usr s.usr.remoteEntry
  | .delete =>
    s.usr.remoteColumn = false ∨ s.usr.remoteEntry.type = .dir ∨
      plainName s.usr s.usr.remoteEntry ∧ s.controlState = .logged
  | .move => s.usr.remoteColumn = false ∨ s.usr.remoteEntry.type = .dir ∨ plainName s.usr s.usr.remoteEntry
  | .enter | .back => s.controlState = .logged

def benign (m : Main V) : Event → Bool
  | .tcp e _ => benignTcp m.s e
  | .keys down _ =>
    match chooseOp down (moveCursor down m.s.usr) with
    | none => true
    | some op => benignOp (onApp (moveCursor down) m.s) op
  | .input str => str ≠ [] ∧ m.s.controlState = .logged
  | .quit => m.s.controlState ≠ .pwdSent
  | _ => true

/-! ### A refused DELE -/

def reply (l : String) : Event := .tcp (.controlRecv ⟨0, 536⟩ [⟨ascii l, []⟩] true) (some 536)

def press (k : Key) : Event := .keys (fun k' => k' = k) (some 536)

def loginEvents : List Event :=
  [.connect (some 536) true, .tcp (.controlConnected ⟨0, 536⟩ true) none, reply "220 ready", reply "331 password?",
    reply "230 welcome", .started, reply "200 ok", reply "227 passive (10,0,0,1,4,210)",
    .tcp (.dataConnected ⟨1, 536⟩ true) none, reply "150 go",
    .tcp (.dataRecv ⟨1, 536⟩ [⟨ascii "type=file; A.8xp\r\n", []⟩]) none,
    .tcp (.dataRecv ⟨1, 536⟩ []) none, reply "226 done", reply "257 \"/\""]

/-- **DELE is refused**: the operation is over, and the path still names the file. -/
theorem path_not_cut : ∃ m, run (stepMain noVars 1) (boot noVars () [] [])
        (loginEvents ++ [press .right, press .zoom, reply "550 no such file"]) = some m ∧
      m.kept = false ∧ m.s.usr.path = ascii "//A.8xp" :=
  ⟨_, rfl, by decide +kernel, by decide +kernel⟩

/-! ### What the sinks and the source leave alone -/

def Same (a a' : AppT V) : Prop := a'.path = a.path ∧ a'.busy = a.busy ∧ a'.ftpStarted = a.ftpStarted

lemma Same.refl (a : AppT V) : Same a a := ⟨rfl, rfl, rfl⟩

lemma Same.trans {b c : AppT V} (h : Same a b) (h' : Same b c) : Same a c :=
  ⟨h'.1.trans h.1, h'.2.1.trans h.2.1, h'.2.2.trans h.2.2⟩

lemma source_frame (F : Fileioc V) (n : ℕ) (k : Ptr) (ptr : Bool) (len : ℕ) (a : AppT V) :
    ∃ txOffset, ((appCaller F n).source k ptr len a).2 = { a with txOffset } := by
  have h : (appCaller F n).source k ptr len a = (callerWith F fun _ s => s).source k ptr len a := by cases n <;> rfl
  rw [h]
  cases k with
  | ftpStorDataSource =>
    simp only [callerWith, ftpStorDataSource]
    split_ifs <;> exact ⟨_, rfl⟩
  | _ => exact ⟨_, rfl⟩

lemma addRemoteFile_frame (a : AppT V) : ∃ remoteFiles total, ftpAddRemoteFile a = { a with remoteFiles, total } := by
  unfold ftpAddRemoteFile
  split
  · simp only
    split_ifs <;> exact ⟨_, _, rfl⟩
  · exact ⟨_, _, rfl⟩

lemma listBytes_frame (d : Bytes) (a : AppT V) :
    ∃ rxBuf rxOffset remoteFiles total, listBytes d a = { a with rxBuf, rxOffset, remoteFiles, total } := by
  induction d generalizing a with
  | nil => exact ⟨_, _, _, _, rfl⟩
  | cons c d ih =>
    unfold listBytes
    split_ifs
    · obtain ⟨l, t, ht⟩ := addRemoteFile_frame (terminate a)
      obtain ⟨b, o, l', t', h⟩ := ih (endLine a)
      refine ⟨b, o, l', t', h.trans ?_⟩
      unfold endLine
      rw [ht]
      rfl
    · obtain ⟨b, o, l, t, h⟩ := ih { a with rxBuf := a.rxBuf.set a.rxOffset c, rxOffset := a.rxOffset + 1 }
      exact ⟨b, o, l, t, h⟩
    · exact ⟨_, _, _, _, rfl⟩

lemma sink_frame (F : Fileioc V) (n : ℕ) (k : Ptr) (d : Option Bytes) (a : AppT V) : (∃ rxBuf rxOffset remoteFiles total fileBuffer,
      (appCaller F n).sink k d a = { a with rxBuf, rxOffset, remoteFiles, total, fileBuffer }) ∨
    k = .ftpPwdDataSink ∧ ∃ p rxOffset, d.bind quoted = some p ∧
      (appCaller F n).sink k d a = { a with path := cstr (p.take rxBufSize), rxOffset } := by
  have hs : (appCaller F n).sink k d a = (callerWith F fun _ s => s).sink k d a := by cases n <;> rfl
  rw [hs]
  cases k with
  | ftpListDataSink =>
    cases d with
    | none => exact .inl ⟨_, _, _, _, _, rfl⟩
    | some d =>
      obtain ⟨b, o, l, t, h⟩ := listBytes_frame d a
      exact .inl ⟨b, o, l, t, a.fileBuffer, h⟩
  | ftpPwdDataSink =>
    simp only [callerWith, ftpPwdDataSink]
    cases d.bind quoted with
    | none => exact .inl ⟨_, _, _, _, _, rfl⟩
    | some p => exact .inr ⟨trivial, p, _, rfl, rfl⟩
  | ftpRetrDataSink => cases d <;> exact .inl ⟨_, _, _, _, _, rfl⟩
  | _ => exact .inl ⟨_, _, _, _, _, rfl⟩

lemma same_source (F : Fileioc V) (n : ℕ) (k : Ptr) (ptr : Bool) (len : ℕ) (a : AppT V) :
    Same a ((appCaller F n).source k ptr len a).2 := by
  obtain ⟨o, h⟩ := source_frame F n k ptr len a
  rw [h]
  exact ⟨rfl, rfl, rfl⟩

lemma same_sink (F : Fileioc V) (n : ℕ) (k : Ptr) (d : Option Bytes) (a : AppT V)
    (h : k = .ftpPwdDataSink → d.bind quoted = none) : Same a ((appCaller F n).sink k d a) := by
  obtain ⟨_, _, _, _, _, hs⟩ | ⟨hk, p, _, hp, -⟩ := sink_frame F n k d a
  · rw [hs]
    exact ⟨rfl, rfl, rfl⟩
  · rw [h hk] at hp
    cases hp

/-! ### Names at the end of the path -/

def Appended (p path : Bytes) : Prop := ∃ t, 47 ∉ t ∧ path = p ++ 47 :: t

lemma cutPath_same (a : AppT V) : a.cutPath.busy = a.busy ∧ a.cutPath.ftpStarted = a.ftpStarted := by
  unfold AppT.cutPath
  split <;> exact ⟨rfl, rfl⟩

lemma cutPath_appended {p : Bytes} (h : Appended p a.path) : a.cutPath.path = p := by
  obtain ⟨t, ht, hp⟩ := h
  unfold AppT.cutPath
  rw [hp, cutLast_append 47 p t ht]

lemma appended_fileName {f : FileT} (h : plainName a f) : Appended a.path (filePath a.path f) := by
  refine ⟨fileName f, ?_, rfl⟩
  simp only [plainName, decide_eq_true_eq] at h
  intro hm
  rcases mem_append.1 hm with hm | hm
  · exact h.1 hm
  · unfold extension at hm
    split_ifs at hm <;> revert hm <;> decide

/-! ### Between the operations -/

def resting (s : Prog V) : Prop := s.controlState = .logged ∨ s.controlState = .closed ∧ s.controlPcb = none

def Ptr.cuts (k : Ptr) : Prop := k = .ftpStorCallback ∨ k = .ftpDelCallback ∨ k = .ftpMoveCallback

def Calm (s : Prog V) : Prop := ∀ o ∈ s.results, Obs.cwdError o = false

lemma resting.not_pwd (h : resting s) : s.controlState ≠ .pwdSent := by
  rcases h with h | ⟨h, -⟩ <;> rw [h] <;> decide

lemma resting.congr (h : resting s) (hs : t.controlState = s.controlState) (hp : t.controlPcb = s.controlPcb) : resting t := by
  unfold resting
  rw [hs, hp]
  exact h

lemma Calm.same (h : Calm s) (hd : t.results = s.results) : Calm t := by
  unfold Calm
  rw [hd]
  exact h

lemma Calm.done (h : Calm s) {r : Result} (hd : t.results = .done k r :: s.results)
    (hk : k ≠ .ftpCwdCallback ∨ r = .ok ∨ r = .inprogress) : Calm t := by
  intro o ho
  rw [hd] at ho
  rcases mem_cons.1 ho with rfl | ho
  · rcases hk with hk | rfl | rfl
    · cases k <;> simp_all [Obs.cwdError]
    · cases k <;> simp [Obs.cwdError]
    · cases k <;> simp [Obs.cwdError]
  · exact h o ho

structure Offline (s : Prog V) : Prop where
  doneFn : s.user.doneFn = some .ftpConnectCallback
  started : s.usr.ftpStarted = false
  state : s.controlState ≠ .pwdSent
  calm : Calm s

def beganAt (op : Op) (s : Prog V) : Began := ⟨op, s.usr.path, s.usr.dir, s.trace.length⟩

lemma same_dropEntry (a : AppT V) : Same a a.dropEntry := by
  unfold AppT.dropEntry
  simp only
  split_ifs <;> exact ⟨rfl, rfl, rfl⟩

lemma same_moveCursor (down : Key → Bool) (a : AppT V) : Same a (moveCursor down a) := by
  unfold moveCursor
  simp only
  split_ifs <;> exact ⟨rfl, rfl, rfl⟩

lemma moveCursor_setNew (down : Key → Bool) (new : Option ℕ) (s : Prog V) :
    onApp (moveCursor down) (setNew new s) = setNew new (onApp (moveCursor down) s) := by
  have h : moveCursor down { s.usr with tcpNew := new } = { moveCursor down s.usr with tcpNew := new } := by
    unfold moveCursor
    simp only
    split_ifs <;> rfl
  exact congrArg (fun a => { s with usr := a }) h

lemma chooseOp_some {down : Key → Bool} {op : Op} (h : chooseOp down a = some op) : a.ftpStarted = true ∧ a.busy = false :=
  (Option.ite_none_right_eq_some.1 h).1

end LwftpCe.App
