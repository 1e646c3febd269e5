import LwftpCe.Lwftp.Log

/-!
# The commands of a connection, in their order

The monitor `dialog` reads the bytes of the control connection, not what the session meant by them: it cuts them into
lines at CR LF, takes the command of each line from its text (`Dialog.command`), and has the commands that were sent, the
last reply since, and whether the login has been answered with 230.  `Dialog.allows` is the language of the commands.

A session sends the lines it means to (`Spelled`).  They are read as meant if no string of the caller contains CR LF
(`Spelled.frame`); a string that does is a command line of its own, and the order is lost (`commands_injected`).
-/

namespace LwftpCe.Lwftp

open Lib List

variable {K U : Type} {s s' : Session K U} {o l : List (Obs K)} {st st' : State} {v : Verb} {r : Result}
  {msgs : List Piece}

structure Dialog where
  /-- the commands since the connection was established, the latest first; `none` is a line that is no command -/
  sent : List (Option Verb) := []
  reply : Option ℕ := none
  logged : Bool := false
  /-- the line that CR LF has not ended yet -/
  part : Bytes := []

namespace Dialog

/-- The line `l` is the command `v`. -/
def isCommand (l : Bytes) (v : Verb) : Bool :=
  if v.arg.isSome then ascii v.word <+: l else l ++ crlf = ascii v.word

/-- The command that a line of the control connection is. -/
def command (l : Bytes) : Option Verb :=
  [Verb.user, .pass, .type, .pasv, .stor, .retr, .mlsd, .dele, .rmd, .cwd, .pwd, .rnfr, .rnto, .quit].find? (isCommand l)

/-- The lines that a command line of the session ends, and what it leaves unfinished. -/
def lines (d : Dialog) (msgs : List Piece) : List Bytes × Bytes := frame d.part (msgs.flatMap (·.bytes))

def read (d : Dialog) (l : Bytes) : Dialog := { d with sent := command l :: d.sent, reply := none }

def see : Obs K → Dialog → Dialog
  | .connected, _ => {}
  | .send _ msgs, d => { (d.lines msgs).1.foldl read d with part := (d.lines msgs).2 }
  | .reply code _, d =>
    { d with reply := some code, logged := d.logged || d.sent.head? = some (some .pass) && code = 230 }
  | _, d => d

/-- `d` ends in the command `v`, and the last reply to it is `code`. -/
def answered (d : Dialog) (v : Verb) (code : ℕ) : Bool := d.sent.head? = some (some v) && d.reply = some code

def allows (d : Dialog) (v : Option Verb) : Bool :=
  v = some .quit || some .quit ∉ d.sent &&
    match v with
    | some .user => d.sent = [] && d.reply = some 220
    | some .pass => d.sent = [some .user] && d.reply = some 331
    | some .dele | some .rmd | some .cwd | some .pwd | some .rnfr | some .type => d.logged
    | some .rnto => d.logged && d.answered .rnfr 350
    | some .pasv => d.logged && d.answered .type 200
    | some .retr | some .stor | some .mlsd => d.logged && d.answered .pasv 227
    | some .quit | some .bare | none => false

/-- The lines are allowed, one behind the other. -/
def allowsAll : Dialog → List Bytes → Bool
  | _, [] => true
  | d, l :: ls => d.allows (command l) && (d.read l).allowsAll ls

/-- The login is over, and QUIT has not been sent. -/
def Open (d : Dialog) : Prop := d.logged ∧ some .quit ∉ d.sent

/-- The dialog in a state of the session. -/
def Fits (d : Dialog) : State → Prop
  | .closed | .quitSent => True
  | .connected => d.sent = []
  | .userSent => d.sent = [some .user]
  | .passSent => d.sent.head? = some (some .pass) ∧ some .quit ∉ d.sent
  | .typeSent => d.Open ∧ d.sent.head? = some (some .type)
  | .pasvSent => d.Open ∧ d.sent.head? = some (some .pasv)
  | .rnfrSent => d.Open ∧ d.sent.head? = some (some .rnfr)
  | _ => d.Open

end Dialog

def dialog (t : List (Obs K)) : Dialog := t.foldr Dialog.see {}

/-- The string of the field `pass` is in no line but that of the command PASS. -/
def passKept (msgs : List Piece) (ls : List Bytes) : Bool :=
  some .pass ∉ msgs.map (·.field) || ls.map Dialog.command = [some .pass]

/-- The lines of an observation are allowed behind the dialog `d`. -/
def inOrder : Obs K → Dialog → Bool
  | .send _ msgs, d => d.allowsAll (d.lines msgs).1 && passKept msgs (d.lines msgs).1
  | _, _ => true

/-- A string of the caller contains no CR LF. -/
def Piece.clean (m : Piece) : Bool := m.field = none || ¬ crlf <:+: m.bytes

def Obs.clean : Obs K → Bool
  | .send _ msgs => msgs.all Piece.clean
  | _ => true

lemma Dialog.see_quiet (o : Obs K) (d : Dialog) (h : o.quiet = true) : see o d = d := by
  cases o with
  | connected | reply | send => cases h
  | _ => rfl

/-! ### The lines as they are meant and as they are read -/

variable {d : Dialog}

lemma Spelled.frame (h : Spelled v msgs) (hv : v ≠ .bare) (hc : msgs.all Piece.clean) :
    ∃ l, frame [] (msgs.flatMap (·.bytes)) = ([l], []) ∧ Dialog.command l = some v := by
  cases h with
  | line h =>
    refine ⟨(ascii v.word).dropLast.dropLast, ?_, ?_⟩
    · cases v <;> cases h <;> decide
    · cases v <;> cases h <;> decide
  | arg h x =>
    have hword : (13 : UInt8) ∉ ascii v.word := by cases v <;> cases h <;> decide
    have hx : ¬ crlf <:+: x := by simpa [Piece.clean] using hc
    have hline : ¬ crlf <:+: [] ++ (ascii v.word ++ x) := fun hin => hx (crlf_infix_append hword hin)
    refine ⟨ascii v.word ++ x, ?_, ?_⟩
    · have hbytes : ascii v.word ++ (x ++ crlf) = ascii v.word ++ x ++ crlf := (append_assoc ..).symm
      exact (congrArg (Lib.frame []) hbytes).trans (frame_line hline)
    · cases v <;> first | rfl | exact absurd rfl hv | cases h

lemma Spelled.pass (h : Spelled v msgs) (hp : some .pass ∈ msgs.map (·.field)) : v = .pass := by
  cases h with
  | line => simp at hp
  | arg h x =>
    have hf : some .pass = v.arg := by simpa [h] using hp
    cases v <;> first | rfl | cases hf

/-- A clean command line is read as the command that it is meant to be. -/
lemma Spelled.see (h : Spelled v msgs) (hv : v ≠ .bare) (hc : msgs.all Piece.clean)
    (hd : d.part = []) :
    Dialog.see (.send v msgs : Obs K) d = { d with sent := some v :: d.sent, reply := none } ∧
      inOrder (.send v msgs : Obs K) d = d.allows (some v) := by
  obtain ⟨l, hl, hcmd⟩ := h.frame hv hc
  have hlines : d.lines msgs = ([l], []) := by rw [Dialog.lines, hd, hl]
  have hkept : passKept msgs [l] = true := by
    by_cases hp : some .pass ∈ msgs.map (·.field)
    · simp [passKept, hcmd, h.pass hp]
    · simp [passKept, hp]
  constructor
  · simp [Dialog.see, hlines, Dialog.read, hcmd, hd]
  · simp [inOrder, hlines, Dialog.allowsAll, hcmd, hkept]

/-! ### The invariant -/

/-- The log is in order, and its lines are whole. -/
structure Ordered (l : List (Obs K)) : Prop where
  always : Always (fun o t => inOrder o (dialog t)) l
  whole : (dialog l).part = []

structure Spoken (s : Session K U) : Prop where
  order : Ordered s.log
  fits : s.fault = false → (dialog s.log).Fits s.controlState

lemma Ordered.cons {x : Obs K} (h : Ordered l) (hx : ∀ v msgs, x ≠ .send v msgs) : Ordered (x :: l) := by
  cases x with
  | send v msgs => exact absurd rfl (hx v msgs)
  | connected => exact ⟨⟨rfl, h.always⟩, rfl⟩
  | _ => exact ⟨⟨rfl, h.always⟩, h.whole⟩

/-- What is not a command is always in order. -/
lemma Ordered.append (h : Ordered l) (ho : ∀ x ∈ o, ∀ v msgs, x ≠ .send v msgs) : Ordered (o ++ l) := by
  induction o with
  | nil => exact h
  | cons x o ih => exact (ih fun y hy => ho y (mem_cons_of_mem _ hy)).cons (ho x mem_cons_self)

lemma Prompt.silent (h : Prompt st o v st') : ∀ x ∈ o, ∀ v msgs, x ≠ .send v msgs := by
  cases h <;> simp

lemma Prompt.ne_bare (h : Prompt st o v st') : v ≠ .bare := by
  cases h with
  | advance ha | opens ha | command ha => cases ha <;> decide
  | start | refuse | quit => decide

lemma Ending.silent (h : Ending st o r st') : ∀ x ∈ s.dones r ++ o, ∀ v msgs, x ≠ .send v msgs := by
  unfold Session.dones
  cases s.user.doneFn <;> cases h <;> simp

lemma Deed.suffix (d : Deed s s') : s.log <:+ s'.log := by
  cases d with
  | still hl => rw [hl]
  | faults _ hl =>
    rcases hl with hl | ⟨o, v, st, -, hl⟩
    · rw [hl]
    · rw [hl]
      exact suffix_append o _
  | connected hl | noQuit hl | gone _ _ hl | ignored _ _ hl =>
    rw [hl]
    exact suffix_cons _ _
  | sends o v msgs _ hl =>
    rw [hl]
    exact (suffix_append o _).trans (suffix_cons _ _)
  | begins use _ hl =>
    rw [hl]
    exact (suffix_cons _ _).trans (suffix_append use _)
  | ends o r _ hl =>
    rw [hl]
    exact (suffix_append o _).trans (suffix_append _ _)

lemma dialog_append (o l : List (Obs K)) : dialog (o ++ l) = o.foldr Dialog.see (dialog l) := foldr_append ..

lemma dialog_dones (s : Session K U) (r : Result) (l : List (Obs K)) : dialog (s.dones r ++ l) = dialog l := by
  unfold Session.dones
  cases s.user.doneFn <;> rfl

namespace Dialog

lemma Open.reply (h : d.Open) (code : ℕ) (st : State) : (see (.reply code st : Obs K) d).Open :=
  ⟨by simp [see, h.1], h.2⟩

lemma Fits.open_cmd (h : d.Fits st) (hst : st.cmd = some v) : d.Open := by
  cases st <;> first | exact h | exact h.1 | cases hst

lemma Fits.allows (h : d.Fits st) (hp : Prompt st o v st') : (o.foldr see d).allows (some v) := by
  cases hp with
  | advance ha | opens ha | command ha => cases ha <;> simp_all [Fits, Open, Dialog.allows, answered, see]
  | start => simp_all [Fits, Open, Dialog.allows]
  | refuse | quit => rfl

lemma Fits.sends (h : d.Fits st) (hp : Prompt st o v st') :
    Fits { o.foldr see d with sent := some v :: (o.foldr see d).sent, reply := none } st' := by
  cases hp with
  | advance ha | opens ha | command ha => cases ha <;> simp_all [Fits, Open, see]
  | start => simp_all [Fits, Open]
  | refuse | quit => trivial

lemma Fits.ends (h : d.Fits st) (he : Ending st o r st') : (o.foldr see d).Fits st' := by
  cases he with
  | login => exact ⟨by simp [see, h.1], h.2⟩
  | data hfin => cases hfin <;> exact Open.reply h _ _
  | cmd hcmd => exact (h.open_cmd hcmd).reply _ _
  | dataErr => exact h
  | closes | hangup => trivial

end Dialog

lemma Deed.spoken (hf : s.fault = false) (d : Deed s s') (hclean : ∀ o ∈ s'.log, o.clean) (h : Spoken s) : Spoken s' := by
  have hfits := h.fits hf
  cases d with
  | still hl hst => exact ⟨hl ▸ h.order, fun _ => by rw [hl, hst]; exact hfits⟩
  | faults hf' hl =>
    refine ⟨?_, fun hf => absurd (hf'.symm.trans hf) (by simp)⟩
    rcases hl with hl | ⟨o, v, st, hp, hl⟩
    · exact hl ▸ h.order
    · exact hl ▸ h.order.append hp.silent
  | connected hl hst => exact ⟨hl ▸ h.order.cons (by simp), fun _ => by rw [hl, hst]; rfl⟩
  | noQuit hl hst => exact ⟨hl ▸ h.order.cons (by simp), fun _ => by rw [hl, hst]; exact hfits⟩
  | gone o ho hl hst =>
    rcases ho with rfl | rfl
    · exact ⟨hl ▸ h.order.cons (by simp), fun _ => by rw [hl, hst]; exact hfits⟩
    · exact ⟨hl ▸ h.order.cons (by simp), fun _ => by rw [hl, hst]; exact hfits⟩
  | ignored code hi hl hst =>
    refine ⟨hl ▸ h.order.cons (by simp), fun _ => ?_⟩
    rw [hl, hst]
    rcases hi with hi | hi
    · rw [hi] at hfits ⊢
      exact Dialog.Open.reply (K := K) hfits code .logged
    · rw [hi]
      trivial
  | sends o v msgs hp hl _ hm =>
    have hbefore := h.order.append hp.silent
    have hallows := hfits.allows hp
    have hnext := hfits.sends hp
    rw [← dialog_append] at hallows hnext
    obtain ⟨hsee, hin⟩ := hm.see hp.ne_bare (hclean (.send v msgs) (hl ▸ mem_cons_self)) hbefore.whole
    refine ⟨hl ▸ ⟨⟨hin.trans hallows, hbefore.always⟩, ?_⟩, fun _ => ?_⟩
    · exact (congrArg Dialog.part hsee).trans hbefore.whole
    · rw [hl]
      exact (congrArg (Dialog.Fits · s'.controlState) hsee).mpr hnext
  | begins use hst hl hx hu =>
    have hopen : (dialog s.log).Open := by rcases hst with hst | hst | hst <;> rw [hst] at hfits <;> exact hfits
    have hopen' : (dialog (.reply 150 s.controlState :: s.log)).Open := hopen.reply (K := K) 150 s.controlState
    have hreply : Ordered (.reply 150 s.controlState :: s.log) := h.order.cons (by simp)
    rcases hu with ⟨rfl, -⟩ | ⟨rfl, -⟩
    · exact ⟨hl ▸ hreply, fun _ => by rw [hl, hx]; exact hopen'⟩
    · exact ⟨hl ▸ hreply.cons (by simp), fun _ => by rw [hl, hx]; exact hopen'⟩
  | ends o r he hl =>
    rw [← append_assoc] at hl
    refine ⟨hl ▸ h.order.append he.silent, fun _ => ?_⟩
    rw [hl, append_assoc, dialog_dones, dialog_append]
    exact hfits.ends he

/-- **The command lines of every connection are in order**, in every run in which no string of the caller brings a CR LF
into them: USER first and behind 220, PASS behind it and 331, the other commands behind 230, RNTO behind RNFR and 350,
PASV behind TYPE and 200, a transfer behind PASV and 227; behind QUIT there is only QUIT, and the password is in no line but
that of PASS. -/
theorem commands_in_order {c : Caller K U} (hc : Lawful c) (user : User K) (usr : U) (es : List (Event K U))
    (s : Session K U) (hs : run (step c) (initial user usr) es = some s) (hclean : ∀ o ∈ s.trace, o.clean) :
    Always (fun o t => inOrder o (dialog t)) s.trace := by
  have h0 : Spoken (initial user usr : Session K U) := ⟨⟨trivial, rfl⟩, fun _ => trivial⟩
  have hinv : ∀ m m' : Session K U, Wf m → m.fault = false → Move m m' → ((∀ o ∈ m.log, o.clean) → Spoken m) →
      (∀ o ∈ m'.log, o.clean) → Spoken m' := fun m m' hw hf hm h hclean =>
    (hm.deed hw).spoken hf hclean (h fun o ho => hclean o ((hm.deed hw).suffix.mem ho))
  have h := (run_moves_inv (fun m => (∀ o ∈ m.log, o.clean) → Spoken m) hinv hc (fun _ => h0) hs).2
  have hquiet : ∀ (o : Obs K) d, o.quiet = true → inOrder o d = true := by
    intro o d ho
    cases o with
    | send => cases ho
    | _ => rfl
  have horder := (h fun o ho => hclean o (mem_of_mem_filter ho)).order
  exact (always_log Dialog.see_quiet hquiet {} s).1 horder.always

/-- A caller that has the string `path` for its paths and a name for the login. -/
def pathCaller (path : Bytes) : Caller Bool Unit where
  done _ _ s := s
  sink _ _ u := u
  source _ _ _ u := ([], u)
  str k _ := if k then path else ascii "calc"

def pathUser : User Bool := { remotePath := some true, remoteNewPath := some true, user := some false, pass := some false }

theorem commands_in_order_delete :
    ∃ s, run (step (pathCaller (ascii "old.8xv"))) (initial pathUser ())
        (loginRun ++ [.api .delete, line ⟨0, 536⟩ "250 gone\r\n"]) = some s ∧
      (dialog s.trace).sent = [some .dele, some .pass, some .user] ∧
      Always (fun o t => inOrder o (dialog t)) s.trace :=
  ⟨_, rfl, by decide, commands_in_order (.base fun _ _ s => ⟨s.user, s.usr, rfl⟩) pathUser ()
    (loginRun ++ [.api .delete, line ⟨0, 536⟩ "250 gone\r\n"]) _ rfl (by decide)⟩

/-- A path with a CR LF in it: the server gets a CWD line and then an RNTO line, behind no RNFR. -/
theorem commands_injected :
    ∃ s, run (step (pathCaller (ascii "a\r\nRNTO b"))) (initial pathUser ()) (loginRun ++ [.api .changeDir]) = some s ∧
      (dialog s.trace).sent = [some .rnto, some .cwd, some .pass, some .user] ∧
      ¬ Always (fun o t => inOrder o (dialog t)) s.trace :=
  ⟨_, rfl, by decide, by decide⟩

end LwftpCe.Lwftp
