import LwftpCe.Lwftp.Api

/-!
# What the session can do: moves

`Move s s'` lists the straight-line pieces of the session's code: what happens from an event, a call of the API or the
return of a callback up to the next call of `done_fn`.  Everything the session does is a sequence of moves
(`step_moves`), for every *lawful* caller: one whose callbacks do nothing to the session but set the caller's fields
and call the API, to any depth.  A property of all runs is then a property that the moves keep.
-/

namespace LwftpCe.Lwftp

open Lib

variable {K U : Type}

/-! ### Callers -/

/-- What a callback may do to the session: set the caller's fields and world, and call the API; the callbacks that these
calls make are those of `c`. -/
inductive Calls (c : Caller K U) : Session K U → Session K U → Prop
  | refl (s : Session K U) : Calls c s s
  | set {s s' : Session K U} (user : User K) (usr : U) : Calls c { s with user, usr } s' → Calls c s s'
  | api {s s' : Session K U} (a : Api) : Calls c (callApi c a s) s' → Calls c s s'

/-- A lawful caller: the API calls of a callback find a lawful caller again, which may depend on what the callback is
called with.  So the re-entrance ends, at callbacks that do not call the API. -/
inductive Lawful : Caller K U → Prop
  | base {c : Caller K U} (h : ∀ k r s, ∃ user usr, c.done k r s = { s with user, usr }) : Lawful c
  | step {c : Caller K U} (inner : K → Result → Session K U → Caller K U) (hi : ∀ k r s, Lawful (inner k r s))
      (h : ∀ k r s, Calls (inner k r s) s (c.done k r s)) : Lawful c

/-! ### Moves -/

/-- Results that `done_fn` gets at the end of an operation or of the connection.  The others report on a call of the
API. -/
def Result.ends : Result → Bool
  | .inprogress | .errArgument | .errMemory | .errInternal => false
  | _ => true

def Obs.quiet : Obs K → Bool
  | .api a _ => a ≠ .close
  | .sink _ | .write _ | .sendNextData (some _) | .dataOpen (some _) | .dataConnect _ _ | .close _ => true
  | .done _ r => !r.ends
  | _ => false

def Obs.isDone : Obs K → Bool
  | .done _ _ => true
  | _ => false

/-- The literal that a command line starts with; the whole line of a command without an argument. -/
def Verb.word : Verb → String
  | .user => "USER "
  | .pass => "PASS "
  | .type => "TYPE I\r\n"
  | .pasv => "PASV\r\n"
  | .stor => "STOR "
  | .retr => "RETR "
  | .mlsd => "MLSD "
  | .dele => "DELE "
  | .rmd => "RMD "
  | .cwd => "CWD "
  | .pwd => "PWD\r\n"
  | .rnfr => "RNFR "
  | .rnto => "RNTO "
  | .quit => "QUIT\r\n"
  | .bare => ""

/-- The field whose string is the argument of a command. -/
def Verb.arg : Verb → Option Field
  | .user => some .user
  | .pass => some .pass
  | .stor | .retr | .mlsd | .dele | .rmd | .cwd | .rnfr | .bare => some .remotePath
  | .rnto => some .remoteNewPath
  | .type | .pasv | .pwd | .quit => none

/-- The calls of `lwftp_send_msg` for the command `v`. -/
inductive Spelled (v : Verb) : List Piece → Prop
  | line (h : v.arg = none) : Spelled v [⟨ascii v.word, none⟩]
  | arg {f : Field} (h : v.arg = some f) (x : Bytes) :
      Spelled v [⟨ascii v.word, none⟩, ⟨x, some f⟩, ⟨ascii "\r\n", none⟩]

/-- Sending a command line: it is sent, or its argument is a `NULL` pointer. -/
inductive Sent (v : Verb) (s : Session K U) : Session K U → Prop
  | send (msgs : List Piece) (h : Spelled v msgs) : Sent v s (s.note (.send v msgs))
  | null : Sent v s { s with fault := true }

/-- The replies that let the session go on with the next command of its own. -/
inductive Advance : State → ℕ → Verb → State → Prop
  | user : Advance .connected 220 .user .userSent
  | pass : Advance .userSent 331 .pass .passSent
  | pasv : Advance .typeSent 200 .pasv .pasvSent
  | rnto : Advance .rnfrSent 350 .rnto .rntoSent

/-- The transfers: the command, and the state after it. -/
inductive Transfer : Verb → State → Prop
  | stor : Transfer .stor .storSent
  | retr : Transfer .retr .retrSent
  | mlsd : Transfer .mlsd .mlsdSent

inductive Command : Verb → State → Prop
  | dele : Command .dele .deleSent
  | rmd : Command .rmd .rmdSent
  | cwd : Command .cwd .cwdSent
  | pwd : Command .pwd .pwdSent
  | rnfr : Command .rnfr .rnfrSent

def State.login : State → Bool
  | .connected | .userSent | .passSent | .typeSent | .pasvSent => true
  | _ => false

/-- The states in which a reply ends a transfer, and the result. -/
inductive FinishData : State → ℕ → Result → Prop
  | retr {code : ℕ} (h : code ≠ 150) {r : Result} (hr : r = .errFilename ∨ r = .errSrvrResp) :
      FinishData .retrSent code r
  | stor {code : ℕ} (h : code ≠ 150) : FinishData .storSent code .errSrvrResp
  | mlsd {code : ℕ} (h : code ≠ 150) : FinishData .mlsdSent code .errSrvrResp
  | done : FinishData .xfering 226 .ok
  | fail {code : ℕ} (h : code ≠ 226) : FinishData .xfering code .errClosed

lemma FinishData.ends {st : State} {code : ℕ} {r : Result} (h : FinishData st code r) : r.ends = true := by
  cases h with
  | retr _ hr => rcases hr with rfl | rfl <;> rfl
  | _ => rfl

def Verb.completion : Verb → Option ℕ
  | .stor | .retr | .mlsd => some 226
  | .dele | .rmd | .cwd | .rnto => some 250
  | .pwd => some 257
  | .quit => some 221
  | _ => none

def State.cmd : State → Option Verb
  | .deleSent => some .dele
  | .rmdSent => some .rmd
  | .cwdSent => some .cwd
  | .pwdSent => some .pwd
  | .rnfrSent => some .rnfr
  | .rntoSent => some .rnto
  | _ => none

def closeAll (s : Session K U) : Session K U := (dropControl (dropData s)).goto .closed

def readReply (code : ℕ) (s : Session K U) : Session K U := s.note (.reply code s.controlState)

def withSinks (sk : List (Option Bytes)) (usr : U) (s : Session K U) : Session K U :=
  { s with trace := sk.map Obs.sink ++ s.trace, usr }

inductive Move : Session K U → Session K U → Prop
  /-- the caller sets its fields, or a callback other than `done_fn` changes the caller's world -/
  | caller (s : Session K U) (user : User K) (usr : U) : Move s { s with user, usr }
  | note (s : Session K U) (o : Obs K) (h : o.quiet) : Move s (s.note o)
  /-- a result of the API that ends nothing -/
  | report (s : Session K U) (r : Result) (h : r.ends = false) : Move s (s.noteDone r)
  | fault (s : Session K U) : Move s { s with fault := true }
  | connect (s : Session K U) (mss : ℕ) (h₁ : s.controlState = .closed) (h₂ : s.controlPcb = none)
      (h₃ : s.dataPcb = none) :
      Move s { s.setLink (s.newPcb mss) (some ⟨.control, false⟩) with
        controlPcb := some (s.newPcb mss), nextPcb := s.nextPcb + 1 }
  /-- `tcp_connect` failed at once -/
  | noConnect (s : Session K U) (h : s.controlState = .closed) : Move s ((closeAll s).noteDone .errUnknown)
  | connected (s : Session K U) (p : Pcb) (ok : Bool) (h : s.link p = some ⟨.control, false⟩) :
      Move s (lwftpControlConnected p ok s)
  /-- a reply in a state that expects none -/
  | ignored (s : Session K U) (code : ℕ) (h : s.controlState = .logged ∨ s.controlState = .closed) :
      Move s (readReply code s)
  | advance (s s' : Session K U) (code : ℕ) (v : Verb) (st : State) (h : Advance s.controlState code v st)
      (hs : Sent v (readReply code s) s') : Move s (s'.goto st)
  /-- the PASV reply: the data connection is opened and the transfer command sent -/
  | opens (s s' : Session K U) (q : Pbuf) (v : Verb) (h : s.controlState = .pasvSent) (ht : Transfer v s.targetState)
      (hs : Sent v (lwftpDataOpen q (readReply 227 s)) s') : Move s (s'.goto s.targetState)
  | refuse (s : Session K U) (code : ℕ) (msgs : List Piece) (h : s.controlState.login) (hc : code ≠ 0)
      (hm : Spelled .quit msgs) :
      Move s (((readReply code s).note (.send .quit msgs)).goto .quitSent)
  | login (s : Session K U) (h : s.controlState = .passSent) :
      Move s (((readReply 230 s).goto .logged).noteDone .logged)
  | begins (s : Session K U) (h : s.controlState = .retrSent ∨ s.controlState = .mlsdSent) :
      Move s ((readReply 150 s).goto .xfering)
  | beginStor (s : Session K U) (usr : U) (h : s.controlState = .storSent) :
      Move s (({ readReply 150 s with usr }.goto .xfering).note (.sendNextData s.dataPcb))
  | write (s : Session K U) (d : Bytes) (h : s.controlState = .xfering ∨ s.controlState = .quitSent) :
      Move s { s.note (.write d) with unacked := s.unacked + d.length }
  | acked (s : Session K U) (n : ℕ) : Move s { s with unacked := s.unacked - n }
  /-- the end of an upload -/
  | eof (s : Session K U) (h : s.controlState = .xfering ∨ s.controlState = .quitSent) : Move s (dropData s)
  | finishData (s : Session K U) (code : ℕ) (r : Result) (h : FinishData s.controlState code r) (hc : code ≠ 0) :
      Move s ((dropData ((readReply code s).goto .logged)).noteDone r)
  | finishCmd (s : Session K U) (code : ℕ) (v : Verb) (r : Result) (sk : List (Option Bytes)) (usr : U)
      (h : s.controlState.cmd = some v) (hr : r = .ok → v.completion = some code) (hn : r.ends) (hc : code ≠ 0) :
      Move s (((withSinks sk usr (readReply code s)).goto .logged).noteDone r)
  | dataUp (s : Session K U) (p : Pcb) (ok : Bool) (h : s.link p = some ⟨.data, false⟩) :
      Move s (lwftpDataConnected p ok s)
  | dataFin (s : Session K U) (p : Pcb) (sk : List (Option Bytes)) (usr : U) (h : s.link p = some ⟨.data, true⟩) :
      Move s (dropData (withSinks sk usr (s.note (.dataFin s.controlState))))
  | dataErr (s : Session K U) (p : Pcb) (up : Bool) (h : s.link p = some ⟨.data, up⟩) (hx : s.controlState ≠ .xfering) :
      Move s { (s.setLink p none).note (.dataErr s.controlState) with dataPcb := none }
  | dataErrEnd (s : Session K U) (p : Pcb) (up : Bool) (h : s.link p = some ⟨.data, up⟩)
      (hx : s.controlState = .xfering) :
      Move s (({ (s.setLink p none).note (.dataErr s.controlState) with dataPcb := none }.goto .logged).noteDone
        .errSrvrResp)
  /-- the answer to QUIT -/
  | closes (s : Session K U) (code : ℕ) (h : s.controlState = .quitSent) (hc : code ≠ 0) :
      Move s ((closeAll (readReply code s)).noteDone (if code = 221 then .ok else .errUnknown))
  /-- the control connection is closed by the server -/
  | hangup (s : Session K U) (r : Result) (h : r = .errClosed ∨ r = .errUnknown) : Move s ((closeAll s).noteDone r)
  | controlErr (s : Session K U) (p : Pcb) (up : Bool) (r : Result) (hp : s.link p = some ⟨.control, up⟩)
      (h : r = .errClosed ∨ r = .errConnect) :
      Move s ((closeAll { s.setLink p none with controlPcb := none }).noteDone r)
  | start (s : Session K U) (mss : ℕ) (v : Verb) (target : State) (msgs : List Piece) (h₁ : s.controlState = .logged)
      (h₂ : s.dataPcb = none) (ht : Transfer v target) (hm : Spelled .type msgs) :
      Move s { (s.note (.send .type msgs)).goto .typeSent with
        dataPcb := some (s.newPcb mss), nextPcb := s.nextPcb + 1, unacked := 0, targetState := target }
  | command (s : Session K U) (v : Verb) (st : State) (msgs : List Piece) (h₁ : s.controlState = .logged)
      (h : Command v st) (hm : Spelled v msgs) : Move s ((s.note (.send v msgs)).goto st)
  /-- `lwftp_close` without a connection -/
  | noQuit (s : Session K U) (h : s.controlState = .closed ∨ s.controlPcb = none) :
      Move s (s.note (.api .close s.controlState))
  /-- `lwftp_close` -/
  | quit (s : Session K U) (msgs : List Piece) (h : s.controlState ≠ .closed) (hp : s.controlPcb ≠ none)
      (hm : Spelled .quit msgs) :
      Move s (((s.note (.api .close s.controlState)).note (.send .quit msgs)).goto .quitSent)

abbrev Moves : Session K U → Session K U → Prop := Relation.ReflTransGen fun s s' => s.fault = false ∧ Move s s'

/-! ### A caller, and the beginning of a run -/

def idleCaller (name : Bytes) : Caller Unit Unit where
  done _ _ s := s
  sink _ _ u := u
  source _ _ _ u := ([], u)
  str _ _ := name

lemma idleCaller_lawful (name : Bytes) : Lawful (idleCaller name) := .base fun _ _ s => ⟨s.user, s.usr, rfl⟩

def idleUser : User Unit := ⟨some (), some (), some (), some (), some (), some (), some ()⟩

def line (p : Pcb) (l : String) : Event K U := .tcp (.controlRecv p [⟨ascii l, []⟩] true)

def loginRun : List (Event K U) :=
  [.api (.connect (some 536) true), .tcp (.controlConnected ⟨0, 536⟩ true), line ⟨0, 536⟩ "220 ready\r\n",
    line ⟨0, 536⟩ "331 password?\r\n", line ⟨0, 536⟩ "230 welcome\r\n"]

def openRun (a : Api) : List (Event K U) :=
  loginRun ++ [.api a, line ⟨0, 536⟩ "200 ok\r\n", line ⟨0, 536⟩ "227 passive (10,0,0,1,4,210)\r\n"]

end LwftpCe.Lwftp
