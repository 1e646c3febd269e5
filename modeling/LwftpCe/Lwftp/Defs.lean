import LwftpCe.Lib.CString
import LwftpCe.Lib.Trace

/-!
# The session of `lwftp.c`: its data

`Session K U` is `lwftp_session_t` together with what the session's code acts on:

* `user`, the fields of the caller; a pointer is a name `k : K` of an object of the caller, `none` is `NULL`, and what the object
  is at a given moment the caller's world `usr : U` says (`Caller`);
* the internal fields: `controlState`, `targetState`, `dataState`, `controlPcb`, `dataPcb`;
* `link`, the view of the TCP stack: which control blocks have callbacks of this session registered, and whether the connection
  is up.  A block without callbacks delivers no event; `nextPcb` counts the blocks handed out, `unacked` the bytes written on
  the data connection and not acknowledged yet;
* `trace`, what the session did and was told, the latest first;
* `fault`, set when the code goes through a `NULL` pointer or hands one to the stack.  Nothing is said of what happens
  afterwards.
-/

namespace LwftpCe.Lwftp

open Lib

variable {K U : Type}

/-- `lwftp_results`. -/
inductive Result where
  | ok | inprogress | logged
  | errUnknown | errArgument | errMemory | errConnect | errHostname | errClosed | errTimeout
  | errSrvrResp | errInternal | errLocal | errFilename
  deriving DecidableEq, Repr

/-- `lwftp_state_t`. -/
inductive State where
  | closed | connected | userSent | passSent | logged | typeSent | pasvSent | retrSent | storSent
  | xfering | dataend | quit | quitSent | closing | mlsdSent | deleSent | rmdSent | cwdSent
  | pwdSent | rnfrSent | rntoSent | cmdend
  deriving DecidableEq, Repr

/-- The commands of the control connection; `bare` is the line without a verb that the branch
"Unexpected internal state" leaves behind. -/
inductive Verb where
  | user | pass | type | pasv | stor | retr | mlsd | dele | rmd | cwd | pwd | rnfr | rnto | quit | bare
  deriving DecidableEq, Repr

/-- The fields of the caller whose strings go into command lines. -/
inductive Field where
  | user | pass | remotePath | remoteNewPath
  deriving DecidableEq, Repr

/-- One call of `lwftp_send_msg`: its bytes, and the field whose string they are, if they are no literal. -/
structure Piece where
  bytes : Bytes
  field : Option Field := none
  deriving DecidableEq, Repr

structure Pcb where
  id : ℕ
  mss : ℕ
  deriving DecidableEq, Repr

/-- Which set of callbacks is registered on a control block. -/
inductive Role where
  | control | data
  deriving DecidableEq, Repr

/-- The registered callbacks, and whether the connection is established. -/
structure Link where
  role : Role
  up : Bool
  deriving DecidableEq, Repr

structure Pbuf where
  payload : Bytes
  after : Bytes := []
  deriving DecidableEq, Repr

def Pbuf.mem (q : Pbuf) : Bytes := q.payload ++ q.after

structure Ip where
  a : UInt8
  b : UInt8
  c : UInt8
  d : UInt8
  deriving DecidableEq, Repr

/-- A call of the API, with the outcomes of the stack's calls in it: `new` is what `tcp_new` returns (`none` for `NULL`,
else the segment size that the connection is going to have), `conn` whether `tcp_connect` succeeds. -/
inductive Api where
  | connect (new : Option ℕ) (conn : Bool)
  | retrieve (new : Option ℕ)
  | store (new : Option ℕ)
  | mlsd (new : Option ℕ)
  | delete | removeDir | changeDir | printDir | move | close
  deriving DecidableEq, Repr

/-- What the trace records.  Where the state of the control connection at that moment matters, it stands beside. -/
inductive Obs (K : Type) where
  /-- the caller calls the API -/
  | api (a : Api) (st : State)
  /-- the control connection is established -/
  | connected
  /-- `lwftp_control_process` reads the number `code`, not zero, at the head of a segment -/
  | reply (code : ℕ) (st : State)
  /-- the calls of `lwftp_send_msg` that make up one command line -/
  | send (v : Verb) (msgs : List Piece)
  /-- `done_fn(handle, r)` -/
  | done (k : K) (r : Result)
  /-- `data_sink(handle, ptr, len)`, `none` for a `NULL` pointer -/
  | sink (d : Option Bytes)
  /-- `tcp_write` on the data connection -/
  | write (d : Bytes)
  /-- `lwftp_send_next_data` starts with this `data_pcb` -/
  | sendNextData (p : Option Pcb)
  /-- `lwftp_data_open` starts with this `data_pcb` -/
  | dataOpen (p : Option Pcb)
  /-- `tcp_connect` on the data connection -/
  | dataConnect (ip : Ip) (port : ℕ)
  /-- the server closed the data connection -/
  | dataFin (st : State)
  /-- the data connection failed -/
  | dataErr (st : State)
  /-- `lwftp_pcb_close` -/
  | close (p : Pcb)

/-- The fields of `lwftp_session_t` that belong to the caller. -/
structure User (K : Type) where
  remotePath : Option K := none
  remoteNewPath : Option K := none
  user : Option K := none
  pass : Option K := none
  dataSource : Option K := none
  dataSink : Option K := none
  doneFn : Option K := none

def User.get (u : User K) : Field → Option K
  | .user => u.user
  | .pass => u.pass
  | .remotePath => u.remotePath
  | .remoteNewPath => u.remoteNewPath

/-- `lwftp_session_t` and the world around it. -/
structure Session (K U : Type) where
  user : User K
  controlState : State := .closed
  targetState : State := .closed
  dataState : State := .closed
  controlPcb : Option Pcb := none
  dataPcb : Option Pcb := none
  link : Pcb → Option Link := fun _ => none
  nextPcb : ℕ := 0
  unacked : ℕ := 0
  usr : U
  trace : List (Obs K) := []
  fault : Bool := false

/-- The caller: what its callbacks do and what its strings hold.  `done k r` may change the caller's fields and world and call the
API again; `source k b n` is `data_source(handle, pptr, n)` with `pptr` non-`NULL` exactly if `b`, and returns the bytes at
`*pptr`. -/
structure Caller (K U : Type) where
  done : K → Result → Session K U → Session K U
  sink : K → Option Bytes → U → U
  source : K → Bool → ℕ → U → Bytes × U
  str : K → U → Bytes

namespace Session

def note (s : Session K U) (o : Obs K) : Session K U := { s with trace := o :: s.trace }

def goto (s : Session K U) (st : State) : Session K U := { s with controlState := st }

def noteDone (s : Session K U) (r : Result) : Session K U :=
  match s.user.doneFn with
  | none => s
  | some k => s.note (.done k r)

def callDone (c : Caller K U) (r : Result) (s : Session K U) : Session K U :=
  match s.user.doneFn with
  | none => s
  | some k => c.done k r (s.note (.done k r))

def callSink (c : Caller K U) (d : Option Bytes) (s : Session K U) : Session K U :=
  match s.user.dataSink with
  | none => s
  | some k => { s.note (.sink d) with usr := c.sink k d s.usr }

def newPcb (s : Session K U) (mss : ℕ) : Pcb := ⟨s.nextPcb, mss⟩

def setLink (s : Session K U) (p : Pcb) (l : Option Link) : Session K U :=
  { s with link := Function.update s.link p l }

end Session

def initial (user : User K) (usr : U) : Session K U := { user, usr }

end LwftpCe.Lwftp
