import LwftpCe.Lwftp.Process

/-!
# The session of `lwftp.c`: the API and the callbacks of the control connection

`NO_SYS` is set, so `tcpip_callback` runs the function at once and returns `ERR_OK`: the branches behind a failed
`tcpip_callback` do not exist in this build.

The API functions are three families, `lwftpStart` (the transfers), `lwftpSend` (the commands with one path) and the
functions around them; each function of the source is an instance with its own command, target state and checks.
-/

namespace LwftpCe.Lwftp

open Lib

variable {K U : Type}

/-! ### Starting an operation -/

def lwftpStart (c : Caller K U) (target : State) (s : Session K U) : Session K U :=
  if s.controlState = .logged then { (sendLine .type "TYPE I\r\n" s).goto .typeSent with targetState := target }
  else s.callDone c .errInternal

def lwftpStartRETR (c : Caller K U) : Session K U → Session K U := lwftpStart c .retrSent
def lwftpStartSTOR (c : Caller K U) : Session K U → Session K U := lwftpStart c .storSent
def lwftpStartMLSD (c : Caller K U) : Session K U → Session K U := lwftpStart c .mlsdSent

/-- `lwftp_send_DELE` and the other functions that send one command: `line` sends it, `st` is the state after it. -/
def lwftpSend (c : Caller K U) (line : Session K U → Session K U) (st : State) (s : Session K U) : Session K U :=
  if s.controlState = .logged then (line s).goto st else s.callDone c .errInternal

def lwftpSendDELE (c : Caller K U) : Session K U → Session K U :=
  lwftpSend c (sendArg c .dele [ascii "DELE "] .remotePath) .deleSent
def lwftpSendRMD (c : Caller K U) : Session K U → Session K U :=
  lwftpSend c (sendArg c .rmd [ascii "RMD "] .remotePath) .rmdSent
def lwftpSendCWD (c : Caller K U) : Session K U → Session K U :=
  lwftpSend c (sendArg c .cwd [ascii "CWD "] .remotePath) .cwdSent
def lwftpSendPWD (c : Caller K U) : Session K U → Session K U := lwftpSend c (sendLine .pwd "PWD\r\n") .pwdSent
def lwftpSendRNFR (c : Caller K U) : Session K U → Session K U :=
  lwftpSend c (sendArg c .rnfr [ascii "RNFR "] .remotePath) .rnfrSent

def lwftpSendQUIT (s : Session K U) : Session K U :=
  if s.controlPcb = none then s else (sendLine .quit "QUIT\r\n" s).goto .quitSent

/-! ### The API -/

def exit (c : Caller K U) (retval : Result) (s : Session K U) : Session K U × Result := (s.callDone c retval, retval)

def lwftpConnect (c : Caller K U) (new : Option ℕ) (conn : Bool) (s : Session K U) : Session K U × Result :=
  if s.controlState ≠ .closed ∨ s.controlPcb ≠ none ∨ s.dataPcb ≠ none ∨ s.user.user = none ∨ s.user.pass = none then
    exit c .errArgument s
  else
    match new with
    | none => exit c .errMemory s
    | some mss =>
      let p := s.newPcb mss
      let s := { s.setLink p (some ⟨.control, false⟩) with controlPcb := some p, nextPcb := s.nextPcb + 1 }
      if conn then exit c .inprogress s else exit c .errUnknown (lwftpControlClose c none s)

def lwftpTransfer (c : Caller K U) (start : Session K U → Session K U) (new : Option ℕ) (s : Session K U) :
    Session K U × Result :=
  if s.controlState ≠ .logged ∨ s.user.remotePath = none ∨ s.dataPcb ≠ none then exit c .errArgument s
  else
    match new with
    | none => exit c .errMemory s
    | some mss =>
      exit c .inprogress (start { s with dataPcb := some (s.newPcb mss), nextPcb := s.nextPcb + 1, unacked := 0 })

def lwftpRetrieve (c : Caller K U) : Option ℕ → Session K U → Session K U × Result :=
  lwftpTransfer c (lwftpStartRETR c)
def lwftpStore (c : Caller K U) : Option ℕ → Session K U → Session K U × Result := lwftpTransfer c (lwftpStartSTOR c)
def lwftpMlsd (c : Caller K U) : Option ℕ → Session K U → Session K U × Result := lwftpTransfer c (lwftpStartMLSD c)

/-- `lwftp_delete` and the other functions that send one command; `args` is whether the caller has set the arguments. -/
def lwftpCommand (c : Caller K U) (args : User K → Bool) (send : Session K U → Session K U) (s : Session K U) :
    Session K U × Result :=
  if s.controlState ≠ .logged ∨ args s.user = false ∨ s.dataPcb ≠ none then exit c .errArgument s
  else exit c .inprogress (send s)

def lwftpDelete (c : Caller K U) : Session K U → Session K U × Result :=
  lwftpCommand c (fun u => u.remotePath.isSome) (lwftpSendDELE c)
def lwftpRemoveDir (c : Caller K U) : Session K U → Session K U × Result :=
  lwftpCommand c (fun u => u.remotePath.isSome) (lwftpSendRMD c)
def lwftpChangeDir (c : Caller K U) : Session K U → Session K U × Result :=
  lwftpCommand c (fun u => u.remotePath.isSome) (lwftpSendCWD c)
def lwftpPrintDir (c : Caller K U) : Session K U → Session K U × Result :=
  lwftpCommand c (fun _ => true) (lwftpSendPWD c)
def lwftpMove (c : Caller K U) : Session K U → Session K U × Result :=
  lwftpCommand c (fun u => u.remotePath.isSome && u.remoteNewPath.isSome) (lwftpSendRNFR c)

def lwftpClose (s : Session K U) : Session K U := if s.controlState = .closed then s else lwftpSendQUIT s

def callApi (c : Caller K U) (a : Api) (s : Session K U) : Session K U :=
  let s := s.note (.api a s.controlState)
  match a with
  | .connect new conn => (lwftpConnect c new conn s).1
  | .retrieve new => (lwftpRetrieve c new s).1
  | .store new => (lwftpStore c new s).1
  | .mlsd new => (lwftpMlsd c new s).1
  | .delete => (lwftpDelete c s).1
  | .removeDir => (lwftpRemoveDir c s).1
  | .changeDir => (lwftpChangeDir c s).1
  | .printDir => (lwftpPrintDir c s).1
  | .move => (lwftpMove c s).1
  | .close => lwftpClose s

/-! ### The callbacks of the control connection -/

def lwftpControlRecv (c : Caller K U) (p : List Pbuf) (ok : Bool) (s : Session K U) : Session K U :=
  if ok then
    if p = [] then lwftpControlClose c (some .errClosed) s else lwftpControlProcess c p s
  else lwftpControlClose c (some .errUnknown) s

def lwftpControlErr (c : Caller K U) (p : Pcb) (s : Session K U) : Session K U :=
  let result := if s.controlState = .closed then .errConnect else .errClosed
  lwftpControlClose c (some result) { s.setLink p none with controlPcb := none }

def lwftpControlConnected (p : Pcb) (ok : Bool) (s : Session K U) : Session K U :=
  let s := s.setLink p (some ⟨.control, true⟩)
  if ok then (s.note .connected).goto .connected else s

/-! ### The machine -/

/-- What the TCP stack reports: the callbacks, with the block they are for.  A segment is a chain of buffers, the empty
chain the end of the stream. -/
inductive Tcp where
  | controlConnected (p : Pcb) (ok : Bool)
  | controlRecv (p : Pcb) (q : List Pbuf) (ok : Bool)
  | controlSent (p : Pcb) (len : ℕ)
  | controlErr (p : Pcb)
  | dataConnected (p : Pcb) (ok : Bool)
  | dataRecv (p : Pcb) (q : List Pbuf)
  | dataSent (p : Pcb) (len : ℕ)
  | dataErr (p : Pcb)

/-- The stack delivers an event only on a block whose callbacks are registered; the connected callback comes once, before
any data, and only bytes that were written are acknowledged. -/
def Tcp.enabled (s : Session K U) : Tcp → Bool
  | .controlConnected p _ => s.link p = some ⟨.control, false⟩
  | .controlRecv p _ _ | .controlSent p _ => s.link p = some ⟨.control, true⟩
  | .controlErr p => s.link p = some ⟨.control, false⟩ ∨ s.link p = some ⟨.control, true⟩
  | .dataConnected p _ => s.link p = some ⟨.data, false⟩
  | .dataRecv p _ => s.link p = some ⟨.data, true⟩
  | .dataSent p len => s.link p = some ⟨.data, true⟩ ∧ 0 < len ∧ len ≤ s.unacked
  | .dataErr p => s.link p = some ⟨.data, false⟩ ∨ s.link p = some ⟨.data, true⟩

def Tcp.handle (c : Caller K U) (s : Session K U) : Tcp → Session K U
  | .controlConnected p ok => lwftpControlConnected p ok s
  | .controlRecv _ q ok => lwftpControlRecv c q ok s
  | .controlSent _ _ => s
  | .controlErr p => lwftpControlErr c p s
  | .dataConnected p ok => lwftpDataConnected p ok s
  | .dataRecv _ q => lwftpDataRecv c q s
  | .dataSent _ len => lwftpDataSent c len { s with unacked := s.unacked - len }
  | .dataErr p => lwftpDataErr c p s

/-- A top-level event: a report of the stack, a call of the API from the caller's own loop, or the caller changing its
fields and its world. -/
inductive Event (K U : Type) where
  | tcp (e : Tcp)
  | api (a : Api)
  | caller (user : User K) (usr : U)

def step (c : Caller K U) (s : Session K U) : Event K U → Option (Session K U)
  | .tcp e => if s.fault = false ∧ e.enabled s then some (e.handle c s) else none
  | .api a => if s.fault = false then some (callApi c a s) else none
  | .caller user usr => if s.fault = false then some { s with user, usr } else none

end LwftpCe.Lwftp
