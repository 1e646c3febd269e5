import LwftpCe.Lwftp.Defs

/-!
# The session of `lwftp.c`: data connection and state machine

The functions of `lwftp.c` up to `lwftp_control_process`, in the order of the file.  The results of `tcp_write`,
`tcp_close` and `lwftp_data_open` are ignored by the source, so they do not appear.  The two `switch` statements of
`lwftp_control_process` are `onReply` and `controlEnd`; a `case` of the first one that is more than a line has a
definition of its own.
-/

namespace LwftpCe.Lwftp

open Lib

variable {K U : Type}

/-! ### Data connection -/

def lwftpPcbClose (p : Pcb) (s : Session K U) : Session K U := (s.setLink p none).note (.close p)

def dropData (s : Session K U) : Session K U :=
  match s.dataPcb with
  | none => s
  | some p => { lwftpPcbClose p s with dataPcb := none }

def dropControl (s : Session K U) : Session K U :=
  match s.controlPcb with
  | none => s
  | some p => { lwftpPcbClose p s with controlPcb := none }

def nextData (c : Caller K U) (p : Pcb) (s : Session K U) : Bytes × U :=
  match s.user.dataSource with
  | none => ([], s.usr)
  | some k => c.source k true p.mss s.usr

/-- `tcp_write` of a block of the upload; the empty block closes the connection as the end of the file. -/
def writeData (data : Bytes) (s : Session K U) : Session K U :=
  if data = [] then dropData s else { s.note (.write data) with unacked := s.unacked + data.length }

def lwftpSendNextData (c : Caller K U) (s : Session K U) : Session K U :=
  let s := s.note (.sendNextData s.dataPcb)
  match s.dataPcb with
  | none => { s with fault := true }
  | some p => writeData (nextData c p s).1 { s with usr := (nextData c p s).2 }

def sinkAll (c : Caller K U) : List Pbuf → Session K U → Session K U
  | [], s => s
  | q :: p, s => sinkAll c p (s.callSink c (some q.payload))

def lwftpDataRecv (c : Caller K U) (p : List Pbuf) (s : Session K U) : Session K U :=
  if p = [] then dropData ((s.note (.dataFin s.controlState)).callSink c none) else sinkAll c p s

def lwftpDataSent (c : Caller K U) (len : ℕ) (s : Session K U) : Session K U :=
  let s := match s.user.dataSource with
    | none => s
    | some k => { s with usr := (c.source k false len s.usr).2 }
  lwftpSendNextData c s

def lwftpDataConnected (p : Pcb) (ok : Bool) (s : Session K U) : Session K U :=
  let s := s.setLink p (some ⟨.data, true⟩)
  if ok then { s with dataState := .connected } else s

/-- The six numbers behind the `(` of a PASV response: address and port; `none` for `ERR_BUF`.  Each number is read one byte behind
the end of the one before. -/
def pasvAddress (ptr : Bytes) : Option (Ip × ℕ) :=
  let (a, ptr) := strtoul ptr.tail
  let (b, ptr) := strtoul ptr.tail
  let (c, ptr) := strtoul ptr.tail
  let (d, ptr) := strtoul ptr.tail
  let (hi, ptr) := strtoul ptr.tail
  let (lo, ptr) := strtoul ptr.tail
  if ptr.head? = some 41 then
    some (⟨UInt8.ofNat a, UInt8.ofNat b, UInt8.ofNat c, UInt8.ofNat d⟩, hi * 256 % 65536 ||| lo % 256)
  else none

def lwftpDataOpen (q : Pbuf) (s : Session K U) : Session K U :=
  let s := s.note (.dataOpen s.dataPcb)
  match (strchr 40 q.mem).bind pasvAddress with
  | none => s
  | some (ip, port) =>
    match s.dataPcb with
    | none => { s with fault := true }
    | some p => (s.setLink p (some ⟨.data, false⟩)).note (.dataConnect ip port)

/-! ### Control connection -/

def sendLine (v : Verb) (msg : String) (s : Session K U) : Session K U := s.note (.send v [⟨ascii msg, none⟩])

/-- A command line that ends in the string of the field `f`. -/
def sendArg (c : Caller K U) (v : Verb) (msgs : List Bytes) (f : Field) (s : Session K U) : Session K U :=
  match s.user.get f with
  | none => { s with fault := true }
  | some k => s.note (.send v (msgs.map (⟨·, none⟩) ++ [⟨c.str k s.usr, some f⟩, ⟨ascii "\r\n", none⟩]))

def lwftpDataClose (c : Caller K U) (result : Result) (s : Session K U) : Session K U :=
  (dropData s).callDone c result

def lwftpControlClose (c : Caller K U) (result : Option Result) (s : Session K U) : Session K U :=
  let s := (dropControl (dropData s)).goto .closed
  match result with
  | none => s
  | some r => s.callDone c r

/-! ### The state machine -/

def transferCmd (c : Caller K U) (s : Session K U) : Session K U :=
  match s.targetState with
  | .storSent => sendArg c .stor [ascii "STOR "] .remotePath s
  | .retrSent => sendArg c .retr [ascii "RETR "] .remotePath s
  | .mlsdSent => sendArg c .mlsd [ascii "MLSD "] .remotePath s
  | _ => sendArg c .bare [] .remotePath { s with targetState := .quit }

def onPasv (c : Caller K U) (q : Pbuf) (response : ℕ) (s : Session K U) : Session K U :=
  if response = 227 then
    let s := transferCmd c (lwftpDataOpen q s)
    s.goto s.targetState
  else s.goto .quit

def onPwd (c : Caller K U) (q : Pbuf) (response : ℕ) (s : Session K U) : Session K U × Result :=
  if response = 257 then ((s.callSink c (some q.payload)).goto .cmdend, .ok) else (s.goto .cmdend, .errSrvrResp)

def result250 (response : ℕ) : Result :=
  if response = 250 then .ok else if response = 550 then .errFilename else .errSrvrResp

def onRnfr (c : Caller K U) (response : ℕ) (s : Session K U) : Session K U × Result :=
  if response = 350 then ((sendArg c .rnto [ascii "RNTO "] .remoteNewPath s).goto .rntoSent, .errSrvrResp)
  else (s.goto .cmdend, if response = 550 then .errFilename else .errSrvrResp)

/-- The first `switch` of `lwftp_control_process` for a response that is not zero: the session and `result`. -/
def onReply (c : Caller K U) (q : Pbuf) (response : ℕ) (s : Session K U) : Session K U × Result :=
  match s.controlState with
  | .connected =>
    (if response = 220 then (sendArg c .user [ascii "USER "] .user s).goto .userSent else s.goto .quit, .errSrvrResp)
  | .userSent =>
    (if response = 331 then (sendArg c .pass [ascii "PASS "] .pass s).goto .passSent else s.goto .quit, .errSrvrResp)
  | .passSent =>
    (if response = 230 then (s.goto .logged).callDone c .logged else s.goto .quit, .errSrvrResp)
  | .typeSent =>
    (if response = 200 then (sendLine .pasv "PASV\r\n" s).goto .pasvSent else s.goto .quit, .errSrvrResp)
  | .pasvSent => (onPasv c q response s, .errSrvrResp)
  | .retrSent =>
    if response = 150 then (s.goto .xfering, .errSrvrResp)
    else (s.goto .dataend, if response = 550 then .errFilename else .errSrvrResp)
  | .storSent =>
    if response = 150 then (lwftpDataSent c 0 (s.goto .xfering), .errSrvrResp) else (s.goto .dataend, .errSrvrResp)
  | .mlsdSent => (if response = 150 then s.goto .xfering else s.goto .dataend, .errSrvrResp)
  | .deleSent | .rmdSent | .cwdSent => (s.goto .cmdend, result250 response)
  | .pwdSent => onPwd c q response s
  | .rnfrSent => onRnfr c response s
  | .rntoSent => (s.goto .cmdend, if response = 250 then .ok else .errSrvrResp)
  | .xfering => (s.goto .dataend, if response = 226 then .ok else .errClosed)
  | .quitSent => (s.goto .closing, if response = 221 then .ok else .errUnknown)
  | .closed | .logged | .dataend | .quit | .closing | .cmdend => (s, .errSrvrResp)

def controlEnd (c : Caller K U) (result : Result) (s : Session K U) : Session K U :=
  match s.controlState with
  | .dataend => lwftpDataClose c result (s.goto .logged)
  | .cmdend => (s.goto .logged).callDone c result
  | .quit => (sendLine .quit "QUIT\r\n" s).goto .quitSent
  | .closing => lwftpControlClose c (some result) s
  | _ => s

def response (q : Pbuf) : ℕ := (strtoul q.mem).1 % 65536

def lwftpControlProcess (c : Caller K U) (p : List Pbuf) (s : Session K U) : Session K U :=
  match p with
  | [] => controlEnd c .errSrvrResp s
  | q :: _ =>
    if response q = 0 then controlEnd c .errSrvrResp s
    else
      let (s, result) := onReply c q (response q) (s.note (.reply (response q) s.controlState))
      controlEnd c result s

def lwftpDataErr (c : Caller K U) (p : Pcb) (s : Session K U) : Session K U :=
  let s := (s.setLink p none).note (.dataErr s.controlState)
  let s := { s with dataPcb := none }
  if s.controlState = .xfering then lwftpControlProcess c [] (s.goto .dataend) else s

end LwftpCe.Lwftp
