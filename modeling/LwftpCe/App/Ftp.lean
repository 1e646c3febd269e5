import LwftpCe.App.Utility

/-!
# The application: `ftp.c`

The callbacks of the session, in the order of the file, and the application as its caller (`appCaller`).  A callback may call the
API, which calls back: `appCaller n` follows such calls to the depth `n`, and the innermost callback does not reach the API.
-/

namespace LwftpCe.App

open Lib Lwftp

variable {V : Type}

/-! ### The listing -/

/-- The type that `ftp_AddRemoteFile` gives to an entry; `type` is the string behind `type=`, `name` the file name. -/
def entryType (type name : Bytes) : FileType :=
  if ascii "dir" <+: type then .dir
  else if 4 ≤ name.length ∧ ascii ".8x" <+: name.drop (name.length - 4) then
    if name.getLast? = some 112 then .prog else if name.getLast? = some 118 then .appvar else .unknown
  else .unknown

def entryName (type : FileType) (name : Bytes) : Bytes :=
  ((if type = .dir then name else name.takeWhile (· ≠ 46))).take 8

def Name8.copy (old : Name8) (new : Bytes) : Name8 :=
  ⟨(new ++ old.1.drop new.length).take 8, by
    have := old.2
    simp only [List.length_take, List.length_append, List.length_drop]
    omega⟩

def ftpAddRemoteFile (a : AppT V) : AppT V :=
  match strchr 32 a.rxBuf, strstr (ascii "type=") (cstr a.rxBuf) with
  | some n, some t =>
    let i := a.total true
    if maxRemoteFiles ≤ i then a
    else
      let name := cstr n.tail
      let type := entryType (t.drop 5) name
      let entry := a.remoteFiles i
      if type = .unknown then { a with remoteFiles := Function.update a.remoteFiles i { entry with type } }
      else
        { a with
          remoteFiles := Function.update a.remoteFiles i ⟨type, entry.name.copy (entryName type name)⟩
          total := Function.update a.total true (uadd i 1) }
  | _, _ => a

def terminate (a : AppT V) : AppT V :=
  let n := if a.rxOffset ≠ 0 ∧ a.rxBuf.getD (a.rxOffset - 1) 0 = 13 then a.rxOffset - 1 else a.rxOffset
  { a with rxOffset := n, rxBuf := a.rxBuf.set n 0 }

def endLine (a : AppT V) : AppT V := { ftpAddRemoteFile (terminate a) with rxOffset := 0 }

def listBytes : Bytes → AppT V → AppT V
  | [], a => a
  | c :: d, a =>
    if c = 10 then listBytes d (endLine a)
    else if a.rxOffset < rxBufSize then
      listBytes d { a with rxBuf := a.rxBuf.set a.rxOffset c, rxOffset := a.rxOffset + 1 }
    else a

def ftpListDataSink (d : Option Bytes) (a : AppT V) : AppT V :=
  match d with
  | none => a
  | some d => listBytes d a

/-! ### The directory -/

def quoted (d : Bytes) : Option Bytes :=
  match d.dropWhile (· ≠ 34) with
  | [] => none
  | _ :: t => if 34 ∈ t then some (t.takeWhile (· ≠ 34)) else none

def ftpPwdDataSink (d : Option Bytes) (a : AppT V) : AppT V :=
  match d.bind quoted with
  | none => a
  | some p => { a with path := cstr (p.take rxBufSize), rxOffset := min p.length rxBufSize }

/-! ### The transfers -/

/-- `ftp_StorDataSource`; `ptr` is whether `pptr` is not `NULL`.  The bytes at `*pptr`, and the application after it. -/
def ftpStorDataSource (ptr : Bool) (maxlen : ℕ) (a : AppT V) : Bytes × AppT V :=
  let a := if ptr then a else { a with txOffset := uadd a.txOffset maxlen }
  let a := if a.txOffset > a.txSize then { a with txOffset := a.txSize } else a
  if ptr = false ∨ maxlen = 0 ∨ a.txOffset = a.txSize then ([], a)
  else (a.fileBuffer.read a.txOffset (min (a.txSize - a.txOffset) maxlen), a)

def ftpRetrDataSink (d : Option Bytes) (a : AppT V) : AppT V :=
  match d with
  | none => a
  | some d =>
    let d := if a.rxOffset + d.length > fileBufferSize then d.take (fileBufferSize - a.rxOffset) else d
    { a with fileBuffer := a.fileBuffer.write a.rxOffset d, rxOffset := a.rxOffset + d.length }

/-- The variable that `ftp_RetrCallback` makes of a file. -/
structure Received where
  name : Bytes
  type : UInt8
  data : Bytes
  archived : Bool
  deriving DecidableEq

/-- The part of `ftp_RetrCallback` that reads `FILE_BUFFER`; `none` for "Invalid checksum".  The number of bytes of the
variable is `size - 2` as a `size_t`. -/
def receiveFile (m : Mem) : Option Received :=
  let dataSize := m.word 53
  let checksum := utilComputeChecksum m 55 dataSize
  let size := m.word 70
  if checksum ≠ m.word (72 + size) then none
  else some ⟨cstr (m.read 60 8), m 59, m.read 74 (usub size 2), m 69 = 0x80⟩

/-! ### The callbacks -/

section Callbacks

variable (F : Fileioc V) (api : Api → Prog V → Prog V)

def failed (r : Result) (s : Prog V) : Prog V := onApp (fun a => { a with ftpResult := r, busy := false }) s

def ftpConnectCallback (r : Result) (s : Prog V) : Prog V :=
  if r = .inprogress then s
  else if r ≠ .logged then
    let s := api .close (onApp (fun a => { a with ftpResult := r }) s)
    onApp (fun a => { a with busy := false }) s
  else utilGetRemoteFiles api (onApp (fun a => { a with ftpStarted := true }) s)

def callback (next : Prog V → Prog V) (r : Result) (s : Prog V) : Prog V :=
  if r = .inprogress then s else if r ≠ .ok then failed r s else next s

def ftpListCallback : Result → Prog V → Prog V := callback (utilGetDir api)
def ftpPwdCallback : Result → Prog V → Prog V := callback (onApp fun a => { a with busy := false })
def ftpCwdCallback : Result → Prog V → Prog V := callback (utilGetRemoteFiles api)
def ftpDelCallback : Result → Prog V → Prog V := callback fun s => utilGetRemoteFiles api (onApp AppT.cutPath s)
def ftpMoveCallback : Result → Prog V → Prog V :=
  callback fun s => utilGetRemoteFiles api (onApp (fun a => a.cutPath.dropEntry) s)

def ftpStorCallback (r : Result) (s : Prog V) : Prog V :=
  if r = .inprogress then s
  else
    let s := onApp AppT.cutPath s
    if r ≠ .ok then failed r s else utilGetRemoteFiles api s

def ftpRetrCallback (r : Result) (s : Prog V) : Prog V :=
  if r = .inprogress then s
  else if r ≠ .ok then failed r s
  else
    let s := onApp (fun a => { a with busy := false }) s
    match receiveFile s.usr.fileBuffer with
    | none => s
    | some v => onApp (fun a => utilGetLocalFiles F { a with
        vars := F.writeVar a.vars v.name v.type v.data v.archived }) s

def appDone : Ptr → Result → Prog V → Prog V
  | .ftpConnectCallback => ftpConnectCallback api
  | .ftpListCallback => ftpListCallback api
  | .ftpPwdCallback => ftpPwdCallback
  | .ftpCwdCallback => ftpCwdCallback api
  | .ftpDelCallback => ftpDelCallback api
  | .ftpMoveCallback => ftpMoveCallback api
  | .ftpStorCallback => ftpStorCallback api
  | .ftpRetrCallback => ftpRetrCallback F
  | _ => fun _ s => s

end Callbacks

def callerWith (F : Fileioc V) (api : Api → Prog V → Prog V) : Caller Ptr (AppT V) where
  done := appDone F api
  sink
    | .ftpListDataSink => ftpListDataSink
    | .ftpPwdDataSink => ftpPwdDataSink
    | .ftpRetrDataSink => ftpRetrDataSink
    | _ => fun _ a => a
  source
    | .ftpStorDataSource => ftpStorDataSource
    | _ => fun _ _ a => ([], a)
  str
    | .appPath => AppT.path
    | .input => AppT.input
    | .user => AppT.userName
    | .pass => AppT.password
    | _ => fun _ => []

def appCaller (F : Fileioc V) : ℕ → Caller Ptr (AppT V)
  | 0 => callerWith F fun _ s => s
  | n + 1 => callerWith F (callApi (appCaller F n))

end LwftpCe.App
