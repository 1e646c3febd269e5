import LwftpCe.App.Ftp

/-!
# The application: the loop of `main`

`Main V` is the state of the program and where `main` is (`Mode`).  Wherever `main` services the network a report of the stack
can come in (`Event.tcp`), and an iteration that finds keys pressed is one event (`Event.keys`).  The functions that service the
network themselves have modes of their own.  There is no clock: an event may come at any time.

`began` is no part of the program: the operation that was started last, and `app.path` and `app.dir` before it, until the first
event after its end.
-/

namespace LwftpCe.App

open Lib Lwftp

variable {V : Type}

inductive Key where
  | left | right | up | down | second | yequ | window | zoom | trace | graph
  deriving DecidableEq, Repr

inductive Op where
  | enter | back | upload | delete | download | move
  deriving DecidableEq, Repr

inductive Mode where
  /-- before `lwftp_connect` -/
  | setup
  /-- in the loop that waits for the login -/
  | connecting
  /-- in the main loop -/
  | main
  /-- in the loop of `util_UploadFile`, in the loop of `util_DownloadFile`, in the input of `util_MoveFile` -/
  | upload | download | moveInput
  /-- behind the main loop -/
  | closing
  /-- at `exit`, without a connection -/
  | stopped
  deriving DecidableEq, Repr

def Mode.network : Mode → Bool
  | .setup | .stopped => false
  | _ => true

/-! ### The keys -/

def moveCursor (down : Key → Bool) (a : AppT V) : AppT V :=
  let c := a.remoteColumn
  if down .left ∨ down .right then { a with remoteColumn := !c }
  else if down .up then
    if a.selected c ≠ 0 then
      let a := { a with selected := Function.update a.selected c (usub (a.selected c) 1) }
      if a.selected c < a.start c then { a with start := Function.update a.start c (usub (a.start c) 1) } else a
    else
      let a := { a with selected := Function.update a.selected c (usub (a.total c) 1) }
      if a.total c > maxShownFiles then
        { a with start := Function.update a.start c (usub (a.total c) maxShownFiles) }
      else a
  else if down .down then
    if a.selected c ≠ usub (a.total c) 1 then
      let a := { a with selected := Function.update a.selected c (uadd (a.selected c) 1) }
      if a.selected c > usub (uadd (a.start c) maxShownFiles) 1 then
        { a with start := Function.update a.start c (uadd (a.start c) 1) }
      else a
    else { a with selected := Function.update a.selected c 0, start := Function.update a.start c 0 }
  else a

def AppT.dirEntry (a : AppT V) : FileT := a.remoteFiles (a.selected a.remoteColumn)

def chooseOp (down : Key → Bool) (a : AppT V) : Option Op :=
  if a.ftpStarted ∧ a.busy = false then
    if down .second ∧ a.dirEntry.type = .dir ∧ usub rxBufSize a.path.length > 8 then some .enter
    else if down .yequ ∧ a.dir ≠ 0 then some .back
    else if down .window then some .upload
    else if down .zoom then some .delete
    else if down .trace then some .download
    else if down .graph then some .move
    else none
  else none

def runOp (F : Fileioc V) (api : Api → Prog V → Prog V) (s : Prog V) : Op → Prog V × Mode
  | .enter =>
    let s := utilChangeDir api (onApp (fun a => { a with path := dirPath a.path a.dirEntry }) s)
    (onApp (fun a => { a with dir := a.dir + 1 }) s, .main)
  | .back =>
    let s := utilChangeDir api (onApp AppT.cutPath s)
    (onApp (fun a => { a with dir := a.dir - 1 }) s, .main)
  | .upload =>
    match utilUploadFile F api s with
    | none => (s, .main)
    | some s => (s, .upload)
  | .delete => (utilDeleteFile F api s, .main)
  | .download =>
    match utilDownloadFile api s with
    | none => (s, .main)
    | some s => (s, .download)
  | .move =>
    match utilMoveFile s with
    | none => (s, .main)
    | some s => (s, .moveInput)

/-! ### The program -/

/-- An operation, with `app.path`, `app.dir` and the length of the trace before it. -/
structure Began where
  op : Op
  path : Bytes
  dir : UInt8
  since : ℕ

structure Main (V : Type) where
  s : Prog V
  mode : Mode := .setup
  began : Option Began := none

/-- No operation is going on: `app.busy` is clear, and neither the loop of a download nor the input of a move is left to
end. -/
def Main.isOver (m : Main V) : Bool := m.s.usr.busy = false ∧ m.mode ≠ .download ∧ m.mode ≠ .moveInput

def Main.settle (m : Main V) : Main V := if m.isOver then { m with began := none } else m

/-- What happens to the program.  `new` is what `tcp_new` returns if the event comes to open a data connection. -/
inductive Event where
  /-- `lwftp_connect` -/
  | connect (new : Option ℕ) (conn : Bool)
  /-- a report of the stack -/
  | tcp (e : Tcp) (new : Option ℕ)
  /-- the loop that waits for the login ends -/
  | started
  /-- an iteration of the main loop with these keys down -/
  | keys (down : Key → Bool) (new : Option ℕ)
  /-- `menu_StringInput` returns with this string in `input` -/
  | input (str : Bytes)
  /-- the loop of an upload or of a download ends, `clear` if by the key Clear -/
  | leave (clear : Bool)
  /-- the main loop ends by the key Clear -/
  | quit

def setNew (new : Option ℕ) (s : Prog V) : Prog V := onApp (fun a => { a with tcpNew := new }) s

def pressKeys (F : Fileioc V) (api : Api → Prog V → Prog V) (down : Key → Bool) (m : Main V) : Main V :=
  let s := onApp (moveCursor down) m.s
  match chooseOp down s.usr with
  | none => { m with s }
  | some op =>
    { s := (runOp F api s op).1, mode := (runOp F api s op).2
      began := some ⟨op, s.usr.path, s.usr.dir, s.trace.length⟩ }

def leaveLoop (m : Main V) : Option (Main V) :=
  match m.mode with
  | .upload => some { m with mode := .main }
  | .download => some { m with s := utilDownloadEnd m.s, mode := .main }
  | _ => none

def react (F : Fileioc V) (n : ℕ) (m : Main V) : Event → Option (Main V)
  | .connect new conn =>
    if m.mode = .setup then
      let (s, r) := lwftpConnect (appCaller F n) new conn (m.s.note (.api (.connect new conn) m.s.controlState))
      some { m with s, mode := if r = .inprogress then .connecting else .stopped }
    else none
  | .tcp e new =>
    if m.mode.network ∧ e.enabled m.s then some { m with s := e.handle (appCaller F n) (setNew new m.s) } else none
  | .started =>
    if m.mode = .connecting then
      if m.s.usr.ftpStarted then some { m with mode := .main }
      else if m.s.usr.ftpResult ≠ .inprogress then some { m with mode := .stopped }
      else none
    else none
  | .keys down new =>
    if m.mode = .main then some (pressKeys F (callApi (appCaller F n)) down { m with s := setNew new m.s }) else none
  | .input str =>
    if m.mode = .moveInput ∧ 0 ∉ str ∧ str.length < 32 then
      some { m with s := utilMoveEnd (callApi (appCaller F n)) str m.s, mode := .main }
    else none
  | .leave clear => if m.s.usr.busy = false ∨ clear then leaveLoop m else none
  | .quit => if m.mode = .main then some { m with s := callApi (appCaller F n) .close m.s, mode := .closing } else none

def stepMain (F : Fileioc V) (n : ℕ) (m : Main V) (e : Event) : Option (Main V) :=
  if m.s.fault = false ∧ m.s.usr.fault = false then react F n m.settle e else none

def mainUser : User Ptr :=
  { user := some .user, pass := some .pass, remotePath := some .appPath, doneFn := some .ftpConnectCallback }

def boot (F : Fileioc V) (vars : V) (userName password : Bytes) : Main V :=
  { s := initial mainUser (utilGetLocalFiles F { vars, userName, password }) }

end LwftpCe.App
