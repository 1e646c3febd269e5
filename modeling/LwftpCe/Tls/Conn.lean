import LwftpCe.Buffer.Defs
import LwftpCe.Tls.ClientHello
import LwftpCe.Tls.Process
import LwftpCe.Tls.Record
import LwftpCe.Tls.RxRing
import LwftpCe.Tls.Schedule

/-!
# Connections

`altcp_tls_ce.c`: a TLS connection between the application and the connection of TCP below it.  What TCP, the application and the
allocator answer are arguments of the calls.

* A chain of pbufs is the list of the bytes of its pbufs, and `NULL` is the empty list.
* A callback of the application may call `altcp_recved`, `altcp_write` and, through the allocator, the hook for the memory
  pressure (`Act`).
* After `altcp_abort` the connection has been freed (`alive`).
* `trail` has what happened, the latest first.

The counters of bytes are plain numbers: TCP does not accept more than a window of 16 bits of bytes that have not been
returned to it.
-/

namespace LwftpCe.Tls

open Lib Buffer

inductive Err
  | ok | mem | val | abrt | conn
deriving DecidableEq

/-- What the connection rests on: the primitives, the hash, and `PBUF_POOL_BUFSIZE`. -/
structure Platform where
  prims : Prims
  hash : Hash
  poolBufsize : ℕ

inductive Mark
  /-- TCP passes a chain with so many bytes -/
  | segment (n : ℕ)
  /-- `altcp_recved` on the connection of TCP -/
  | credit (n : ℕ)
  /-- a record is removed from the ring -/
  | discard (n : ℕ)
  /-- `altcp_write` takes the ClientHello -/
  | clientHello (m : Bytes)
  /-- `tls_process_record` accepts a message -/
  | accepted (m : Bytes)
  /-- `tls_recv_finished` accepts this verify data, under this `server_handshake_traffic_secret`; nothing calls it -/
  | verified (secret : Arr 32) (data : Bytes)
  /-- `altcp_write` takes the Finished of the client -/
  | clientFinished (m : Bytes)
  /-- the application secrets are derived from the hash of this transcript -/
  | secrets (transcript : Option Bytes)
  /-- `ALTCP_TLS_CE_FLAGS_HANDSHAKE_DONE` is set -/
  | done
  /-- `conn->connected(ERR_OK)` -/
  | connected
  /-- `altcp_write` takes the record of some application data -/
  | wrote (record : Bytes)
  /-- `conn->recv` takes some application data -/
  | delivered (data : Bytes)
  /-- `conn->sent` -/
  | sent (n : ℕ)
deriving DecidableEq

/-- `altcp_tls_ce_state_t`, with the level of `altcp_tls_ce_set_rx_throttle`. -/
structure Conn where
  isServer : Bool
  ctx : HsCtx
  /-- the flags, as the next three -/
  handshakeDone : Bool
  upperCalled : Bool
  rxCloseQueued : Bool
  rxClosed : Bool
  ring : RxRing
  rx : List Bytes
  /-- the bytes of the chain -/
  rxApp : Bytes
  rxPassedUnrecved : ℕ
  bioBytesRead : ℕ
  bioBytesAppl : ℕ
  /-- an int of 24 bits, as an unsigned number -/
  overheadBytesAdjust : ℕ
  rxThrottlePending : ℕ
  rxMildToggle : Bool
  throttleLevel : Level
  alive : Bool
  trail : List Mark

namespace Conn

def setup (isServer : Bool) (ctx : HsCtx) (mem : Mem) (size : ℕ) (h : 0 < size) (level : Level) : Conn where
  isServer := isServer
  ctx := ctx
  handshakeDone := false
  upperCalled := false
  rxCloseQueued := false
  rxClosed := false
  ring := .empty mem size h
  rx := []
  rxApp := []
  rxPassedUnrecved := 0
  bioBytesRead := 0
  bioBytesAppl := 0
  overheadBytesAdjust := 0
  rxThrottlePending := 0
  rxMildToggle := false
  throttleLevel := level
  alive := true
  trail := []

def mark (s : Conn) (m : Mark) : Conn := { s with trail := m :: s.trail }

def setCtx (s : Conn) (ctx : HsCtx) : Conn := { s with ctx := ctx }

def setRing (s : Conn) (ring : RxRing) : Conn := { s with ring := ring }

def abort (s : Conn) : Err × Conn := (.abrt, { s with alive := false })

/-! ### Calls of the application -/

def lowerRecved (s : Conn) (n : ℕ) : Conn := s.mark (.credit n)

def intMax : ℕ := 2 ^ 23 - 1

def setRxThrottle (s : Conn) (level : Level) : Conn :=
  let s := { s with throttleLevel := level }
  if level = .none then { s.lowerRecved s.rxThrottlePending with rxThrottlePending := 0, rxMildToggle := false } else s

def recved (s : Conn) (len : ℕ) : Conn :=
  if s.handshakeDone = false then s
  else
    let lowerRecved := if len > s.rxPassedUnrecved then s.rxPassedUnrecved else len
    let s := { s with rxPassedUnrecved := s.rxPassedUnrecved - lowerRecved }
    if s.throttleLevel = .mild then
      let s := { s with rxMildToggle := !s.rxMildToggle }
      if s.rxMildToggle = false then { s with rxThrottlePending := s.rxThrottlePending + lowerRecved }
      else
        let chunk := if s.rxThrottlePending > intMax then intMax else s.rxThrottlePending
        let s := if s.rxThrottlePending > 0 then
            { s.lowerRecved chunk with rxThrottlePending := s.rxThrottlePending - chunk }
          else s
        s.mark (.credit lowerRecved)
    else if s.throttleLevel ≠ .none then { s with rxThrottlePending := s.rxThrottlePending + lowerRecved }
    else s.mark (.credit lowerRecved)

/-- `altcp_tls_ce_write`, with the buffer for the record as it is found on the stack; `err` is what `altcp_write` returns. -/
def write (P : Prims) (s : Conn) (dataptr : Mem) (len : ℕ) (ciphertext : Mem) (err : Err) : Err × Conn :=
  if s.handshakeDone = false then (.val, s)
  else
    let r := tlsEncryptData P s.ctx dataptr len ciphertext 2048
    let s := s.setCtx r.ctx
    if r.ok = false then (.mem, s)
    else if err = .ok then
      (.ok, { s.mark (.wrote (r.out.read 0 r.written)) with
        overheadBytesAdjust := uadd (usub s.overheadBytesAdjust len) r.written })
    else (err, s)

inductive Act
  | recved (len : ℕ)
  | throttle (level : Level)
  | write (dataptr : Mem) (len : ℕ) (ciphertext : Mem) (err : Err)

def act (P : Prims) (s : Conn) : Act → Conn
  | .recved len => s.recved len
  | .throttle level => s.setRxThrottle level
  | .write dataptr len ciphertext err => (s.write P dataptr len ciphertext err).2

def acts (P : Prims) (s : Conn) (as : List Act) : Conn := as.foldl (act P) s

/-! ### Application data -/

/-- What a callback of the application does: there is none, it returns `ERR_OK`, it returns another error (`ERR_MEM`, say),
or it has aborted the connection. -/
inductive Reply
  | absent
  | ok (as : List Act)
  | refused (as : List Act)
  | aborted

def passRxData (P : Prims) (s : Conn) (reply : Reply) : Err × Conn :=
  if s.rxApp ≠ [] then
    let buf := s.rxApp
    let s := { s with rxApp := [] }
    let passed := { s with rxPassedUnrecved := s.rxPassedUnrecved + buf.length, upperCalled := true }
    match reply with
    | .absent => (.ok, s)
    | .ok as => (.ok, (passed.mark (.delivered buf)).acts P as)
    | .refused as =>
      let s := passed.acts P as
      -- a counter that would be negative is set to 0
      (.mem, { s with rxApp := buf, rxPassedUnrecved := s.rxPassedUnrecved - buf.length })
    | .aborted => passed.abort
  else if s.rxCloseQueued = true ∧ s.rxClosed = false then
    let s := { s with rxClosed := true }
    match reply with
    | .absent => (.ok, s)
    | .ok as => (.ok, s.acts P as)
    | .refused as => (.mem, s.acts P as)
    | .aborted => s.abort
  else (.ok, s)

/-- `pbuf_header(rx, -n)`, which fails for more bytes than the first pbuf has, and the removal of the first pbuf when it is empty.
The pbufs behind it have no other reference, and are freed. -/
def dropHeader (n : ℕ) : List Bytes → List Bytes
  | [] => []
  | q :: p =>
    let q := if n ≤ q.length then q.drop n else q
    if q.length = 0 then [] else q :: p

def nextBlock (pl : Platform) (s : Conn) : Bytes := s.rx.flatten.take (pl.poolBufsize + 16)

def afterBlock (s : Conn) (ctx : HsCtx) (ctLen : ℕ) (plaintext : Bytes) : Conn :=
  let s := { s with
    ctx := ctx
    rx := dropHeader ctLen s.rx
    bioBytesRead := s.bioBytesRead + ctLen
    bioBytesAppl := s.bioBytesAppl + plaintext.length }
  if plaintext.length > 0 then
    { s.lowerRecved (s.bioBytesRead - s.bioBytesAppl) with
      bioBytesRead := 0
      bioBytesAppl := 0
      rxApp := s.rxApp ++ plaintext }
  else s

/-- The loop of `altcp_tls_ce_handle_rx_appldata`: for each buffer that `pbuf_alloc` gives its contents, and what the
callback does with the data. -/
def handleLoop (pl : Platform) : Conn → List (Mem × Reply) → Err × Conn
  | s, [] => (.ok, s)
  | s, (buf, reply) :: rest =>
    if s.rx = [] then (.ok, s)
    else
      let ciphertext := s.nextBlock pl
      let r := tlsDecryptData pl.prims s.ctx (.ofBytes ciphertext) ciphertext.length buf pl.poolBufsize
      if r.ok = false then s.abort
      else
        match passRxData pl.prims (s.afterBlock r.ctx ciphertext.length (r.out.read 0 r.written)) reply with
        | (.ok, s) => handleLoop pl s rest
        | (.abrt, s) => (.abrt, s)
        | (_, s) => (.ok, s)

def handleRxAppldata (pl : Platform) (s : Conn) (bufs : List (Mem × Reply)) : Err × Conn :=
  if s.handshakeDone = false then (.val, s) else handleLoop pl s bufs

/-! ### The handshake -/

/-- What a callback of TCP meets: iterations for the loops of `tls_process_record`, the block of `mem_malloc` for a record in two
pieces, what `altcp_write` returns for the Finished, what the callbacks of the application do, and the buffers for its data. -/
structure Env where
  fuel : ℕ
  heap : Option Mem
  finishedErr : Err
  reply : Reply
  bufs : List (Mem × Reply)

def acceptedMessages (fuel : ℕ) (payload : Mem) (recordLen : ℕ) : ℕ → Scan → List Bytes
  | 0, _ => []
  | n + 1, s =>
    match messageStep fuel payload recordLen s with
    | some (.goOn s') => payload.read s.offset (4 + be24At payload (s.offset + 1)) :: acceptedMessages fuel payload recordLen n s'
    | _ => []

def markAccepted (s : Conn) (ms : List Bytes) : Conn := ms.foldl (fun s m => s.mark (.accepted m)) s

/-- What an iteration of the loop over the records leaves. -/
inductive RecordNext
  | goOn (s : Conn)
  | stop (s : Conn)
  | abort (s : Conn)

def processRecord (env : Env) (s : Conn) (record : Mem) (totalLen : ℕ) : Option RecordNext :=
  (tlsProcessRecord env.fuel s.ctx record totalLen).map fun r =>
    let ms := acceptedMessages env.fuel (fun i => record (5 + i)) (be16At record 3) env.fuel ⟨s.ctx, 0, 0, []⟩
    let s := s.setCtx r.2.ctx
    if r.1 = false then .abort s
    else .goOn (((s.markAccepted ms).setRing (s.ring.tlsRingDiscard totalLen)).mark (.discard totalLen))

def recordStep (env : Env) (s : Conn) : Option RecordNext :=
  if s.ring.len ≥ 5 then
    match s.ring.tlsRingPeek 0 5 with
    | none => some (.abort s)
    | some header =>
      let totalLen := 5 + be16At (.ofBytes header) 3
      if totalLen > s.ring.size then some (.abort s)
      else if s.ring.len < totalLen then some (.stop s)
      else
        match s.ring.tlsRingPtr 0 totalLen, env.heap with
        | none, none => some (.abort s)
        | _, heap => processRecord env s (s.ring.recordMem (heap.getD fun _ => 0) totalLen) totalLen
  else some (.stop s)

def recordLoop (env : Env) : ℕ → Conn → Option RecordNext
  | 0, s => some (.stop s)
  | n + 1, s =>
    match recordStep env s with
    | some (.goOn s) => recordLoop env n s
    | r => r

def establish (pl : Platform) (env : Env) (s : Conn) : Err × Conn :=
  let s := { s.mark .done with handshakeDone := true, ctx := { s.ctx with state := .handshakeComplete } }
  let go := fun s : Conn => if s.rx = [] then (.ok, s) else s.handleRxAppldata pl env.bufs
  match env.reply with
  | .absent => go s
  | .ok as => go ((s.mark .connected).acts pl.prims as)
  | .refused as => (.mem, (s.mark .connected).acts pl.prims as)
  | .aborted => (s.mark .connected).abort

def deriveApplication (pl : Platform) (env : Env) (s : Conn) : Err × Conn :=
  let r := tlsDeriveApplicationKeys pl.hash s.ctx
  let s := (s.mark (.secrets s.ctx.transcript)).setCtx r.2
  if r.1 = false then s.abort else s.establish pl env

def sendFinished (pl : Platform) (env : Env) (s : Conn) : Err × Conn :=
  match tlsSendFinished pl.hash s.ctx true 36 with
  | none => s.abort
  | some (finished, ctx) =>
    if env.finishedErr ≠ .ok then (s.setCtx ctx).abort
    else ((s.setCtx ctx).mark (.clientFinished finished)).deriveApplication pl env

/-- What follows a ServerHello: the keys of the handshake, the Finished of the client, the keys of the application data, and
the callback. -/
def finishHandshake (pl : Platform) (env : Env) (s : Conn) : Err × Conn :=
  let r := tlsDeriveHandshakeKeys pl.hash s.ctx
  if r.1 = false then (s.setCtx r.2).abort else (s.setCtx r.2).sendFinished pl env

def lowerRecvProcess (pl : Platform) (env : Env) (s : Conn) : Option (Err × Conn) :=
  if s.handshakeDone = false then
    if s.isServer then some s.abort
    else
      (recordLoop env s.ring.len s).map fun
        | .abort s => s.abort
        | .goOn s | .stop s =>
          if s.ctx.state = .serverHelloReceived then s.finishHandshake pl env else s.handleRxAppldata pl env.bufs
  else some (s.handleRxAppldata pl env.bufs)

def lowerRecv (pl : Platform) (env : Env) (s : Conn) (p : List Bytes) : Option (Err × Conn) :=
  let s := s.mark (.segment p.flatten.length)
  if s.handshakeDone = false then
    match s.ring.tlsRingWritePbuf p with
    | none => some s.abort
    | some ring => lowerRecvProcess pl env (s.setRing ring)
  else lowerRecvProcess pl env { s with rx := s.rx ++ p }

def lowerRecvClosed (pl : Platform) (env : Env) (s : Conn) : Err × Conn :=
  if s.handshakeDone = true ∧ s.upperCalled = true then
    if s.rx ≠ [] ∨ s.rxApp ≠ [] then
      (.ok, (({ s with rxCloseQueued := true }).handleRxAppldata pl env.bufs).2)
    else
      let s := { s with rxClosed := true }
      match env.reply with
      | .absent => (.ok, s)
      | .ok as => (.ok, s.acts pl.prims as)
      | .refused as => (.mem, s.acts pl.prims as)
      | .aborted => s.abort
  else (.ok, { s with alive := false })

def writeHello (pl : Platform) (env : Env) (s : Conn) (r : HelloCall) (helloErr : Err) : Option (Err × Conn) :=
  let s := s.setCtx r.ctx
  if r.ok = false then some s.abort
  else if helloErr ≠ .ok then some s.abort
  else
    lowerRecvProcess pl env ((s.mark (.clientHello (r.out.read 0 r.written))).setCtx { s.ctx with state := .clientHelloSent })

def lowerConnected (pl : Platform) (env : Env) (s : Conn) (clientHello : Mem) (helloErr : Err) : Option (Err × Conn) :=
  let s := { s with overheadBytesAdjust := 0 }
  if s.isServer = false then s.writeHello pl env (tlsSendClientHello pl.hash s.ctx clientHello 512) helloErr
  else lowerRecvProcess pl env s

def lowerPoll (pl : Platform) (env : Env) (s : Conn) : Err × Conn := s.handleRxAppldata pl env.bufs

def reportSent (s : Conn) (appLen : ℕ) : Conn :=
  if appLen ≠ 0 then { s.mark (.sent appLen) with overheadBytesAdjust := uadd s.overheadBytesAdjust appLen } else s

def lowerSent (s : Conn) (len : ℕ) : Conn :=
  let overhead := if s.overheadBytesAdjust > len then len else s.overheadBytesAdjust
  ({ s with overheadBytesAdjust := usub s.overheadBytesAdjust len }).reportSent (len - overhead)

/-! ### Runs -/

/-- A callback of TCP, or a call of the application between two of them. -/
inductive Event
  | connected (env : Env) (clientHello : Mem) (helloErr : Err)
  | recv (env : Env) (p : List Bytes)
  | closed (env : Env)
  | poll (env : Env)
  | sent (len : ℕ)
  | act (a : Act)

/-- The connection after an event.  There is none on a connection that has been freed, and none behind a loop that does
not end. -/
def step (pl : Platform) (s : Conn) (e : Event) : Option Conn :=
  if s.alive = false then none
  else
    match e with
    | .connected env clientHello helloErr => (s.lowerConnected pl env clientHello helloErr).map Prod.snd
    | .recv env p => (s.lowerRecv pl env p).map Prod.snd
    | .closed env => some (s.lowerRecvClosed pl env).2
    | .poll env => some (s.lowerPoll pl env).2
    | .sent len => some (s.lowerSent len)
    | .act a => some (s.act pl.prims a)

end Conn

end LwftpCe.Tls
