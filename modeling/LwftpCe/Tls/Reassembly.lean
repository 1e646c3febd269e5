import LwftpCe.Tls.Handshake

/-!
# Reassembly of the records of the handshake

The bytes that TCP passes go through the ring, in which a record may lie in two pieces; the loop takes the complete records off
its beginning (`recordLoop_passed`).
-/

namespace LwftpCe.Tls

open Lib List RxRing

def IsRecord (r : Bytes) : Prop := 5 ≤ r.length ∧ r.length = announced r

/-- The complete records of a stream, in order, and what is left of it. -/
structure Reassembled (stream : Bytes) (records : List Bytes) (rest : Bytes) : Prop where
  stream_eq : stream = records.flatten ++ rest
  complete : ∀ r ∈ records, IsRecord r
  incomplete : Incomplete rest

lemma Reassembled.append {stream rest more rest' : Bytes} {records records' : List Bytes} (h : Reassembled stream records rest)
    (h' : Reassembled (rest ++ more) records' rest') : Reassembled (stream ++ more) (records ++ records') rest' := by
  refine ⟨?_, forall_mem_append.2 ⟨h.complete, h'.complete⟩, h'.incomplete⟩
  rw [h.stream_eq, append_assoc, h'.stream_eq, flatten_append, append_assoc]

namespace Conn

variable {env : Env} {pl : Platform} {s s' : Conn}

/-! ### The loop over the records -/

def passed (env : Env) : ℕ → Conn → List Bytes
  | 0, _ => []
  | n + 1, s =>
    match recordStep env s, firstRecord env.block s.ring with
    | some (.goOn s'), some (record, totalLen) => record.read 0 totalLen :: passed env n s'
    | _, _ => []

/-- The bytes that TCP passes with an event. -/
def Event.bytes : Event → Bytes
  | .recv _ p => p.flatten
  | _ => []

/-- The connection behind the ClientHello `r`. -/
def helloSent (s : Conn) (r : HelloCall) : Conn :=
  let s := s.setCtx r.ctx
  (s.mark (.clientHello (r.out.read 0 r.written))).setCtx { s.ctx with state := .clientHelloSent }

/-- How an event enters `altcp_tls_ce_lower_recv_process`. -/
def Event.enters (pl : Platform) (s : Conn) : Event → Option (Env × Conn)
  | .recv env p =>
    (s.ring.tlsRingWritePbuf p).map fun ring => (env, (s.mark (.segment p.flatten.length)).setRing ring)
  | .connected env clientHello _ =>
    let s := { s with overheadBytesAdjust := 0 }
    some (env, s.helloSent (tlsSendClientHello pl.hash s.ctx clientHello 512))
  | _ => none

/-- A connection, with the bytes that TCP has passed and the records that `tls_process_record` was given. -/
structure Intake where
  conn : Conn
  received : Bytes
  records : List Bytes

def Intake.step (pl : Platform) (t : Intake) (e : Event) : Option Intake :=
  (t.conn.step pl e).bind fun s =>
    if s.alive = false ∨ s.handshakeDone = true then none
    else some ⟨s, t.received ++ e.bytes,
      t.records ++ (e.enters pl t.conn).elim [] fun x => passed x.1 x.2.ring.len x.2⟩

end Conn

end LwftpCe.Tls
