import LwftpCe.Lib.Memory
import LwftpCe.Lib.Uint
import LwftpCe.Tls.Context

/-!
# Received records

`tls_recv_server_hello`, `tls_recv_certificate` and `tls_process_record` of `handshake.c`.  A message is read from memory,
which goes on behind the record; `reach` is the first offset behind everything that a call has read.

Sizes have 24 bits.  The only sums that can pass 2^24 are the ones with the 24-bit length of a message or of a
certificate list; the others are of 16-bit lengths and of offsets below them, and are written as plain sums.

A loop that may not end runs with a number of iterations that it is given, and there is no result where they do not
suffice.
-/

namespace LwftpCe.Tls

open Lib

def be16At (data : Mem) (a : ℕ) : ℕ := (data a).toNat * 2 ^ 8 + (data (a + 1)).toNat

def be24At (data : Mem) (a : ℕ) : ℕ := (data a).toNat * 2 ^ 16 + (data (a + 1)).toNat * 2 ^ 8 + (data (a + 2)).toNat

/-! ### ServerHello -/

structure RecvCall where
  ok : Bool
  ctx : HsCtx
  reach : ℕ
  steps : ℕ

def RecvCall.error (ctx : HsCtx) (reach steps : ℕ) : RecvCall := ⟨false, { ctx with state := .error }, reach, steps⟩

/-- What the loop over the extensions leaves: the extensions that were found, or none where it returned false. -/
structure ExtScan where
  found : Option (Bool × Bool)
  reach : ℕ
  steps : ℕ

/-- What an iteration of the loop over the extensions leaves. -/
inductive ExtNext
  | stop (found : Option (Bool × Bool)) (reach : ℕ)
  | goOn (offset : ℕ) (foundSupportedVersions foundPsk : Bool) (reach : ℕ)

def extensionHeader (data : Mem) (extEnd offset : ℕ) (foundSupportedVersions foundPsk : Bool) : ExtNext :=
  let extType := be16At data offset
  let extDataLen := be16At data (offset + 2)
  let offset := offset + 4
  if offset + extDataLen > extEnd then .stop none offset
  else if extType = 0x002b then
    if extDataLen ≠ 2 then .stop none offset
    else if data offset ≠ 0x03 then .stop none (offset + 1)
    else if data (offset + 1) ≠ 0x04 then .stop none (offset + 2)
    else .goOn (offset + extDataLen) true foundPsk (offset + 2)
  else if extType = 0x0029 then
    if extDataLen ≠ 2 then .stop none offset
    else if be16At data offset ≠ 0 then .stop none (offset + 2)
    else .goOn (offset + extDataLen) foundSupportedVersions true (offset + 2)
  else .goOn (offset + extDataLen) foundSupportedVersions foundPsk offset

def extensionStep (data : Mem) (extEnd offset : ℕ) (foundSupportedVersions foundPsk : Bool) (reach : ℕ) : ExtNext :=
  if offset < extEnd then
    if offset + 4 > extEnd then .stop none reach
    else extensionHeader data extEnd offset foundSupportedVersions foundPsk
  else .stop (some (foundSupportedVersions, foundPsk)) reach

def extensionsLoop (data : Mem) (extEnd : ℕ) : ℕ → ℕ → Bool → Bool → ℕ → ExtScan
  | 0, _, _, _, reach => ⟨none, reach, 0⟩
  | n + 1, offset, foundSupportedVersions, foundPsk, reach =>
    match extensionStep data extEnd offset foundSupportedVersions foundPsk reach with
    | .stop found reach => ⟨found, reach, 1⟩
    | .goOn offset foundSupportedVersions foundPsk reach =>
      let s := extensionsLoop data extEnd n offset foundSupportedVersions foundPsk reach
      { s with steps := s.steps + 1 }

/-- Step 8 of `tls_recv_server_hello`, and what follows it: the extensions.  `msgEnd` is the end of the message. -/
def recvExtensions (ctx : HsCtx) (data : Mem) (msgEnd offset : ℕ) : RecvCall :=
  if offset + 2 > msgEnd then .error ctx offset 0
  else
    let extLen := be16At data offset
    let offset := offset + 2
    let extEnd := offset + extLen
    if extEnd > msgEnd then .error ctx offset 0
    else
      -- every extension has at least 4 bytes
      let s := extensionsLoop data extEnd (extLen + 1) offset false false offset
      if s.found = some (true, true) then
        ⟨true, { ctx with
          transcript := ctx.transcript.map (· ++ data.read 0 msgEnd)
          state := .serverHelloReceived }, if ctx.transcript.isSome then msgEnd else s.reach, s.steps⟩
      else .error ctx s.reach s.steps

def recvCompression (ctx : HsCtx) (data : Mem) (msgEnd offset : ℕ) : RecvCall :=
  if offset ≥ msgEnd then .error ctx offset 0
  else if data offset ≠ 0x00 then .error ctx (offset + 1) 0
  else recvExtensions ctx data msgEnd (offset + 1)

def recvCipherSuite (ctx : HsCtx) (data : Mem) (msgEnd offset : ℕ) : RecvCall :=
  if offset + 2 > msgEnd then .error ctx 39 0
  else if be16At data offset ≠ ctx.cipherSuite then .error ctx (offset + 2) 0
  else recvCompression ctx data msgEnd (offset + 2)

def recvSessionId (ctx : HsCtx) (data : Mem) (msgEnd : ℕ) : RecvCall :=
  if 38 ≥ msgEnd then .error ctx 38 0
  else
    let sessionIdLen := (data 38).toNat
    if 39 + sessionIdLen > msgEnd then .error ctx 39 0
    else recvCipherSuite ctx data msgEnd (39 + sessionIdLen)

def tlsRecvServerHello (ctx : HsCtx) (data : Mem) (dataLen : ℕ) : RecvCall :=
  if ctx.state ≠ .clientHelloSent then ⟨false, ctx, 0, 0⟩
  else if data 0 ≠ 0x02 then .error ctx 1 0
  else
    let msgLen := be24At data 1
    if uadd 4 msgLen > dataLen then .error ctx 4 0
    else
      let msgEnd := uadd 4 msgLen
      if data 4 ≠ 0x03 then .error ctx 5 0
      else if data 5 ≠ 0x03 then .error ctx 6 0
      else if 6 + 32 > msgEnd then .error ctx 6 0
      else recvSessionId { ctx with serverRandom := .ofBytes 32 (data.read 6 32) } data msgEnd

/-! ### Certificate -/

structure CertCall where
  ok : Bool
  reach : ℕ

def certChainLoop (currentParseLen certChainLen : ℕ) : ℕ → Option Unit
  | 0 => none
  | n + 1 => if currentParseLen < certChainLen then certChainLoop currentParseLen certChainLen n else some ()

def tlsRecvCertificate (fuel : ℕ) (data : Mem) (dataLen : ℕ) : Option CertCall :=
  if dataLen < 4 then some ⟨false, 0⟩
  else if data 0 ≠ 0x0b then some ⟨false, 1⟩
  else
    let msgLen := be24At data 1
    if 4 ≥ dataLen ∧ uadd 4 msgLen > dataLen then some ⟨false, 4⟩
    else
      let contextLen := (data 4).toNat
      let offset := 5 + contextLen
      if offset > dataLen then some ⟨false, 5⟩
      else
        let certChainLen := be24At data offset
        let offset := offset + 3
        if uadd offset certChainLen ≠ dataLen then some ⟨false, offset⟩
        else (certChainLoop 0 certChainLen fuel).map fun _ => ⟨true, offset⟩

/-! ### Records -/

/-- The loop over the messages of a record: where it stands, the iterations of loops so far, and what every call of
`tls_recv_certificate` has read and may read. -/
structure Scan where
  ctx : HsCtx
  offset : ℕ
  steps : ℕ
  certs : List (ℕ × ℕ)

inductive Next
  | goOn (s : Scan)
  | done (ok : Bool) (s : Scan)

def messageStep (fuel : ℕ) (payload : Mem) (recordLen : ℕ) (s : Scan) : Option Next :=
  if s.offset + 4 ≤ recordLen then
    let msgType := payload s.offset
    let msgLen := be24At payload (s.offset + 1)
    let msgEnd := uadd (s.offset + 4) msgLen
    if msgEnd > recordLen then some (.done false { s with steps := s.steps + 1 })
    else if msgType = 0x02 then
      let r := tlsRecvServerHello s.ctx (fun i => payload (s.offset + i)) (usub msgEnd s.offset)
      let s' := { s with ctx := r.ctx, steps := s.steps + 1 + r.steps }
      if r.ok then some (.goOn { s' with offset := msgEnd }) else some (.done false s')
    else if msgType = 0x0b then
      (tlsRecvCertificate fuel (fun i => payload (s.offset + i)) (usub msgEnd s.offset)).map fun r =>
        let s' := { s with steps := s.steps + 1, certs := s.certs ++ [(r.reach, usub msgEnd s.offset)] }
        if r.ok then .goOn { s' with offset := msgEnd } else .done false s'
    else some (.goOn { s with offset := msgEnd, steps := s.steps + 1 })
  else some (.done (s.offset = recordLen) s)

def messageLoop (fuel : ℕ) (payload : Mem) (recordLen : ℕ) : ℕ → Scan → Option (Bool × Scan)
  | 0, _ => none
  | n + 1, s =>
    match messageStep fuel payload recordLen s with
    | none => none
    | some (.done ok s) => some (ok, s)
    | some (.goOn s) => messageLoop fuel payload recordLen n s

def RecordFramed (data : Mem) (dataLen : ℕ) : Prop := 5 ≤ dataLen ∧ dataLen = 5 + be16At data 3 ∧ data 0 = 0x16

instance (data : Mem) (dataLen : ℕ) : Decidable (RecordFramed data dataLen) := by
  unfold RecordFramed
  infer_instance

def tlsProcessRecord (fuel : ℕ) (ctx : HsCtx) (data : Mem) (dataLen : ℕ) : Option (Bool × Scan) :=
  if dataLen < 5 then some (false, ⟨ctx, 0, 0, []⟩)
  else
    let contentType := data 0
    let recordLen := be16At data 3
    if dataLen ≠ 5 + recordLen then some (false, ⟨ctx, 0, 0, []⟩)
    else if contentType = 0x16 then messageLoop fuel (fun i => data (5 + i)) recordLen fuel ⟨ctx, 0, 0, []⟩
    else some (false, ⟨ctx, 0, 0, []⟩)

end LwftpCe.Tls
