import LwftpCe.Lib.CString

/-!
# The handshake context

`struct tls_handshake_context` of `handshake.h`.  The running hash of the transcript is represented by the bytes that were
fed to it.
-/

namespace LwftpCe.Tls

open Lib List

abbrev Arr (n : ℕ) := { b : Bytes // b.length = n }

namespace Arr

def zero (n : ℕ) : Arr n := ⟨List.replicate n 0, List.length_replicate⟩

def ofBytes (n : ℕ) (b : Bytes) : Arr n := ⟨b.take n ++ List.replicate (n - b.length) 0, by simp; omega⟩

lemma val_ofBytes {n : ℕ} {b : Bytes} (h : b.length = n) : (ofBytes n b).val = b := by
  simp [ofBytes, h, take_of_length_le]

lemma ofBytes_val {n : ℕ} (a : Arr n) : ofBytes n a.val = a := Subtype.ext (val_ofBytes a.property)

end Arr

structure PskIdentity where
  identity : Arr 32
  identityLen : ℕ
  obfuscatedTicketAge : ℕ
deriving DecidableEq

structure TrafficKeys where
  handshakeSecret : Arr 32
  clientHandshakeTrafficSecret : Arr 32
  serverHandshakeTrafficSecret : Arr 32
  clientApplicationTrafficSecret : Arr 32
  serverApplicationTrafficSecret : Arr 32
  clientHandshakeKey : Arr 16
  clientHandshakeIv : Arr 12
  serverHandshakeKey : Arr 16
  serverHandshakeIv : Arr 12
  clientApplicationKey : Arr 16
  clientApplicationIv : Arr 12
  serverApplicationKey : Arr 16
  serverApplicationIv : Arr 12
deriving DecidableEq

def TrafficKeys.zero : TrafficKeys :=
  ⟨.zero 32, .zero 32, .zero 32, .zero 32, .zero 32, .zero 16, .zero 12, .zero 16, .zero 12, .zero 16, .zero 12, .zero 16,
    .zero 12⟩

inductive HsState
  | init
  | clientHelloSent
  | serverHelloReceived
  | handshakeComplete
  | error
deriving DecidableEq

/-- `struct tls_handshake_context`. -/
structure HsCtx where
  psk : Arr 32
  pskIdentity : PskIdentity
  clientRandom : Arr 32
  serverRandom : Arr 32
  cipherSuite : ℕ
  /-- the bytes fed to `transcript_hash`; `none` where the pointer is `NULL` -/
  transcript : Option Bytes
  keys : TrafficKeys
  /-- a 64-bit number, as the next one -/
  clientSeqNum : ℕ
  serverSeqNum : ℕ
  state : HsState
deriving DecidableEq

def HsCtx.zero : HsCtx := ⟨.zero 32, ⟨.zero 32, 0, 0⟩, .zero 32, .zero 32, 0, none, .zero, 0, 0, .init⟩

def tlsHandshakeInit (psk : Arr 32) (pskIdentity : PskIdentity) (clientRandom : Arr 32) : HsCtx :=
  { HsCtx.zero with
    psk := psk
    pskIdentity := pskIdentity
    cipherSuite := 0x1301
    state := .init
    clientSeqNum := 0
    serverSeqNum := 0
    clientRandom := clientRandom
    transcript := some [] }

end LwftpCe.Tls
