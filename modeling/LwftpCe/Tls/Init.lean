import LwftpCe.Lib.Memory

/-!
# The context of the library

`tls.c`: the scratch buffers of the cryptographic functions, and the state of the truststore.
-/

namespace LwftpCe.Tls

open Lib

inductive StoreStatus
  | uninitialized | ok | notFound | hashInitFail | sizeInvalid | versionMismatch | sigDecryptFail | sigInvalid
  | entryMismatch | timeInvalid
deriving DecidableEq

structure TruststoreState where
  status : StoreStatus
  /-- a 16-bit number, as the next two -/
  size : ℕ
  entryCount : ℕ
  version : ℕ
  /-- a 32-bit number -/
  createdTimestamp : ℕ
deriving DecidableEq

def TruststoreState.blank : TruststoreState := ⟨.uninitialized, 0, 0, 0, 0⟩

/-- `struct tls_context`.  A buffer of `mem_malloc` is its contents; the context is not initialized without them. -/
structure TlsCtx where
  rsaScratch : Option Mem
  eccScratch : Option Mem
  initialized : Bool
  truststore : TruststoreState
  allocated : initialized = true → rsaScratch.isSome = true ∧ eccScratch.isSome = true

namespace TlsCtx

def initial : TlsCtx := ⟨none, none, false, .blank, fun h => nomatch h⟩

def tlsCleanup (_ : TlsCtx) : TlsCtx := initial

def tlsInit (rsa ecc : Option Mem) (ctx : TlsCtx) : Bool × TlsCtx :=
  if ctx.initialized then (true, ctx)
  else
    match rsa, ecc with
    | some r, some e => (true, ⟨some r, some e, true, ctx.truststore, fun _ => ⟨rfl, rfl⟩⟩)
    | _, _ => (false, ctx.tlsCleanup)

def setScratch (ctx : TlsCtx) (m : Mem) : TlsCtx :=
  { ctx with rsaScratch := some m, allocated := fun h => ⟨rfl, (ctx.allocated h).2⟩ }

def setStore (ctx : TlsCtx) (st : TruststoreState) : TlsCtx := { ctx with truststore := st }

variable {ctx : TlsCtx}

lemma tlsInit_initialized {rsa ecc : Option Mem} {ctx' : TlsCtx} (h : ctx.tlsInit rsa ecc = (true, ctx')) :
    ctx'.initialized = true := by
  unfold tlsInit at h
  split_ifs at h with hinit
  · cases h
    exact hinit
  · cases rsa with
    | none => cases h
    | some r =>
      cases ecc with
      | none => cases h
      | some e =>
        cases h
        rfl

lemma exists_scratch (h : ctx.initialized = true) : ∃ m, ctx.rsaScratch = some m :=
  Option.isSome_iff_exists.1 (ctx.allocated h).1

end TlsCtx

end LwftpCe.Tls
