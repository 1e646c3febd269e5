import LwftpCe.Lib.Ring
import LwftpCe.Lib.Uint

/-!
# Memory buffers: the data of `drivers/mem.c`

`Sys σ` is the state of the module: the configuration, the pressure levels, the buffers and the lists of pools.  A
`struct mem_buffer *` is the number of the allocation that made the buffer.

`malloc_fn`, `realloc_fn` and `free_fn` are not part of the sources.  `allocs n` is what the `n`th call of the allocator
returns, `none` for `NULL`: any sequence of outcomes, of addresses and of bytes in fresh memory.  What goes through the
allocator is written down in `heap`, the latest first.

The throttle hooks change the state `σ` of their owner (`Env σ`).  Left out are the low-memory callbacks, which are `NULL`
everywhere, and the drain function of a buffer, which the driver itself calls.
-/

namespace LwftpCe.Buffer

open Lib Function

variable {l : Level}

def sizeMax : ℕ := uintRange - 1

/-! ### Enumerations of `mem.h` -/

inductive Level where
  | none | mild | high | critical
  deriving DecidableEq, Repr

def Level.rank : Level → ℕ
  | .none => 0
  | .mild => 1
  | .high => 2
  | .critical => 3

lemma Level.rank_injective : Function.Injective Level.rank := by
  intro a b h
  cases a <;> cases b <;> first | rfl | cases h

instance : LinearOrder Level := LinearOrder.lift' Level.rank Level.rank_injective

lemma Level.none_le (l : Level) : Level.none ≤ l := Nat.zero_le _

lemma Level.le_critical (l : Level) : l ≤ Level.critical := by
  cases l <;> decide

lemma Level.le_mild : l ≤ .mild ↔ ¬ Level.high ≤ l := by
  cases l <;> decide

lemma Level.none_of_lt_mild (h : l < .mild) : l = .none := by
  cases l with
  | none => rfl
  | mild | high | critical => exact absurd h (by decide)

inductive Owner where
  | unknown | lwipPool | ethRx | ethTx | tlsRx | tlsTx
  deriving DecidableEq, Repr

/-- The bits of `enum mem_buffer_flags`. -/
structure Flags where
  secureMode : Bool := false
  lockSize : Bool := false
  mallocType : Bool := false
  deriving DecidableEq, Repr

/-! ### The state -/

/-- What the allocator returns: an address, and the bytes that happen to be there. -/
structure Raw where
  base : ℕ
  bytes : Mem

/-- A block of memory: the call that has returned it, its address, the size asked for, and its bytes. -/
structure Block where
  id : ℕ
  base : ℕ
  size : ℕ
  bytes : Mem

inductive HeapObs where
  | got (id size : ℕ)
  | gave (b : Block)

/-- `struct mem_buffer_config`, with whether `realloc_fn` is set and whether `mem_init` has been called. -/
structure Config where
  maxHeap : ℕ := 0
  heapUsed : ℕ := 0
  step : ℕ := 0
  growThresholdPct : ℕ := 0
  shrinkThresholdPct : ℕ := 0
  shrinkHoldCount : UInt16 := 0
  hasRealloc : Bool := false
  ready : Bool := false

/-- `struct mem_buffer`.  The first three words of the union are `u₀`, `u₁` and `u₂`: they mean one thing in a ring and
another in a pool. -/
structure MemBuffer where
  /-- the block that the structure is in -/
  self : Block := ⟨0, 0, 0, fun _ => 0⟩
  buf : Block := ⟨0, 0, 0, fun _ => 0⟩
  cap : ℕ := 0
  maxCap : ℕ := 0
  owner : Owner := .unknown
  flags : Flags := {}
  lastPressureLevel : Level := .none
  step : ℕ := 0
  growThresholdPct : ℕ := 0
  shrinkThresholdPct : ℕ := 0
  shrinkHoldCount : UInt16 := 0
  shrinkHoldBase : UInt16 := 0
  shrinkHoldNext : UInt16 := 0
  shrinkStage : UInt8 := 0
  shrinkHits : UInt16 := 0
  u₀ : ℕ := 0
  u₁ : ℕ := 0
  u₂ : ℕ := 0
  poolBitmap : Option Block := none
  poolBitmapBytes : ℕ := 0

namespace MemBuffer

abbrev len (rb : MemBuffer) : ℕ := rb.u₀
abbrev head (rb : MemBuffer) : ℕ := rb.u₁

abbrev poolBlockSize (rb : MemBuffer) : ℕ := rb.u₀
abbrev poolBlockCount (rb : MemBuffer) : ℕ := rb.u₁
abbrev poolUsedBlocks (rb : MemBuffer) : ℕ := rb.u₂

def poolUsedBytes (rb : MemBuffer) : ℕ := umul rb.poolUsedBlocks rb.poolBlockSize

end MemBuffer

/-- The `g_pressure_*` variables, and whether the hooks are set. -/
structure Pressure where
  globalActive : Bool := false
  ethActive : Bool := false
  tlsActive : Bool := false
  globalLevel : Level := .none
  ethLevel : Level := .none
  tlsLevel : Level := .none
  ethEffective : Level := .none
  tlsEffective : Level := .none
  clearPct : ℕ := 50
  ethHook : Bool := false
  tlsHook : Bool := false

structure Sys (σ : Type) where
  cfg : Config := {}
  prs : Pressure := {}
  buf : ℕ → MemBuffer := fun _ => {}
  /-- the buffers that have been created and not destroyed -/
  live : List ℕ := []
  lwipHeap : Option ℕ := none
  lwipPools : List ℕ := []
  allocs : ℕ → Option Raw
  /-- the number of calls of the allocator so far -/
  calls : ℕ := 0
  heap : List HeapObs := []
  world : σ

/-- What the module is built into: `sizeof(struct mem_buffer)`, and the two throttle hooks. -/
structure Env (σ : Type) where
  structSize : ℕ
  ethRxThrottle : Level → σ → σ
  tlsRxThrottle : Level → σ → σ

variable {σ : Type}

namespace Sys

def onBuf (i : ℕ) (f : MemBuffer → MemBuffer) (s : Sys σ) : Sys σ := { s with buf := Function.update s.buf i (f (s.buf i)) }

def onCfg (f : Config → Config) (s : Sys σ) : Sys σ := { s with cfg := f s.cfg }

@[simp] lemma onBuf_self (i : ℕ) (f : MemBuffer → MemBuffer) (s : Sys σ) : (s.onBuf i f).buf i = f (s.buf i) :=
  update_self ..

lemma onBuf_other {i j : ℕ} (h : j ≠ i) (f : MemBuffer → MemBuffer) (s : Sys σ) : (s.onBuf i f).buf j = s.buf j :=
  update_of_ne h ..

@[simp] lemma onCfg_buf (f : Config → Config) (s : Sys σ) : (s.onCfg f).buf = s.buf := rfl

end Sys

def MemBuffer.onBytes (f : Mem → Mem) (rb : MemBuffer) : MemBuffer := { rb with buf := { rb.buf with bytes := f rb.buf.bytes } }

def MemBuffer.setRing (f : Mem → Mem) (head len : ℕ) (rb : MemBuffer) : MemBuffer :=
  { rb.onBytes f with u₁ := head, u₀ := len }

/-! ### The allocator -/

def malloc (size : ℕ) (s : Sys σ) : Option Block × Sys σ :=
  match s.allocs s.calls with
  | none => (none, { s with calls := s.calls + 1 })
  | some r =>
    (some ⟨s.calls, r.base, size, r.bytes⟩, { s with calls := s.calls + 1, heap := .got s.calls size :: s.heap })

def realloc (b : Block) (size : ℕ) (s : Sys σ) : Option Block × Sys σ :=
  match s.allocs s.calls with
  | none => (none, { s with calls := s.calls + 1 })
  | some r =>
    (some ⟨s.calls, r.base, size, fun i => if i < min b.size size then b.bytes i else r.bytes i⟩,
      { s with calls := s.calls + 1, heap := .got s.calls size :: .gave b :: s.heap })

def free (b : Block) (s : Sys σ) : Sys σ := { s with heap := .gave b :: s.heap }

/-! ### The budget -/

def memBufferCharge (bytes : ℕ) (cfg : Config) : Option Config :=
  if cfg.maxHeap = 0 then some cfg
  else if uadd cfg.heapUsed bytes > cfg.maxHeap then none
  else some { cfg with heapUsed := uadd cfg.heapUsed bytes }

def memBufferRelease (bytes : ℕ) (cfg : Config) : Config :=
  { cfg with heapUsed := if bytes ≤ cfg.heapUsed then cfg.heapUsed - bytes else 0 }

/-! ### Arithmetic -/

def thresholdBytes (cap pct : ℕ) : ℕ := umul cap pct / 100

def alignStep (value step : ℕ) : ℕ :=
  if step = 0 then value
  else if value % step = 0 then value
  else uadd value (step - value % step)

def memBufferHoldForStage (base : UInt16) (stage : UInt8) : UInt16 :=
  if base = 0 then 0 else if 15 ≤ stage then base <<< 15 else base <<< stage.toUInt16

end LwftpCe.Buffer
