import LwftpCe.Buffer.Create
import LwftpCe.Lib.Bitmap

/-!
# Memory buffers: pools

`mem_buffer_malloc` and `mem_buffer_free`, and the allocator of lwIP over several pools, in the order of `drivers/mem.c`.
The entries of `g_lwip_pools` are never `NULL`.
-/

namespace LwftpCe.Buffer

open Lib

variable {σ : Type} (E : Env σ)

structure Ptr where
  pool : ℕ
  addr : ℕ
  deriving DecidableEq, Repr

namespace MemBuffer

def bits (rb : MemBuffer) : Mem :=
  match rb.poolBitmap with
  | none => fun _ => 0
  | some b => b.bytes

def setPool (f g : Mem → Mem) (used : ℕ) (rb : MemBuffer) : MemBuffer :=
  { rb.onBytes f with poolBitmap := rb.poolBitmap.map fun b => { b with bytes := g b.bytes }, u₂ := used }

end MemBuffer

/-! ### One pool -/

def blocksNeeded (rb : MemBuffer) (needed : ℕ) : ℕ := usub (uadd needed rb.poolBlockSize) 1 / rb.poolBlockSize

def takeRun (start blocks : ℕ) (rb : MemBuffer) : MemBuffer :=
  rb.setPool (·.write (umul start rb.poolBlockSize) (le16 blocks)) (Bitmap.setBits · start blocks)
    (uadd rb.poolUsedBlocks blocks)

def memBufferMalloc (i size : ℕ) (s : Sys σ) : Option Ptr × Sys σ :=
  let rb := s.buf i
  if rb.flags.mallocType = false ∨ size = 0 then (none, s)
  else
    let blocks := blocksNeeded rb (uadd size 2)
    if blocks = 0 ∨ blocks > rb.poolBlockCount then (none, s)
    else
      match Bitmap.findRun (Bitmap.test rb.bits) blocks rb.poolBlockCount 0 0 0 with
      | none => (none, s)
      | some start =>
        (some ⟨i, uadd (uadd rb.buf.base (umul start rb.poolBlockSize)) 2⟩, s.onBuf i (takeRun start blocks))

def giveRun (start blocks : ℕ) (rb : MemBuffer) : MemBuffer :=
  let wipe := fun m : Mem =>
    if rb.flags.secureMode then m.fill (start * rb.poolBlockSize) (umul blocks rb.poolBlockSize) 0 else m
  rb.setPool wipe (Bitmap.clearBits · start blocks)
    (if blocks ≤ rb.poolUsedBlocks then rb.poolUsedBlocks - blocks else 0)

def trailingFree (used : ℕ → Bool) : ℕ → ℕ
  | 0 => 0
  | n + 1 => if used n then 0 else trailingFree used n + 1

def poolStep (rb : MemBuffer) : ℕ :=
  let step := umul (max rb.step rb.poolBlockSize / rb.poolBlockSize) rb.poolBlockSize
  if step = 0 then rb.poolBlockSize else step

/-- The second half of `mem_buffer_free`: after enough hits the pool shrinks by a step, if that many bytes are free at its
end. -/
def shrinkPool (i : ℕ) (s : Sys σ) : Sys σ :=
  let rb := s.buf i
  if rb.step = 0 ∨ rb.poolBlockSize = 0 then s
  else if rb.poolUsedBytes > thresholdBytes rb.cap rb.shrinkThresholdPct then s.onBuf i restartShrink
  else
    let free := trailingFree (Bitmap.test rb.bits) rb.poolBlockCount
    if free = 0 ∨ rb.shrinkHoldCount = 0 then s
    else
      let s := s.onBuf i fun rb => { rb with shrinkHits := rb.shrinkHits + 1 }
      let newCap := usub rb.cap (poolStep rb)
      if (s.buf i).shrinkHits < rb.shrinkHoldNext then s
      else if umul free rb.poolBlockSize < poolStep rb ∨ newCap < rb.poolBlockSize then s
      else
        match memBufferResize E i newCap s with
        | (false, s) => s
        | (true, s) => s.onBuf i fun rb => nextStage { rb with u₁ := newCap / rb.poolBlockSize }

def memBufferFree (i ptr : ℕ) (s : Sys σ) : Sys σ :=
  let rb := s.buf i
  if rb.flags.mallocType = false ∨ ptr = 0 then s
  else
    let base := usub ptr 2
    if base < rb.buf.base ∨ base ≥ uadd rb.buf.base rb.cap then s
    else
      let offset := base - rb.buf.base
      if offset % rb.poolBlockSize ≠ 0 then s
      else
        let start := offset / rb.poolBlockSize
        let blocks := rb.buf.bytes.word offset
        if blocks = 0 ∨ uadd start blocks > rb.poolBlockCount then s
        else memPressureMaybeClear E i (shrinkPool E i (s.onBuf i (giveRun start blocks)))

/-! ### The pools of lwIP -/

def memBufferSetLwipHeap (i : ℕ) (s : Sys σ) : Bool × Sys σ :=
  if (s.buf i).flags.mallocType = false then (false, s)
  else (true, { s with lwipHeap := some i }.onBuf i (memBufferSetOwner .lwipPool))

structure PoolCfg where
  blockSize : ℕ
  blockCount : ℕ
  maxCap : ℕ := 0
  flags : Flags := {}
  owner : Owner := .unknown

def settle (size : ℕ → ℕ) (x : ℕ) : List ℕ → ℕ × List ℕ
  | [] => (x, [])
  | y :: ys =>
    if size y < size x then
      let (z, zs) := settle size y ys
      (z, x :: zs)
    else
      let (z, zs) := settle size x ys
      (z, y :: zs)

def memBufferSortPools (size : ℕ → ℕ) : ℕ → List ℕ → List ℕ
  | n + 1, x :: xs =>
    let (y, ys) := settle size x xs
    y :: memBufferSortPools size n ys
  | _, xs => xs

def initPool (s : Sys σ) (c : PoolCfg) : Sys σ :=
  if c.blockSize = 0 ∨ c.blockCount = 0 then s
  else
    let initialCap := umul c.blockSize c.blockCount
    let maxCap := if c.maxCap ≠ 0 then c.maxCap else initialCap
    match memBufferCreate E initialCap maxCap c.blockSize { c.flags with mallocType := true } s with
    | (none, s) => s
    | (some i, s) =>
      let owner := if c.owner = .unknown then .lwipPool else c.owner
      { s.onBuf i (memBufferSetOwner owner) with lwipPools := s.lwipPools ++ [i] }

def memBufferLwipInitPools (cfgs : List PoolCfg) (s : Sys σ) : Bool × Sys σ :=
  if cfgs = [] ∨ s.cfg.ready = false then (false, s)
  else
    let s := (cfgs.take 6).foldl (initPool E) { s with lwipPools := [] }
    if s.lwipPools = [] then (false, s)
    else
      let size := fun i => (s.buf i).poolBlockSize
      (true, { s with lwipPools := memBufferSortPools size (s.lwipPools.length - 1) s.lwipPools })

def poolMaxBytes (rb : MemBuffer) : ℕ := umul rb.poolBlockSize rb.poolBlockCount

/-- The first pass of `mem_buffer_custom_malloc`, over the pools with large enough blocks.  `preferred` is the first of
them; `tried_large` is that there is one. -/
def tryLarge (size needed : ℕ) : List ℕ → Option ℕ → Sys σ → (Option Ptr × Option ℕ) × Sys σ
  | [], preferred, s => ((none, preferred), s)
  | i :: pools, preferred, s =>
    if needed > poolMaxBytes (s.buf i) ∨ (s.buf i).poolBlockSize < needed then tryLarge size needed pools preferred s
    else
      let preferred := preferred.or (some i)
      match memBufferMalloc i size (reportUsage E i (s.buf i).poolUsedBytes s) with
      | (some p, s) => ((some p, preferred), s)
      | (none, s) => tryLarge size needed pools preferred s

def trySmall (size needed : ℕ) : List ℕ → Sys σ → Option Ptr × Sys σ
  | [], s => (none, s)
  | i :: pools, s =>
    if needed > poolMaxBytes (s.buf i) ∨ (s.buf i).poolBlockSize ≥ needed then trySmall size needed pools s
    else
      match memBufferMalloc i size s with
      | (some p, s) => (some p, s)
      | (none, s) => trySmall size needed pools s

def notifyPreferred (preferred : Option ℕ) (s : Sys σ) : Sys σ :=
  match preferred with
  | none => s
  | some i => memBufferNotifyLowmem E i .critical s

def memBufferCustomMalloc (size : ℕ) (s : Sys σ) : Option Ptr × Sys σ :=
  if s.lwipPools = [] then
    match s.lwipHeap with
    | none => (none, s)
    | some i => memBufferMalloc i size s
  else if size > sizeMax - 2 then (none, s)
  else
    let needed := size + 2
    match tryLarge E size needed s.lwipPools none s with
    | ((some p, _), s) => (some p, s)
    | ((none, preferred), s) =>
      let s := notifyPreferred E preferred s
      trySmall size needed s.lwipPools s

def memBufferCustomFree (ptr : ℕ) (s : Sys σ) : Sys σ :=
  if ptr = 0 then s
  else
    let owns := fun i => (s.buf i).buf.base < ptr ∧ ptr < uadd (s.buf i).buf.base (s.buf i).cap
    match s.lwipPools.find? fun i => owns i with
    | some i => memBufferFree E i ptr s
    | none =>
      match s.lwipHeap with
      | none => s
      | some i => memBufferFree E i ptr s

def memBufferCustomCalloc (count size : ℕ) (s : Sys σ) : Option Ptr × Sys σ :=
  if count = 0 ∨ size = 0 then (none, s)
  else if size > sizeMax / count then (none, s)
  else
    let total := umul count size
    match memBufferCustomMalloc E total s with
    | (none, s) => (none, s)
    | (some p, s) => (some p, s.onBuf p.pool fun rb => rb.onBytes (·.fill (p.addr - rb.buf.base) total 0))

end LwftpCe.Buffer
