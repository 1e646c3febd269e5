import LwftpCe.Buffer.Ring

/-!
# Memory buffers: creation

`mem_init`, `mem_buffer_create` and `mem_buffer_destroy`.  The sizes are `size_t`, so below `2 ^ 24`.
-/

namespace LwftpCe.Buffer

open Lib

variable {σ : Type} (E : Env σ)

def memInit (maxHeap : ℕ) (hasRealloc : Bool) (s : Sys σ) : Sys σ :=
  { s with cfg := { maxHeap, hasRealloc, shrinkHoldCount := 1, ready := true } }

/-- The buffer as `mem_buffer_create` fills it in.  `lock_size` is the third word of the union, and is cleared with it. -/
def newBuffer (cfg : Config) (initialCap maxCap lockSize : ℕ) (flags : Flags) (self b : Block) : MemBuffer :=
  let cap := if flags.lockSize ∧ lockSize > 0 then lockSize else initialCap
  { self, buf := b, cap, flags
    maxCap := if maxCap ≠ sizeMax ∧ maxCap < cap then cap else maxCap
    step := cfg.step, growThresholdPct := cfg.growThresholdPct, shrinkThresholdPct := cfg.shrinkThresholdPct
    shrinkHoldCount := cfg.shrinkHoldCount, shrinkHoldBase := cfg.shrinkHoldCount, shrinkHoldNext := cfg.shrinkHoldCount }

def memBufferDestroy (i : ℕ) (s : Sys σ) : Sys σ :=
  let rb := s.buf i
  let s := (free (cleared rb) s).onCfg (memBufferRelease rb.cap)
  let s :=
    match rb.poolBitmap with
    | none => s
    | some b =>
      let b := if rb.flags.secureMode then { b with bytes := b.bytes.fill 0 rb.poolBitmapBytes 0 } else b
      (free b s).onCfg (memBufferRelease rb.poolBitmapBytes)
  let s := (free rb.self s).onCfg (memBufferRelease E.structSize)
  { s with live := s.live.erase i }

def reallocNew (b : Block) (size : ℕ) (s : Sys σ) : Option Block × Sys σ :=
  if s.cfg.hasRealloc then realloc b size s
  else
    match malloc size s with
    | (none, s) => (none, s)
    | (some b', s) => (some b', free b s)

def abandon (initialCap : ℕ) (rb : MemBuffer) (s : Sys σ) : Sys σ :=
  (free rb.self (free rb.buf s)).onCfg (memBufferRelease (uadd E.structSize initialCap))

/-- `BUFFER_LOCK_SIZE` with another size than the initial one; `false` when the buffer has been given up. -/
def lockCap (i initialCap : ℕ) (s : Sys σ) : Bool × Sys σ :=
  let rb := s.buf i
  if rb.flags.lockSize = false ∨ rb.cap = initialCap then (true, s)
  else if initialCap < rb.cap then
    match memBufferCharge (rb.cap - initialCap) s.cfg with
    | none => (false, abandon E initialCap rb s)
    | some cfg =>
      match reallocNew rb.buf rb.cap { s with cfg } with
      | (none, s) => (false, abandon E initialCap rb (s.onCfg (memBufferRelease (rb.cap - initialCap))))
      | (some b, s) => (true, s.onBuf i fun rb => { rb with buf := b })
  else
    match reallocNew rb.buf rb.cap s with
    | (none, s) => (true, s)
    | (some b, s) => (true, (s.onBuf i fun rb => { rb with buf := b }).onCfg (memBufferRelease (initialCap - rb.cap)))

def makePool (i lockSize : ℕ) (s : Sys σ) : Bool × Sys σ :=
  let rb := s.buf i
  let blockSize := if lockSize ≠ 0 then lockSize else rb.step
  if blockSize = 0 ∨ rb.cap < blockSize then (false, memBufferDestroy E i s)
  else
    let bitmapBytes := uadd (rb.cap / blockSize) 7 / 8
    let s := s.onBuf i fun rb => { rb with u₀ := blockSize, u₁ := rb.cap / blockSize, poolBitmapBytes := bitmapBytes }
    match memBufferCharge bitmapBytes s.cfg with
    | none => (false, memBufferDestroy E i s)
    | some cfg =>
      match malloc bitmapBytes { s with cfg } with
      | (none, s) => (false, memBufferDestroy E i (s.onCfg (memBufferRelease bitmapBytes)))
      | (some b, s) =>
        (true, s.onBuf i fun rb => { rb with poolBitmap := some { b with bytes := b.bytes.fill 0 bitmapBytes 0 } })

def finishCreate (i initialCap lockSize : ℕ) (s : Sys σ) : Option ℕ × Sys σ :=
  match lockCap E i initialCap s with
  | (false, s) => (none, s)
  | (true, s) =>
    if (s.buf i).flags.mallocType then
      match makePool E i lockSize s with
      | (false, s) => (none, s)
      | (true, s) => (some i, { s with live := i :: s.live })
    else (some i, { s with live := i :: s.live })

def memBufferCreate (initialCap maxCap lockSize : ℕ) (flags : Flags) (s : Sys σ) : Option ℕ × Sys σ :=
  if s.cfg.ready = false ∨ initialCap = 0 then (none, s)
  else
    let bytes := uadd E.structSize initialCap
    match memBufferCharge bytes s.cfg with
    | none => (none, s)
    | some cfg =>
      match malloc E.structSize { s with cfg } with
      | (none, s) => (none, s.onCfg (memBufferRelease bytes))
      | (some self, s) =>
        match malloc initialCap s with
        | (none, s) => (none, (free self s).onCfg (memBufferRelease bytes))
        | (some b, s) =>
          let rb := newBuffer s.cfg initialCap maxCap lockSize flags self b
          finishCreate E self.id initialCap lockSize (s.onBuf self.id fun _ => rb)

/-! ### A concrete module -/

def plainEnv : Env Unit := ⟨48, fun _ w => w, fun _ w => w⟩
def started (maxHeap : ℕ) (allocs : ℕ → Option Raw) : Sys Unit := memInit maxHeap true { allocs, world := () }

def plenty (n : ℕ) : Option Raw := some ⟨1000 * n, fun _ => 0⟩

end LwftpCe.Buffer
