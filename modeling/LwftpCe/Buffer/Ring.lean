import LwftpCe.Buffer.Pressure

/-!
# Memory buffers: rings

`mem_buffer_resize` and the functions of a ring, in the order of `drivers/mem.c`.  `data` and `out` are never `NULL` here;
their length is the argument `len`.
-/

namespace LwftpCe.Buffer

open Lib

variable {σ : Type} (E : Env σ)

/-! ### Resizing -/

def resized (i newCap shrink : ℕ) (b : Block) (s : Sys σ) : Sys σ :=
  let s := s.onBuf i fun rb => { rb with
    buf := b, cap := newCap, u₁ := 0, shrinkHits := 0, shrinkStage := 0, shrinkHoldNext := rb.shrinkHoldBase }
  if shrink > 0 then s.onCfg (memBufferRelease shrink) else s

def giveBack (grow : ℕ) (s : Sys σ) : Sys σ := if grow > 0 then s.onCfg (memBufferRelease grow) else s

def copyRing (rb : MemBuffer) (b : Block) : Block :=
  if rb.len > 0 then
    let first := min (usub rb.cap rb.head) rb.len
    { b with bytes := (b.bytes.write 0 (rb.buf.bytes.read rb.head first)).write first (rb.buf.bytes.read 0 (rb.len - first)) }
  else b

def cleared (rb : MemBuffer) : Block :=
  if rb.flags.secureMode then { rb.buf with bytes := rb.buf.bytes.fill 0 rb.cap 0 } else rb.buf

def resizeInPlace (i newCap grow shrink : ℕ) (s : Sys σ) : Bool × Sys σ :=
  let s := if (s.buf i).flags.secureMode ∧ shrink > 0 then s.onBuf i (·.onBytes (·.fill newCap shrink 0)) else s
  match realloc (s.buf i).buf newCap s with
  | (none, s) => (false, giveBack grow (memBufferNotifyLowmem E i .critical s))
  | (some b, s) => (true, resized i newCap shrink b s)

def resizeByCopy (i newCap grow shrink : ℕ) (s : Sys σ) : Bool × Sys σ :=
  let rb := s.buf i
  match malloc newCap s with
  | (none, s) => (false, giveBack grow s)
  | (some b, s) => (true, resized i newCap shrink (copyRing rb b) (free (cleared rb) s))

def memBufferResize (i newCap : ℕ) (s : Sys σ) : Bool × Sys σ :=
  let rb := s.buf i
  if newCap < rb.len ∨ newCap = rb.cap then (newCap = rb.cap, s)
  else if rb.flags.lockSize then (false, s)
  else if rb.maxCap ≠ sizeMax ∧ newCap > rb.maxCap then (false, s)
  else
    let grow := newCap - rb.cap
    let shrink := rb.cap - newCap
    match if grow > 0 then memBufferCharge grow s.cfg else some s.cfg with
    | none => (false, s)
    | some cfg =>
      let s := { s with cfg }
      if cfg.hasRealloc ∧ rb.head = 0 ∧ rb.len ≤ rb.cap then resizeInPlace E i newCap grow shrink s
      else resizeByCopy i newCap grow shrink s

/-! ### Growing and shrinking -/

def growTarget (rb : MemBuffer) (needed : ℕ) : ℕ :=
  let target := alignStep (max rb.cap needed) rb.step
  let target := if target ≤ rb.cap then uadd rb.cap rb.step else target
  max target needed

def reportUsage (i needed : ℕ) (s : Sys σ) : Sys σ :=
  let rb := s.buf i
  let level := memPressureLevelFromUsage (memBufferUsagePct s.cfg rb needed)
  if level ≠ .none ∧ level ≠ rb.lastPressureLevel then memBufferNotifyLowmem E i level s else s

def growTo (i needed target : ℕ) (s : Sys σ) : Bool × Sys σ :=
  let rb := s.buf i
  let limited := rb.maxCap ≠ sizeMax ∧ target > rb.maxCap
  if limited ∧ rb.maxCap < needed then (false, memBufferNotifyLowmem E i .critical s)
  else
    match memBufferResize E i (if limited then rb.maxCap else target) s with
    | (true, s) => (true, s)
    | (false, s) => (false, memBufferNotifyLowmem E i .critical s)

def memBufferMaybeGrow (i incomingLen : ℕ) (s : Sys σ) : Bool × Sys σ :=
  let rb := s.buf i
  let needed := uadd rb.len incomingLen
  let s := reportUsage E i needed s
  if rb.flags.lockSize then
    if needed > rb.cap then (false, memBufferNotifyLowmem E i .critical s) else (true, s)
  else if needed ≤ rb.cap ∧ needed < thresholdBytes rb.cap rb.growThresholdPct then (true, s)
  else growTo E i needed (growTarget rb needed) s

def nextStage (rb : MemBuffer) : MemBuffer :=
  let stage := if rb.shrinkHoldBase ≠ 0 then rb.shrinkStage + 1 else rb.shrinkStage
  { rb with shrinkHits := 0, shrinkStage := stage, shrinkHoldNext := memBufferHoldForStage rb.shrinkHoldBase stage }

def restartShrink (rb : MemBuffer) : MemBuffer :=
  { rb with shrinkHits := 0, shrinkStage := 0, shrinkHoldNext := rb.shrinkHoldBase }

def memBufferMaybeShrink (i : ℕ) (wrapped : Bool) (s : Sys σ) : Sys σ :=
  let rb := s.buf i
  if rb.flags.lockSize then s
  else if rb.step = 0 ∨ rb.cap ≤ rb.step then s
  else if wrapped = false ∨ rb.head ≠ 0 then s
  else if rb.len > thresholdBytes rb.cap rb.shrinkThresholdPct then s.onBuf i restartShrink
  else if rb.shrinkHoldCount = 0 then s
  else
    let s := s.onBuf i fun rb => { rb with shrinkHits := rb.shrinkHits + 1 }
    if (s.buf i).shrinkHits < rb.shrinkHoldNext then s
    else (memBufferResize E i (max (rb.cap - rb.step) rb.len) s).2.onBuf i nextStage

/-! ### The ring -/

def memBufferSpace (rb : MemBuffer) : ℕ := rb.cap - rb.len

def memBufferPeek (rb : MemBuffer) (offset len : ℕ) : Option Bytes :=
  if len = 0 ∨ uadd offset len > rb.len then none
  else
    let pos := uadd rb.head offset % rb.cap
    some (Ring.get rb.buf.bytes (usub rb.cap pos) pos len)

def memBufferReserve (i len : ℕ) (s : Sys σ) : Bool × Sys σ :=
  if len = 0 ∨ (s.buf i).flags.mallocType then (false, s) else memBufferMaybeGrow E i len s

def pushBytes (data : Bytes) (rb : MemBuffer) : MemBuffer :=
  let tail := uadd rb.head rb.len % rb.cap
  rb.setRing (Ring.put · (usub rb.cap tail) tail data) rb.head (uadd rb.len data.length)

def memBufferPush (i : ℕ) (data : Bytes) (s : Sys σ) : Bool × Sys σ :=
  if data = [] ∨ (s.buf i).flags.mallocType then (false, s)
  else
    match memBufferMaybeGrow E i data.length s with
    | (false, s) => (false, s)
    | (true, s) => (true, s.onBuf i (pushBytes data))

def popBytes (len : ℕ) (rb : MemBuffer) : MemBuffer :=
  let wipe := fun m : Mem => if rb.flags.secureMode then Ring.wipe m (usub rb.cap rb.head) rb.head len else m
  rb.setRing wipe (uadd rb.head len % rb.cap) (rb.len - len)

def memBufferPop (i len : ℕ) (s : Sys σ) : Bytes × Sys σ :=
  let rb := s.buf i
  if len = 0 ∨ len > rb.len ∨ rb.flags.mallocType then ([], s)
  else
    let out := Ring.get rb.buf.bytes (usub rb.cap rb.head) rb.head len
    let wrapped : Bool := uadd rb.head len ≥ rb.cap
    (out, memPressureMaybeClear E i (memBufferMaybeShrink E i wrapped (s.onBuf i (popBytes len))))

/-! ### Settings -/

def memBufferSetOwner (owner : Owner) (rb : MemBuffer) : MemBuffer := { rb with owner }

def memBufferSetGrow (thresholdPct step : ℕ) (rb : MemBuffer) : MemBuffer :=
  if thresholdPct > 100 then rb else { rb with growThresholdPct := thresholdPct, step }

def memBufferSetShrink (thresholdPct step : ℕ) (rb : MemBuffer) : MemBuffer :=
  if thresholdPct > 100 then rb
  else
    { rb with
      shrinkThresholdPct := thresholdPct, step, shrinkHoldCount := 1, shrinkHoldBase := 1, shrinkHoldNext := 1
      shrinkStage := 0, shrinkHits := 0 }

def memBufferSetMaxSize (maxCap : ℕ) (rb : MemBuffer) : MemBuffer :=
  if maxCap = sizeMax then { rb with maxCap := sizeMax }
  else if maxCap < rb.cap then { rb with maxCap := rb.cap }
  else { rb with maxCap }

end LwftpCe.Buffer
