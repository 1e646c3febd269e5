import LwftpCe.Buffer.Fifo
import LwftpCe.Buffer.Moves

/-!
# The receive ring of `drivers/usb_ethernet.c`

A frame goes into the ring of its device as a record: its length in two bytes, the high one first, and its bytes.  The
drain timer takes the records out and hands the frames to lwIP.

lwIP is a parameter (`Net`): what `pbuf_alloc`, `pbuf_free` and `netif->input` do to the module of the buffers, and what they
return.  A chain of pbufs is the list of the lengths of its pbufs.
-/

namespace LwftpCe.Eth

open Lib Buffer

variable {σ : Type} (E : Env σ)

/-! ### Into the ring -/

def rxRingInitSize : ℕ := 512
def rxRingMaxSize : ℕ := 2048
def rxRingStepSize : ℕ := 512

def rxRingSettings (rb : MemBuffer) : MemBuffer :=
  memBufferSetShrink 30 rxRingStepSize (memBufferSetGrow 85 rxRingStepSize (memBufferSetOwner .ethRx rb))

def createRxRing (s : Sys σ) : Option ℕ × Sys σ :=
  match memBufferCreate E rxRingInitSize rxRingMaxSize 0 {} s with
  | (none, s) => (none, s)
  | (some i, s) => (some i, s.onBuf i rxRingSettings)

def lenBytes (len : ℕ) : Bytes := [UInt8.ofNat (len / 256), UInt8.ofNat len]

def ethRingPushFrame (ring : Option ℕ) (data : Bytes) (s : Sys σ) : Bool × Sys σ :=
  match ring with
  | none => (false, s)
  | some i =>
    if data = [] then (false, s)
    else
      match memBufferReserve E i (data.length + 2) s with
      | (false, s) => (false, s)
      | (true, s) =>
        match memBufferPush E i (lenBytes data.length) s with
        | (false, s) => (false, s)
        | (true, s) => memBufferPush E i data s

/-! ### Out of the ring -/

structure Net (σ : Type) where
  pbufAlloc : ℕ → Sys σ → Option (List ℕ) × Sys σ
  pbufFree : List ℕ → Sys σ → Sys σ
  /-- `true` for `ERR_OK` -/
  input : Bytes → Sys σ → Bool × Sys σ

def popChain (i : ℕ) : List ℕ → ℕ → Sys σ → (Bytes × ℕ) × Sys σ
  | [], remaining, s => (([], remaining), s)
  | q :: qs, remaining, s =>
    if remaining = 0 then (([], 0), s)
    else
      let chunk := min q remaining
      let (bs, s) := memBufferPop E i chunk s
      let ((rest, remaining), s) := popChain i qs (remaining - chunk) s
      ((bs ++ rest, remaining), s)

def lenOf : Bytes → ℕ
  | hi :: lo :: _ => 256 * hi.toNat + lo.toNat
  | _ => 0

/-- One turn of the loop of `eth_rx_ring_drain`: the frame that has been handed to lwIP, `none` when the loop is left. -/
def drainFrame (net : Net σ) (i : ℕ) (s : Sys σ) : Option Bytes × Sys σ :=
  if (s.buf i).len < 2 then (none, s)
  else
    match memBufferPeek (s.buf i) 0 2 with
    | none => (none, s)
    | some hdr =>
      let len := lenOf hdr
      if (s.buf i).len < len + 2 then (none, s)
      else
        match net.pbufAlloc len s with
        | (none, s) => (none, s)
        | (some chain, s) =>
          let ((frame, remaining), s) := popChain E i chain len (memBufferPop E i 2 s).2
          if remaining ≠ 0 then (none, net.pbufFree chain s)
          else
            match net.input frame s with
            | (true, s) => (some frame, s)
            | (false, s) => (some frame, net.pbufFree chain s)

def ethRxRingDrain (net : Net σ) (i : ℕ) : ℕ → Sys σ → List Bytes × Sys σ
  | 0, s => ([], s)
  | budget + 1, s =>
    match drainFrame E net i s with
    | (none, s) => ([], s)
    | (some frame, s) =>
      let (frames, s) := ethRxRingDrain net i budget s
      (frame :: frames, s)

end LwftpCe.Eth
