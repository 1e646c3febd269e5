import LwftpCe.Lib.Memory
import LwftpCe.Lib.Uint

/-!
# NCM transfer blocks

The part of `drivers/usb_ethernet.c` for the network control model: how `ncm_receive_callback` goes through a block and how
`ncm_bulk_transmit` fills one in.

A block begins with a header (NTH), which points to the first of a chain of tables (NDP).  A table lists datagrams, each by
its place in the block and its length, up to a null entry.  What the loops of `ncm_receive_callback` do with a datagram is a
parameter (`push`).  The offsets that they read are written down, the latest first.
-/

namespace LwftpCe.Eth

open Lib

/-! ### The layout -/

def ethernetMtu : ℕ := 1518

def ncmNthSig : ℕ := 0x484D434E
def ncmNdpSig0 : ℕ := 0x304D434E

def ncmNthLen : ℕ := 12
def ncmNdpLen : ℕ := 12
def ncmHbufSize : ℕ := 64

/-- An entry of a table: the offset of the table, and the number of the entry. -/
structure Place where
  ndp : ℕ
  dgNum : ℕ
  deriving DecidableEq, Repr

def Place.entry (p : Place) : ℕ := p.ndp + 8 + 4 * p.dgNum

def Place.next (p : Place) : Place := { p with dgNum := (p.dgNum + 1) % 65536 }

def datagramIndex (ntb : Mem) (p : Place) : ℕ := ntb.word p.entry
def datagramLen (ntb : Mem) (p : Place) : ℕ := ntb.word (p.entry + 2)

def datagram (ntb : Mem) (p : Place) : Bytes := ntb.read (datagramIndex ntb p) (datagramLen ntb p)

def nextNdpIndex (ntb : Mem) (ndp : ℕ) : ℕ := ntb.word (ndp + 6)

/-! ### Receiving -/

abbrev Access := ℕ × ℕ

/-- Where the loops are: at an entry, behind the last table, or at a table without its signature. -/
inductive Found where
  | entry (p : Place)
  | done
  | invalid

def enterNdp (ntb : Mem) (ndp : ℕ) : List Access × Found :=
  ([(ndp, 4)], if ntb.dword ndp = ncmNdpSig0 then .entry ⟨ndp, 0⟩ else .invalid)

def leaveNdp (ntb : Mem) (ndp : ℕ) : List Access × Found :=
  if nextNdpIndex ntb ndp = 0 then ([(ndp + 6, 2)], .done)
  else
    let (reads, found) := enterNdp ntb (nextNdpIndex ntb ndp)
    (reads ++ [(ndp + 6, 2)], found)

/-- From an entry whose datagram has been pushed to the next one, or out of the table when that is null. -/
def advance (ntb : Mem) (p : Place) : List Access × Found :=
  let q := p.next
  if datagramIndex ntb q = 0 then
    let (reads, found) := leaveNdp ntb p.ndp
    (reads ++ [(q.entry, 2)], found)
  else if datagramLen ntb q = 0 then
    let (reads, found) := leaveNdp ntb p.ndp
    (reads ++ [(q.entry + 2, 2), (q.entry, 2)], found)
  else ([(q.entry + 2, 2), (q.entry, 2)], .entry q)

/-- What has come of a block: the loops are still running, they have returned at a signature, or they have been left at
their end. -/
inductive Parsed where
  | running
  | invalid
  | parsed
  deriving DecidableEq, Repr

section Receive

variable {τ : Type} (push : Bytes → τ → Bool × τ) (ntb : Mem)

/-- The two loops of `ncm_receive_callback`, from an entry on, for at most `fuel` datagrams.  When a datagram is refused,
`wNextNdpIndex` is read once more, and the loops are left. -/
def ncmLoop : ℕ → Place → List Access → τ → (Parsed × List Access) × τ
  | 0, _, log, s => ((.running, log), s)
  | fuel + 1, p, log, s =>
    match push (datagram ntb p) s with
    | (false, s) => ((.parsed, (p.ndp + 6, 2) :: (p.entry, 4) :: log), s)
    | (true, s) =>
      let (reads, found) := advance ntb p
      let log := reads ++ (datagramIndex ntb p, datagramLen ntb p) :: (p.entry, 4) :: log
      match found with
      | .done => ((.parsed, log), s)
      | .invalid => ((.invalid, log), s)
      | .entry q => ncmLoop fuel q log s

def ncmParse (fuel : ℕ) (s : τ) : (Parsed × List Access) × τ :=
  if ntb.dword 0 ≠ ncmNthSig then ((.invalid, [(0, 4)]), s)
  else
    let (reads, found) := enterNdp ntb (ntb.word 10)
    let log := reads ++ [(10, 2), (0, 4)]
    match found with
    | .entry p => ncmLoop push ntb fuel p log s
    | _ => ((.invalid, log), s)

end Receive

/-! ### Transmitting -/

/-- `struct _ntb_params`: the alignment that the code goes by, and the one that the device asks for. -/
structure NtbParams where
  wNdpInAlignment : UInt16 := 0
  wNdpOutAlignment : UInt16 := 0

structure Ncm where
  sequence : UInt16 := 0
  ntbParams : NtbParams := {}

def getNextOffset (offset divisor remainder : ℕ) : Option ℕ :=
  if divisor = 0 then none else some (uadd (usub (uadd offset divisor) (offset % divisor)) remainder)

def nthBytes (sequence blockLength ndpIndex : ℕ) : Bytes :=
  le32 ncmNthSig ++ (le16 ncmNthLen ++ (le16 sequence ++ (le16 blockLength ++ le16 ndpIndex)))
def ndpBytes (len : ℕ) : Bytes :=
  le32 ncmNdpSig0 ++ (le16 (ncmNdpLen + 4) ++ (le16 0 ++ (le16 ncmHbufSize ++ (le16 len ++ (le16 0 ++ le16 0)))))

/-- What `ncm_bulk_transmit` comes to: a division by zero, `ERR_MEM`, or a block that is sent. -/
inductive Transmit where
  | undefined
  | errMem
  | sent (block : Bytes)

def ncmBulkTransmit (alloc : Bool) (frame : Bytes) (ncm : Ncm) : Transmit × Ncm :=
  match getNextOffset ncmNthLen ncm.ntbParams.wNdpInAlignment.toNat 0 with
  | none => (.undefined, ncm)
  | some offset =>
    let offsetNdp := offset % 65536
    if frame.length > ethernetMtu then (.errMem, ncm)
    else if alloc = false then (.errMem, ncm)
    else
      let hdrBuf : Mem := fun _ => 0
      let hdrBuf := hdrBuf.write 0 (nthBytes ncm.sequence.toNat (ncmHbufSize + frame.length) offsetNdp)
      let hdrBuf := hdrBuf.write offsetNdp (ndpBytes frame.length)
      (.sent (hdrBuf.read 0 ncmHbufSize ++ frame), { ncm with sequence := ncm.sequence + 1 })

end LwftpCe.Eth
