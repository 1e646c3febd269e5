import LwftpCe.Eth.Ncm
import LwftpCe.Eth.Rx

/-!
# NCM blocks: the way through them, and what is sent
-/

namespace LwftpCe.Eth

open Lib Buffer List Mem Nat

variable {τ : Type} {push : Bytes → τ → Bool × τ} {ntb : Mem} {T : ℕ} {p q : Place} {s : τ} {log : List Access} {a : ℕ}

/-! ### The way through a block -/

def Within (T : ℕ) (log : List Access) : Prop := ∀ a ∈ log, 0 < a.2 → a.1 + a.2 ≤ T

instance (T : ℕ) (log : List Access) : Decidable (Within T log) :=
  inferInstanceAs (Decidable (∀ a ∈ log, 0 < a.2 → a.1 + a.2 ≤ T))

lemma within_cons {a : Access} : Within T (a :: log) ↔ (0 < a.2 → a.1 + a.2 ≤ T) ∧ Within T log := forall_mem_cons

lemma within_append {log' : List Access} : Within T (log ++ log') ↔ Within T log ∧ Within T log' := forall_mem_append

def IsNull (ntb : Mem) (p : Place) : Prop := datagramIndex ntb p = 0 ∨ datagramLen ntb p = 0

def acceptAll (data : Bytes) (s : Unit) : Bool × Unit := (decide (data ≠ []), s)

lemma ncmLoop_pushed {t : τ} (h : push (datagram ntb p) s = (true, t)) (fuel : ℕ) (log : List Access) :
    ncmLoop push ntb (fuel + 1) p log s =
      let log := (advance ntb p).1 ++ (datagramIndex ntb p, datagramLen ntb p) :: (p.entry, 4) :: log
      match (advance ntb p).2 with
      | .done => ((.parsed, log), t)
      | .invalid => ((.invalid, log), t)
      | .entry q => ncmLoop push ntb fuel q log t := by
  conv_lhs => unfold ncmLoop
  generalize push (datagram ntb p) s = x at h
  subst h
  rfl

lemma advance_next (hnull : ¬ IsNull ntb p.next) : (advance ntb p).2 = .entry p.next := by
  unfold advance
  rw [if_neg fun hi => hnull (.inl hi), if_neg fun hl => hnull (.inr hl)]

lemma advance_null (hnull : IsNull ntb p.next) :
    (advance ntb p).2 = (leaveNdp ntb p.ndp).2 ∧ ∀ a ∈ (leaveNdp ntb p.ndp).1, a ∈ (advance ntb p).1 := by
  unfold advance
  simp only
  split_ifs with hi hl
  · exact ⟨rfl, fun a ha => mem_append_left _ ha⟩
  · exact ⟨rfl, fun a ha => mem_append_left _ ha⟩
  · exact absurd hnull fun h => h.elim hi hl

lemma leaveNdp_next {ndp : ℕ} (h : nextNdpIndex ntb ndp ≠ 0) :
    leaveNdp ntb ndp = ([(nextNdpIndex ntb ndp, 4), (ndp + 6, 2)], (enterNdp ntb (nextNdpIndex ntb ndp)).2) := by
  unfold leaveNdp
  rw [if_neg h]
  rfl

/-! ### A transmitted block -/

def collect (data : Bytes) (frames : List Bytes) : Bool × List Bytes :=
  if data = [] then (false, frames) else (true, frames ++ [data])

/-- A block in memory with one frame: the table is aligned as the device asks for, the header and the table are in the header
buffer and apart from each other and from the datagram, and the parser finds the frame and nothing else. -/
structure WellFormed (params : NtbParams) (frame block : Bytes) (ntb : Mem) : Prop where
  aligned : params.wNdpOutAlignment.toNat ∣ ntb.word 10
  behind_nth : ncmNthLen ≤ ntb.word 10
  in_header : ntb.word 10 + (ncmNdpLen + 4) ≤ ncmHbufSize
  datagram : datagramIndex ntb ⟨ntb.word 10, 0⟩ = ncmHbufSize
  length : ntb.word 8 = block.length
  frames : ∀ fuel, ∃ log, ncmParse collect ntb (fuel + 1) [] = ((.parsed, log), [frame])

def Sound (params : NtbParams) (frame : Bytes) : Transmit → Prop
  | .undefined => False
  | .errMem => True
  | .sent block => ∀ ntb : Mem, ntb.read 0 block.length = block → WellFormed params frame block ntb

lemma getNextOffset_nth (h0 : 0 < a) (h : a < 65536) :
    ∃ offset, getNextOffset ncmNthLen a 0 = some offset ∧ offset % 65536 = a * (12 / a + 1) ∧ 12 < a * (12 / a + 1) ∧
      (a * (12 / a + 1) ≤ 48 ↔ a ≤ 48) := by
  have hmod := mod_lt 12 h0
  have hdiv := div_add_mod 12 a
  have hval : a * (12 / a + 1) = 12 + a - 12 % a := by
    rw [Nat.mul_add]
    omega
  refine ⟨a * (12 / a + 1), ?_, ?_, by omega, ?_⟩
  · have h1 : uadd 12 a = 12 + a := uadd_of_lt (by unfold uintRange; omega)
    have h2 : usub (12 + a) (12 % a) = 12 + a - 12 % a := usub_of_le (by unfold uintRange; omega) (by omega)
    have h3 : uadd (12 + a - 12 % a) 0 = 12 + a - 12 % a := uadd_of_lt (by unfold uintRange; omega)
    unfold getNextOffset ncmNthLen
    rw [if_neg (by omega), h1, h2, h3, hval]
  · rw [hval]
    rcases Nat.lt_or_ge 12 a with hlt | hge
    · rw [mod_eq_of_lt hlt]
      omega
    · omega
  · rw [hval]
    rcases Nat.lt_or_ge 12 a with hlt | hge
    · rw [mod_eq_of_lt hlt]
      omega
    · omega

lemma read_nth {sequence blockLength ndpIndex : ℕ} (h : ntb.read a 12 = nthBytes sequence blockLength ndpIndex) :
    ntb.dword a = ncmNthSig ∧ ntb.word (a + 8) = blockLength % 65536 ∧ ntb.word (a + 10) = ndpIndex % 65536 := by
  obtain ⟨h0, h⟩ := read_append (le32 ncmNthSig) _ h
  obtain ⟨-, h⟩ := read_append (le16 ncmNthLen) _ h
  obtain ⟨-, h⟩ := read_append (le16 sequence) _ h
  obtain ⟨h8, h10⟩ := read_append (le16 blockLength) _ h
  exact ⟨dword_of_read h0, word_of_read h8, word_of_read h10⟩

lemma read_ndp {len : ℕ} (h : ntb.read a 16 = ndpBytes len) :
    ntb.dword a = ncmNdpSig0 ∧ ntb.word (a + 6) = 0 ∧ ntb.word (a + 8) = 64 ∧ ntb.word (a + 10) = len % 65536 ∧
      ntb.word (a + 12) = 0 := by
  obtain ⟨h0, h⟩ := read_append (le32 ncmNdpSig0) _ h
  obtain ⟨-, h⟩ := read_append (le16 (ncmNdpLen + 4)) _ h
  obtain ⟨h6, h⟩ := read_append (le16 0) _ h
  obtain ⟨h8, h⟩ := read_append (le16 ncmHbufSize) _ h
  obtain ⟨h10, h⟩ := read_append (le16 len) _ h
  obtain ⟨h12, -⟩ := read_append (le16 0) _ h
  exact ⟨dword_of_read h0, word_of_read h6, word_of_read h8, word_of_read h10, word_of_read h12⟩

def headerBuf (sequence offsetNdp len : ℕ) : Mem :=
  (Mem.write (fun _ => 0) 0 (nthBytes sequence (ncmHbufSize + len) offsetNdp)).write offsetNdp (ndpBytes len)

section Block

variable {sequence offset : ℕ} {frame : Bytes}

lemma block_nth (hoff : 12 ≤ offset) (hlt : offset < 65536) (hlen : frame.length ≤ ethernetMtu)
    (h : ntb.read 0 ncmHbufSize = (headerBuf sequence offset frame.length).read 0 ncmHbufSize) :
    ntb.dword 0 = ncmNthSig ∧ ntb.word 8 = ncmHbufSize + frame.length ∧ ntb.word 10 = offset := by
  have hread : ntb.read 0 12 = nthBytes sequence (ncmHbufSize + frame.length) offset := by
    rw [read_sub h le_rfl (by decide), headerBuf, read_write_before (by omega)]
    exact read_write ..
  obtain ⟨h0, h8, h10⟩ := read_nth hread
  unfold ethernetMtu at hlen
  exact ⟨h0, by rw [h8]; unfold ncmHbufSize; omega, by rw [h10]; omega⟩

lemma block_ndp (hoff : offset + 16 ≤ ncmHbufSize)
    (h : ntb.read 0 ncmHbufSize = (headerBuf sequence offset frame.length).read 0 ncmHbufSize) :
    ntb.read offset 16 = ndpBytes frame.length := by
  rw [read_sub h (Nat.zero_le _) (by omega)]
  exact read_write ..

lemma parse_sent (h0 : frame ≠ []) (hlen : frame.length ≤ ethernetMtu) (hnth : ntb.dword 0 = ncmNthSig)
    (hidx : ntb.word 10 = offset) (hndp : ntb.read offset 16 = ndpBytes frame.length)
    (hframe : ntb.read ncmHbufSize frame.length = frame) (fuel : ℕ) :
    ∃ log, ncmParse collect ntb (fuel + 1) [] = ((.parsed, log), [frame]) := by
  obtain ⟨hsig, hnext, hindex, hlength, hnull⟩ := read_ndp hndp
  have hdata : datagram ntb ⟨offset, 0⟩ = frame := by
    unfold ethernetMtu at hlen
    unfold datagram datagramIndex datagramLen Place.entry
    rw [Nat.mul_zero, hindex, hlength, mod_eq_of_lt (by omega)]
    exact hframe
  have hadvance : (advance ntb ⟨offset, 0⟩).2 = .done := by
    have hend : IsNull ntb (Place.next ⟨offset, 0⟩) := .inl hnull
    have hlast : nextNdpIndex ntb offset = 0 := hnext
    rw [(advance_null hend).1, leaveNdp, if_pos hlast]
  unfold ncmParse enterNdp
  simp only [hnth, hidx, hsig, ne_eq, not_true_eq_false, if_false, if_true, ncmLoop, hdata, collect, h0, hadvance]
  exact ⟨_, rfl⟩

end Block

/-- **A transmitted block is well formed and inverse to the parser**, exactly for the alignments of a device that leave the
table in the header buffer, at a multiple of the alignment for the other direction.  With both alignments 4 it is sent. -/
theorem ncm_transmit_well_formed (alloc : Bool) (frame : Bytes) (ncm : Ncm) (h0 : frame ≠ []) (hlen : frame.length ≤ ethernetMtu) :
    (Sound ncm.ntbParams frame (ncmBulkTransmit alloc frame ncm).1 ↔
      0 < ncm.ntbParams.wNdpInAlignment.toNat ∧ (alloc = false ∨ ncm.ntbParams.wNdpInAlignment.toNat ≤ 48 ∧
        ncm.ntbParams.wNdpOutAlignment.toNat ∣
          ncm.ntbParams.wNdpInAlignment.toNat * (12 / ncm.ntbParams.wNdpInAlignment.toNat + 1))) ∧
    (ncm.ntbParams.wNdpInAlignment = 4 → ncm.ntbParams.wNdpOutAlignment = 4 → alloc = true →
      ∃ block, (ncmBulkTransmit alloc frame ncm).1 = .sent block) := by
  have hin : ncm.ntbParams.wNdpInAlignment.toNat < 65536 := ncm.ntbParams.wNdpInAlignment.toNat_lt
  have hmtu : ¬ frame.length > ethernetMtu := by omega
  rcases Nat.eq_zero_or_pos ncm.ntbParams.wNdpInAlignment.toNat with hz | hpos
  · -- the remainder of a division by zero
    refine ⟨⟨fun h => ?_, fun h => absurd h.1 (by omega)⟩, fun h4 => ?_⟩
    · simp only [ncmBulkTransmit, getNextOffset, hz, if_true] at h
      exact h.elim
    · rw [h4] at hz
      cases hz
  obtain ⟨offset, hget, hmod, hlt, hle⟩ := getNextOffset_nth hpos hin
  generalize ncm.ntbParams.wNdpInAlignment.toNat * (12 / ncm.ntbParams.wNdpInAlignment.toNat + 1) = off at hmod hlt hle
  cases alloc with
  | false =>
    have hres : (ncmBulkTransmit false frame ncm).1 = .errMem := by
      simp only [ncmBulkTransmit, hget, if_neg hmtu, if_true]
    rw [hres]
    exact ⟨⟨fun _ => ⟨hpos, .inl rfl⟩, fun _ => trivial⟩, by simp⟩
  | true =>
    have hres : (ncmBulkTransmit true frame ncm).1 =
        .sent ((headerBuf ncm.sequence.toNat off frame.length).read 0 ncmHbufSize ++ frame) := by
      simp only [ncmBulkTransmit, hget, if_neg hmtu, hmod, Bool.true_eq_false, if_false]
      rfl
    rw [hres]
    refine ⟨⟨fun h => ⟨hpos, .inr ?_⟩, fun h => ?_⟩, fun _ _ _ => ⟨_, rfl⟩⟩
    · -- the fields of the block in memory
      have hmem := read_ofBytes (a := 0) (n := ((headerBuf ncm.sequence.toNat off frame.length).read 0 ncmHbufSize ++ frame).length)
        (l := (headerBuf ncm.sequence.toNat off frame.length).read 0 ncmHbufSize ++ frame) (by omega)
      rw [drop_zero, take_length] at hmem
      have hwf := h _ hmem
      have hhead := (read_append _ _ hmem).1
      obtain ⟨-, -, hidx⟩ := block_nth (by omega) (by omega) hlen hhead
      have hhdr := hwf.in_header
      have haligned := hwf.aligned
      rw [hidx] at hhdr haligned
      unfold ncmNdpLen ncmHbufSize at hhdr
      exact ⟨hle.1 (by omega), haligned⟩
    · obtain ⟨hle', hdvd⟩ := h.2.resolve_left (by simp)
      intro ntb hntb
      obtain ⟨hhead, hframe⟩ := read_append _ _ hntb
      obtain ⟨hsig, hblock, hidx⟩ := block_nth (by omega) (by omega) hlen hhead
      have hndp := @block_ndp _ _ _ frame (by unfold ncmHbufSize; omega : off + 16 ≤ ncmHbufSize) hhead
      obtain ⟨-, -, hindex, -, -⟩ := read_ndp hndp
      refine ⟨by rw [hidx]; exact hdvd, by rw [hidx]; exact hlt.le, ?_, ?_, ?_, ?_⟩
      · unfold ncmNdpLen ncmHbufSize
        omega
      · rw [hidx]
        exact hindex
      · rw [hblock, length_append, length_read]
      · exact parse_sent h0 hlen hsig hidx hndp hframe

theorem ncm_transmit_well_formed_four : Sound { wNdpInAlignment := 4, wNdpOutAlignment := 4 } [1, 2, 3]
      (ncmBulkTransmit true [1, 2, 3] { ntbParams := { wNdpInAlignment := 4, wNdpOutAlignment := 4 } }).1 :=
  (ncm_transmit_well_formed true [1, 2, 3] { ntbParams := { wNdpInAlignment := 4, wNdpOutAlignment := 4 } } (by simp)
    (by decide)).1.2 (by decide)

/-- **The other alignment is used.**  A device asks for tables at multiples of 32 and itself puts them at multiples of 4: the
table is sent at the offset 16. -/
theorem misaligned_table : ¬ Sound { wNdpInAlignment := 4, wNdpOutAlignment := 32 } [1, 2, 3]
      (ncmBulkTransmit true [1, 2, 3] { ntbParams := { wNdpInAlignment := 4, wNdpOutAlignment := 32 } }).1 := by
  intro h
  have hwf := h (ofBytes ((headerBuf 0 16 3).read 0 64 ++ [1, 2, 3])) (by decide +kernel)
  exact absurd hwf.aligned (by decide +kernel)

end LwftpCe.Eth
