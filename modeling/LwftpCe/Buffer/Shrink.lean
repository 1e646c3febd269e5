import LwftpCe.Buffer.Budget
import LwftpCe.Buffer.Clients

/-!
# Pools that shrink

`mem_buffer_free` makes a pool smaller by `mem_buffer_resize`, which reads the union as that of a ring: the size of a block is
taken for the length of a queue and the number of blocks for its head.  So the storage always moves, and the pieces that are
in it do not.
-/

namespace LwftpCe.Buffer

open Lib List Function MemBuffer Sys

variable {σ : Type} {E : Env σ} {i : ℕ} {s t : Sys σ} {rb rb' : MemBuffer} {newCap : ℕ} {grow shrink : ℕ}

/-! ### The decision to shrink -/

def shrunkCap (rb : MemBuffer) : ℕ := usub rb.cap (poolStep rb)

def asksToShrink (rb : MemBuffer) : Bool :=
  rb.step ≠ 0 ∧ rb.poolBlockSize ≠ 0 ∧ rb.poolUsedBytes ≤ thresholdBytes rb.cap rb.shrinkThresholdPct ∧
    trailingFree (Bitmap.test rb.bits) rb.poolBlockCount ≠ 0 ∧ rb.shrinkHoldCount ≠ 0 ∧
    rb.shrinkHoldNext ≤ rb.shrinkHits + 1 ∧
    poolStep rb ≤ umul (trailingFree (Bitmap.test rb.bits) rb.poolBlockCount) rb.poolBlockSize ∧
    rb.poolBlockSize ≤ shrunkCap rb

/-- And it is given: the size is not locked, within the limit, and there is memory for the smaller block. -/
def poolShrinks (s : Sys σ) (i : ℕ) : Bool :=
  asksToShrink (s.buf i) ∧ (s.buf i).flags.lockSize = false ∧
    ((s.buf i).maxCap = sizeMax ∨ shrunkCap (s.buf i) ≤ (s.buf i).maxCap) ∧ (s.allocs s.calls).isSome

/-- The pool has the same storage, blocks and bitmap. -/
structure Alike (rb rb' : MemBuffer) : Prop where
  self : rb'.self = rb.self
  flags : rb'.flags = rb.flags
  buf : rb'.buf = rb.buf
  cap : rb'.cap = rb.cap
  blockSize : rb'.u₀ = rb.u₀
  count : rb'.u₁ = rb.u₁
  used : rb'.u₂ = rb.u₂
  bitmap : rb'.poolBitmap = rb.poolBitmap
  bitmapBytes : rb'.poolBitmapBytes = rb.poolBitmapBytes

lemma Alike.refl (rb : MemBuffer) : Alike rb rb := ⟨rfl, rfl, rfl, rfl, rfl, rfl, rfl, rfl, rfl⟩

lemma Alike.trans {rb'' : MemBuffer} (h : Alike rb rb') (h' : Alike rb' rb'') : Alike rb rb'' :=
  ⟨h'.self.trans h.self, h'.flags.trans h.flags, h'.buf.trans h.buf, h'.cap.trans h.cap, h'.blockSize.trans h.blockSize,
    h'.count.trans h.count, h'.used.trans h.used, h'.bitmap.trans h.bitmap, h'.bitmapBytes.trans h.bitmapBytes⟩

lemma Alike.quiet (hq : Quiet i s t) : Alike (s.buf i) (t.buf i) := by
  obtain ⟨level, hl⟩ := hq.self
  rw [hl]
  exact ⟨rfl, rfl, rfl, rfl, rfl, rfl, rfl, rfl, rfl⟩

lemma resize_pool (newCap : ℕ) (hhead : (s.buf i).u₁ ≠ 0) (hlen : (s.buf i).u₀ ≤ newCap) (hcap : newCap < (s.buf i).cap) :
    memBufferResize E i newCap s =
      if (s.buf i).flags.lockSize then (false, s)
      else if (s.buf i).maxCap ≠ sizeMax ∧ newCap > (s.buf i).maxCap then (false, s)
      else resizeByCopy i newCap 0 ((s.buf i).cap - newCap) s := by
  have hgrow : newCap - (s.buf i).cap = 0 := by omega
  unfold memBufferResize
  rw [if_neg (by simp only [MemBuffer.len]; omega)]
  simp only [hgrow, gt_iff_lt, lt_irrefl, if_false, MemBuffer.head, hhead, false_and, and_false]

lemma copyRing_place (rb : MemBuffer) (b : Block) : (copyRing rb b).base = b.base ∧ (copyRing rb b).size = b.size := by
  unfold copyRing
  split_ifs
  · exact ⟨rfl, rfl⟩
  · exact ⟨rfl, rfl⟩

lemma resizeByCopy_none (h : s.allocs s.calls = none) :
    resizeByCopy i newCap grow shrink s = (false, giveBack grow { s with calls := s.calls + 1 }) := by
  unfold resizeByCopy malloc
  rw [h]

lemma resizeByCopy_some {r : Raw} (h : s.allocs s.calls = some r) :
    resizeByCopy i newCap grow shrink s = (true, resized i newCap shrink
      (copyRing (s.buf i) ⟨s.calls, r.base, newCap, r.bytes⟩) (free (cleared (s.buf i))
        { s with calls := s.calls + 1, heap := .got s.calls newCap :: s.heap })) := by
  unfold resizeByCopy malloc
  rw [h]

structure Moved (r : Raw) (rb rb' : MemBuffer) : Prop where
  flags : rb'.flags = rb.flags
  base : rb'.buf.base = r.base
  size : rb'.buf.size = shrunkCap rb
  cap : rb'.cap = shrunkCap rb
  blockSize : rb'.u₀ = rb.u₀
  count : rb'.u₁ = shrunkCap rb / rb.u₀
  used : rb'.u₂ = rb.u₂
  bitmap : rb'.poolBitmap = rb.poolBitmap

def countHit (rb : MemBuffer) : MemBuffer := { rb with shrinkHits := rb.shrinkHits + 1 }

lemma not_shrinks (hasks : asksToShrink (s.buf i)) (hno : poolShrinks s i = false) : (s.buf i).flags.lockSize = true ∨
    ((s.buf i).maxCap ≠ sizeMax ∧ shrunkCap (s.buf i) > (s.buf i).maxCap) ∨ s.allocs s.calls = none := by
  by_contra hnot
  rw [not_or, not_or, not_and_or, not_ne_iff, not_lt] at hnot
  refine Bool.eq_false_iff.1 hno ?_
  simp only [poolShrinks, decide_eq_true_eq]
  exact ⟨hasks, by simpa using hnot.1, hnot.2.1, Option.isSome_iff_ne_none.2 hnot.2.2⟩

lemma shrinkPool_asked (hasks : asksToShrink (s.buf i)) : shrinkPool E i s =
    match memBufferResize E i (shrunkCap (s.buf i)) (s.onBuf i countHit) with
    | (false, t) => t
    | (true, t) => t.onBuf i fun rb => nextStage { rb with u₁ := shrunkCap (s.buf i) / rb.poolBlockSize } := by
  simp only [asksToShrink, decide_eq_true_eq] at hasks
  obtain ⟨h1, h2, h3, h4, h5, h6, h7, h8⟩ := hasks
  refine (if_neg (by tauto)).trans ((if_neg (not_lt.2 h3)).trans ((if_neg (by tauto)).trans ((if_neg ?_).trans
    ((if_neg ?_).trans ?_))))
  · rw [onBuf_self]
    exact UInt16.not_lt.2 h6
  · rw [not_or, not_lt, not_lt]
    exact ⟨h7, h8⟩
  · generalize hx : memBufferResize E i (usub (s.buf i).cap (poolStep (s.buf i)))
      (s.onBuf i fun rb => { rb with shrinkHits := rb.shrinkHits + 1 }) = x
    generalize hy : memBufferResize E i (shrunkCap (s.buf i)) (s.onBuf i countHit) = y
    obtain rfl : x = y := hx.symm.trans hy
    obtain ⟨_ | _, t⟩ := x
    · rfl
    · rfl

lemma shrinkPool_unasked (hasks : ¬ asksToShrink (s.buf i)) :
    ∃ f : MemBuffer → MemBuffer, shrinkPool E i s = s.onBuf i f ∧ Alike (s.buf i) (f (s.buf i)) := by
  have hsame : s = s.onBuf i id := (congrArg (fun buf => { s with buf }) (update_eq_self i s.buf)).symm
  unfold shrinkPool
  dsimp only
  split_ifs with h1 h3 h4 h6 h7
  · exact ⟨_, hsame, .refl _⟩
  · exact ⟨_, rfl, rfl, rfl, rfl, rfl, rfl, rfl, rfl, rfl, rfl⟩
  · exact ⟨_, hsame, .refl _⟩
  · exact ⟨_, rfl, rfl, rfl, rfl, rfl, rfl, rfl, rfl, rfl, rfl⟩
  · exact ⟨_, rfl, rfl, rfl, rfl, rfl, rfl, rfl, rfl, rfl, rfl⟩
  · rw [onBuf_self] at h6
    refine absurd ?_ hasks
    simp only [asksToShrink, decide_eq_true_eq]
    rw [not_or] at h1 h4
    rw [not_or, not_lt, not_lt] at h7
    exact ⟨h1.1, h1.2, not_lt.1 h3, h4.1, h4.2, UInt16.not_lt.1 h6, h7.1, h7.2⟩

lemma shrinkPool_outcome (hcount : (s.buf i).u₁ ≠ 0) (hcap : asksToShrink (s.buf i) → shrunkCap (s.buf i) < (s.buf i).cap) :
    if poolShrinks s i then ∃ r, s.allocs s.calls = some r ∧ Moved r (s.buf i) ((shrinkPool E i s).buf i)
    else Alike (s.buf i) ((shrinkPool E i s).buf i) ∧ (shrinkPool E i s).heap = s.heap := by
  have hself : (s.onBuf i countHit).buf i = countHit (s.buf i) := onBuf_self ..
  have hhit : Alike (s.buf i) ((s.onBuf i countHit).buf i) := by
    rw [hself]
    exact ⟨rfl, rfl, rfl, rfl, rfl, rfl, rfl, rfl, rfl⟩
  by_cases hasks : asksToShrink (s.buf i) = true
  · have hlen : (s.buf i).u₀ ≤ shrunkCap (s.buf i) := by
      have hdec := hasks
      simp only [asksToShrink, decide_eq_true_eq] at hdec
      exact hdec.2.2.2.2.2.2.2
    have hresize := resize_pool (E := E) (shrunkCap (s.buf i))
      (by rw [hhit.count]; exact hcount) (by rw [hhit.blockSize]; exact hlen) (by rw [hhit.cap]; exact hcap hasks)
    have hmax : ((s.onBuf i countHit).buf i).maxCap = (s.buf i).maxCap := by rw [hself]; rfl
    rw [hhit.flags, hmax] at hresize
    rw [shrinkPool_asked hasks, hresize]
    cases hshrinks : poolShrinks s i with
    | true =>
      simp only [poolShrinks, decide_eq_true_eq] at hshrinks
      obtain ⟨-, hlock, hlimit, hsome⟩ := hshrinks
      obtain ⟨r, hr⟩ := Option.isSome_iff_exists.1 hsome
      rw [if_pos rfl, if_neg (by simp [hlock]), if_neg (by omega), resizeByCopy_some (s := s.onBuf i countHit) hr]
      refine ⟨r, hr, ?_⟩
      generalize s.onBuf i countHit = w at hself
      have hplace := copyRing_place (w.buf i) ⟨w.calls, r.base, shrunkCap (s.buf i), r.bytes⟩
      rw [onBuf_self, resized_buf]
      have hfree : (free (cleared (w.buf i)) { w with
          calls := w.calls + 1, heap := .got w.calls (shrunkCap (s.buf i)) :: w.heap }).buf i = countHit (s.buf i) := hself
      generalize (free (cleared (w.buf i)) _).buf i = rb at hfree
      subst hfree
      exact ⟨rfl, hplace.1, hplace.2, rfl, rfl, rfl, rfl, rfl⟩
    | false =>
      by_cases hlock : (s.buf i).flags.lockSize = true
      · rw [if_pos hlock]
        exact ⟨hhit, rfl⟩
      rw [if_neg hlock]
      by_cases hlimit : (s.buf i).maxCap ≠ sizeMax ∧ shrunkCap (s.buf i) > (s.buf i).maxCap
      · rw [if_pos hlimit]
        exact ⟨hhit, rfl⟩
      rw [if_neg hlimit, resizeByCopy_none (s := s.onBuf i countHit) (((not_shrinks hasks hshrinks).resolve_left hlock).resolve_left hlimit)]
      exact ⟨hhit, rfl⟩
  · have hno : poolShrinks s i = false := by
      simp only [poolShrinks, hasks, Bool.false_eq_true, false_and, decide_false]
    obtain ⟨f, hf, halike⟩ := shrinkPool_unasked hasks
    rw [hno, hf, onBuf_self]
    exact ⟨halike, rfl⟩

/-! ### The pool with its pieces -/

variable {K : ℕ} {live : List Chunk} {c d : Chunk}

lemma Alike.shaped (h : Alike rb rb') (hp : Shaped rb) : Shaped rb' := by
  obtain ⟨-, hflags, hbuf, hcap, h0, h1, -, hbitmap, -⟩ := h
  constructor
  · rw [hflags]; exact hp.pool
  · rw [poolBlockSize, h0]; exact hp.pos
  · rw [poolBlockSize, poolBlockCount, h0, h1, hcap]; exact hp.count
  · rw [hcap, hbuf]; exact hp.size
  · rw [poolBlockCount, h1]; exact hp.few
  · rw [hbuf]; exact hp.base
  · rw [hbuf]; exact hp.room
  · rw [hbitmap]; exact hp.bitmap

lemma Alike.holds (h : Alike rb rb') (hh : Holds rb live) : Holds rb' live := by
  cases rb
  obtain ⟨rfl, rfl, rfl, rfl, rfl, rfl, rfl, rfl, rfl⟩ := h
  exact ⟨hh.tiled, hh.used, hh.addr, hh.header⟩

lemma shrunkCap_eq (hp : Shaped rb) (h : asksToShrink rb) :
    0 < poolStep rb ∧ poolStep rb ≤ rb.cap ∧ shrunkCap rb = rb.cap - poolStep rb := by
  simp only [asksToShrink, decide_eq_true_eq] at h
  obtain ⟨-, -, -, -, -, -, hstep, -⟩ := h
  have hpos : 0 < poolStep rb := by
    unfold poolStep
    dsimp only
    split_ifs with h0
    · exact hp.pos
    · exact Nat.pos_of_ne_zero h0
  have hfree := Nat.mul_le_mul_right rb.poolBlockSize (trailingFree_le (Bitmap.test rb.bits) rb.poolBlockCount)
  have hcount := hp.count
  have hsize := hp.size
  have hroom := hp.room
  rw [umul_of_lt (by omega)] at hstep
  refine ⟨hpos, by omega, ?_⟩
  rw [shrunkCap, usub_of_le (by omega) (by omega)]

/-- The invariant of a pool whose storage was at most `K` bytes from the start. -/
structure PoolInv (K i : ℕ) (s : Sys σ) (live : List Chunk) : Prop where
  shaped : Shaped (s.buf i)
  count : (s.buf i).poolBlockCount = (s.buf i).cap / (s.buf i).poolBlockSize
  holds : Holds (s.buf i) live
  cap : (s.buf i).cap ≤ K
  /-- memory is in the address space -/
  placed : ∀ n r, s.allocs n = some r → 0 < r.base ∧ r.base + K < uintRange

namespace PoolInv

lemma alike (h : PoolInv K i s live) (ha : Alike (s.buf i) (t.buf i)) (hallocs : t.allocs = s.allocs) : PoolInv K i t live := by
  refine ⟨ha.shaped h.shaped, ?_, ha.holds h.holds, ha.cap ▸ h.cap, hallocs ▸ h.placed⟩
  rw [poolBlockCount, poolBlockSize, ha.count, ha.cap, ha.blockSize]
  exact h.count

lemma same {live' : List Chunk} (h : PoolInv K i s live) (hs : Same (s.buf i) (t.buf i)) (hh : Holds (t.buf i) live')
    (hallocs : t.allocs = s.allocs) : PoolInv K i t live' := by
  refine ⟨hs.shaped h.shaped, ?_, hh, hs.cap ▸ h.cap, hallocs ▸ h.placed⟩
  rw [poolBlockCount, poolBlockSize, hs.count, hs.cap, hs.blockSize]
  exact h.count

lemma moved {r : Raw} (h : PoolInv K i s []) (hasks : asksToShrink (s.buf i)) (hr : s.allocs s.calls = some r)
    (hm : Moved r (s.buf i) (t.buf i)) (hallocs : t.allocs = s.allocs) : PoolInv K i t [] := by
  obtain ⟨hpos, hstep, hcap⟩ := shrunkCap_eq h.shaped hasks
  obtain ⟨hbase, hroom⟩ := h.placed _ _ hr
  have hK := h.cap
  have hfewer : shrunkCap (s.buf i) / (s.buf i).u₀ ≤ (s.buf i).poolBlockCount := by
    rw [h.count]
    exact Nat.div_le_div_right (by omega)
  have hbits : (t.buf i).bits = (s.buf i).bits := by
    unfold bits
    rw [hm.bitmap]
  have hclear : ∀ j < (s.buf i).poolBlockCount, Bitmap.test (s.buf i).bits j = false := by
    intro j hj
    have hnone := h.holds.tiled.bits j hj
    simpa using hnone
  have hused : ∀ n ≤ (s.buf i).poolBlockCount, Bitmap.count (s.buf i).bits n = 0 := by
    intro n hn
    rw [Bitmap.count, countP_eq_zero]
    exact fun j hj => by simp [hclear j ((mem_range.1 hj).trans_le hn)]
  have hnone : ∀ {P : Chunk → Prop}, ∀ c ∈ [], P c := fun c hc => absurd hc not_mem_nil
  refine ⟨⟨?_, ?_, ?_, ?_, ?_, ?_, ?_, ?_⟩, ?_, ⟨?_, ?_, hnone, hnone⟩, ?_, hallocs ▸ h.placed⟩
  · rw [hm.flags]; exact h.shaped.pool
  · rw [poolBlockSize, hm.blockSize]; exact h.shaped.pos
  · rw [poolBlockSize, poolBlockCount, hm.blockSize, hm.count, hm.cap]
    exact Nat.div_mul_le_self _ _
  · rw [hm.cap, hm.size]
  · rw [poolBlockCount, hm.count]
    exact hfewer.trans h.shaped.few
  · rw [hm.base]; exact hbase
  · rw [hm.base, hm.size]
    omega
  · rw [hm.bitmap]; exact h.shaped.bitmap
  · rw [poolBlockCount, poolBlockSize, hm.count, hm.cap, hm.blockSize]
  · rw [hbits, poolBlockCount, hm.count]
    exact .nil fun j hj => hclear j (hj.trans_le hfewer)
  · rw [hbits, poolUsedBlocks, hm.used, poolBlockCount, hm.count, hused _ hfewer]
    exact h.holds.used.trans (hused _ le_rfl)
  · rw [hm.cap]
    omega

end PoolInv

/-! ### A free -/

def givenBack (i : ℕ) (c : Chunk) (s : Sys σ) : Sys σ := s.onBuf i (giveRun (c.start (s.buf i)) (c.blocks (s.buf i)))

/-- The pieces are where they were, with their bytes, inside the pool, and the bitmap is theirs. -/
structure Undisturbed (i : ℕ) (s t : Sys σ) (live : List Chunk) : Prop where
  addr : ∀ d ∈ live, d.ptr.addr = (t.buf i).buf.base + d.start (s.buf i) * (s.buf i).poolBlockSize + 2
  bytes : ∀ d ∈ live, (t.buf i).buf.bytes.read (d.ptr.addr - (t.buf i).buf.base) d.size =
    (s.buf i).buf.bytes.read (d.ptr.addr - (s.buf i).buf.base) d.size
  inside : ∀ d ∈ live, (t.buf i).buf.base + 2 ≤ d.ptr.addr ∧
    d.ptr.addr + d.size ≤ (t.buf i).buf.base + (t.buf i).cap
  bits : ∀ j < (t.buf i).poolBlockCount, Bitmap.test (t.buf i).bits j = true ↔
    ∃ d ∈ live, d.start (t.buf i) ≤ j ∧ j < d.start (t.buf i) + d.blocks (t.buf i)
  used : (t.buf i).poolUsedBlocks = Bitmap.count (t.buf i).bits (t.buf i).poolBlockCount

section Free

variable (h : PoolInv K i s live) (hc : c ∈ live)
include h hc

lemma givenBack_inv : PoolInv K i (givenBack i c s) (live.filter (· ≠ c)) := by
  refine h.same ?_ ?_ rfl
  · rw [givenBack, onBuf_self, giveRun]
    exact .setPool ..
  · rw [givenBack, onBuf_self]
    exact giveRun_holds h.shaped h.holds hc

lemma free_outcome : if poolShrinks (givenBack i c s) i then
      ∃ r, s.allocs s.calls = some r ∧ Moved r ((givenBack i c s).buf i) ((memBufferFree E i c.ptr.addr s).buf i)
    else Alike ((givenBack i c s).buf i) ((memBufferFree E i c.ptr.addr s).buf i) ∧
      (memBufferFree E i c.ptr.addr s).heap = s.heap := by
  have hinv := givenBack_inv h hc
  have hcount : ((givenBack i c s).buf i).u₁ ≠ 0 := by
    have hle := h.holds.tiled.inside c hc
    have hpos := h.holds.tiled.pos c hc
    have hsame : ((givenBack i c s).buf i).u₁ = (s.buf i).poolBlockCount := by
      rw [givenBack, onBuf_self]
      rfl
    omega
  have hout := shrinkPool_outcome (E := E) hcount fun hasks => by
    obtain ⟨hpos, hle, hcap⟩ := shrunkCap_eq hinv.shaped hasks
    omega
  rw [poolFree_eq h.shaped h.holds hc]
  have hquiet := Alike.quiet (quiet_maybeClear (E := E) i (shrinkPool E i (givenBack i c s)))
  have hheap := (quiet_maybeClear (E := E) i (shrinkPool E i (givenBack i c s))).heap
  change if poolShrinks (givenBack i c s) i = true then
      ∃ r, s.allocs s.calls = some r ∧ Moved r ((givenBack i c s).buf i)
        ((memPressureMaybeClear E i (shrinkPool E i (givenBack i c s))).buf i)
    else Alike ((givenBack i c s).buf i) ((memPressureMaybeClear E i (shrinkPool E i (givenBack i c s))).buf i) ∧
      (memPressureMaybeClear E i (shrinkPool E i (givenBack i c s))).heap = s.heap
  split_ifs at hout ⊢
  · obtain ⟨r, hr, hm⟩ := hout
    refine ⟨r, hr, ⟨hquiet.flags.trans hm.flags, ?_, ?_, hquiet.cap.trans hm.cap, hquiet.blockSize.trans hm.blockSize,
      hquiet.count.trans hm.count, hquiet.used.trans hm.used, hquiet.bitmap.trans hm.bitmap⟩⟩
    · rw [hquiet.buf, hm.base]
    · rw [hquiet.buf, hm.size]
  · exact ⟨hout.1.trans hquiet, hheap.trans hout.2⟩

lemma free_inv (hspares : poolShrinks (givenBack i c s) i → ∀ d ∈ live, d = c) :
    PoolInv K i (memBufferFree E i c.ptr.addr s) (live.filter (· ≠ c)) := by
  have hinv := givenBack_inv h hc
  have hout := free_outcome (E := E) h hc
  have hallocs : (memBufferFree E i c.ptr.addr s).allocs = (givenBack i c s).allocs := (poolFree_beside c.ptr.addr s).allocs
  split_ifs at hout with hshrinks
  · obtain ⟨r, hr, hm⟩ := hout
    have hnil : live.filter (· ≠ c) = [] := by
      rw [filter_eq_nil_iff]
      intro d hd
      simp [hspares hshrinks d hd]
    rw [hnil] at hinv ⊢
    have hasks : asksToShrink ((givenBack i c s).buf i) := by
      simp only [poolShrinks, decide_eq_true_eq] at hshrinks
      exact hshrinks.1
    exact hinv.moved hasks hr hm hallocs
  · exact hinv.alike hout.1 hallocs

lemma undisturbed_of_alike (ha : Alike ((givenBack i c s).buf i) (t.buf i)) : Undisturbed i s t (live.filter (· ≠ c)) := by
  have hinv := givenBack_inv h hc
  have hholds := ha.holds hinv.holds
  have hshaped := ha.shaped hinv.shaped
  have hmem : ∀ d ∈ live.filter (· ≠ c), d ∈ live ∧ d ≠ c := fun d hd =>
    ⟨mem_of_mem_filter hd, of_decide_eq_true (mem_filter.1 hd).2⟩
  have hself : (givenBack i c s).buf i = giveRun (c.start (s.buf i)) (c.blocks (s.buf i)) (s.buf i) := onBuf_self ..
  have hbase : (t.buf i).buf.base = (s.buf i).buf.base := by
    rw [ha.buf, hself]
    rfl
  refine ⟨fun d hd => ?_, fun d hd => ?_, fun d hd => ?_, hholds.tiled.bits, hholds.used⟩
  · rw [hbase]
    exact h.holds.addr d (hmem d hd).1
  · have haddr := h.holds.addr d (hmem d hd).1
    rw [hbase, ha.buf, hself]
    refine Mem.read_congr fun k hk hk' => ?_
    exact giveRun_bytes h.shaped h.holds hc (hmem d hd).1 (hmem d hd).2 (by omega) (by omega)
  · have haddr := hholds.addr d hd
    have hin := hholds.inside hshaped hd
    omega

lemma free_undisturbed_iff (hapart : ∀ r, s.allocs s.calls = some r → r.base + (s.buf i).cap ≤ (s.buf i).buf.base ∨
      (s.buf i).buf.base + (s.buf i).cap ≤ r.base) :
    Undisturbed i s (memBufferFree E i c.ptr.addr s) (live.filter (· ≠ c)) ↔
      (poolShrinks (givenBack i c s) i → ∀ d ∈ live, d = c) := by
  have hout := free_outcome (E := E) h hc
  refine ⟨fun hu hshrinks d hd => ?_, fun hspares => ?_⟩
  · rw [if_pos hshrinks] at hout
    obtain ⟨r, hr, hm⟩ := hout
    have hasks : asksToShrink ((givenBack i c s).buf i) := by
      simp only [poolShrinks, decide_eq_true_eq] at hshrinks
      exact hshrinks.1
    obtain ⟨-, hstep, hcap⟩ := shrunkCap_eq (givenBack_inv h hc).shaped hasks
    have hsame : ((givenBack i c s).buf i).cap = (s.buf i).cap := by
      rw [givenBack, onBuf_self]
      rfl
    by_contra hne
    -- the piece is in the old block, and cannot be in the new one
    have hin := hu.inside d (mem_filter.2 ⟨hd, decide_eq_true hne⟩)
    rw [hm.base, hm.cap] at hin
    have haddr := h.holds.addr d hd
    have hold := h.holds.inside h.shaped hd
    have := hapart r hr
    omega
  · have hinv := free_inv (E := E) h hc hspares
    split_ifs at hout with hshrinks
    · have hnil : live.filter (· ≠ c) = [] := by
        rw [filter_eq_nil_iff]
        intro d hd
        simp [hspares hshrinks d hd]
      rw [hnil] at hinv ⊢
      have hnone : ∀ {P : Chunk → Prop}, ∀ d ∈ [], P d := fun d hd => absurd hd not_mem_nil
      exact ⟨hnone, hnone, hnone, hinv.holds.tiled.bits, hinv.holds.used⟩
    · exact undisturbed_of_alike h hc hout.1

end Free

/-! ### Runs -/

/-- What is done with a pool; between the operations anything can happen elsewhere. -/
inductive PoolOp (σ : Type) where
  | malloc (size : ℕ)
  | free (c : Chunk)
  | write (c : Chunk) (off : ℕ) (data : Bytes)
  | setGrow (thresholdPct step : ℕ)
  | setShrink (thresholdPct step : ℕ)
  | setMaxSize (maxCap : ℕ)
  | elsewhere (s : Sys σ)

def poolPerform (E : Env σ) (i : ℕ) (m : Clients σ) : PoolOp σ → Clients σ
  | .malloc size => m.got size (memBufferMalloc i size m.sys)
  | .free c => ⟨memBufferFree E i c.ptr.addr m.sys, m.live.filter (· ≠ c)⟩
  | .write c off data => ⟨m.sys.onBuf i fun rb => rb.onBytes (·.write (c.ptr.addr - rb.buf.base + off) data), m.live⟩
  | .setGrow pct step => ⟨m.sys.onBuf i (memBufferSetGrow pct step), m.live⟩
  | .setShrink pct step => ⟨m.sys.onBuf i (memBufferSetShrink pct step), m.live⟩
  | .setMaxSize maxCap => ⟨m.sys.onBuf i (memBufferSetMaxSize maxCap), m.live⟩
  | .elsewhere t => ⟨{ t with buf := Function.update t.buf i (m.sys.buf i), allocs := m.sys.allocs }, m.live⟩

def poolAllowed (m : Clients σ) : PoolOp σ → Bool
  | .free c => c ∈ m.live
  | .write c off data => c ∈ m.live ∧ off + data.length ≤ c.size
  | _ => true

def poolStepOf (E : Env σ) (i : ℕ) : Clients σ → PoolOp σ → Option (Clients σ) :=
  guarded poolAllowed fun m op => some (poolPerform E i m op)

/-- The pool does not shrink under a piece, and the size of a request with its header is one that a `size_t` holds. -/
def spares (i : ℕ) (m : Clients σ) : PoolOp σ → Prop
  | .malloc size => size + 2 < uintRange
  | .free c => poolShrinks (givenBack i c m.sys) i → ∀ d ∈ m.live, d = c
  | _ => True

lemma poolMalloc_fit {size : ℕ} {p : Ptr} (hp : Shaped (s.buf i)) (hsize : size + 2 < uintRange)
    (h : memBufferMalloc i size s = (some p, t)) : size + 2 ≤ poolMaxBytes (s.buf i) := by
  have hpos := hp.pos
  have hcount := hp.count
  have hsz := hp.size
  have hroom := hp.room
  unfold memBufferMalloc at h
  generalize s.buf i = rb at *
  have hmax : poolMaxBytes rb = rb.poolBlockCount * rb.poolBlockSize := by
    rw [poolMaxBytes, umul_of_lt (by rw [Nat.mul_comm]; omega), Nat.mul_comm]
  rw [hmax]
  by_cases h0 : rb.flags.mallocType = false ∨ size = 0
  · rw [if_pos h0] at h
    cases h
  rw [if_neg h0] at h
  by_cases h1 : blocksNeeded rb (uadd size 2) = 0 ∨ blocksNeeded rb (uadd size 2) > rb.poolBlockCount
  · rw [if_pos h1] at h
    cases h
  rw [not_or] at h1
  obtain ⟨hne, hle⟩ := h1
  rw [blocksNeeded, uadd_of_lt hsize, usub_uadd (by omega) (by decide), uadd] at hne hle
  by_cases hwrap : size + 2 - 1 + rb.poolBlockSize < uintRange
  · rw [Nat.mod_eq_of_lt hwrap] at hle
    have hdiv := Nat.div_add_mod (size + 2 - 1 + rb.poolBlockSize) rb.poolBlockSize
    have hmod := Nat.mod_lt (size + 2 - 1 + rb.poolBlockSize) hpos
    have hmul := Nat.mul_le_mul_left rb.poolBlockSize (not_lt.1 hle)
    rw [Nat.mul_comm rb.poolBlockCount]
    omega
  · -- the sum wraps around to less than a block
    refine absurd ?_ hne
    rw [Nat.mod_eq_sub_mod (by omega)]
    exact Nat.div_eq_of_lt (lt_of_le_of_lt (Nat.mod_le _ _) (by omega))

lemma poolPerform_inv {m m' : Clients σ} {op : PoolOp σ} (h : PoolInv K i m.sys m.live) (hspares : spares i m op)
    (hstep : poolStepOf E i m op = some m') : PoolInv K i m'.sys m'.live := by
  obtain ⟨hok, hstep⟩ := guarded_some.1 hstep
  cases hstep
  have hset : ∀ f : MemBuffer → MemBuffer, Alike (m.sys.buf i) (f (m.sys.buf i)) → PoolInv K i (m.sys.onBuf i f) m.live := by
    intro f hf
    refine h.alike ?_ rfl
    rw [onBuf_self]
    exact hf
  cases op with
  | malloc size =>
    have hallocs := (poolMalloc_beside (i := i) size m.sys).allocs
    simp only [poolPerform]
    generalize hm : memBufferMalloc i size m.sys = x at hallocs
    obtain ⟨_ | p, t⟩ := x
    · rw [poolMalloc_none_eq hm]
      exact h
    · obtain ⟨-, -, hsame, hholds⟩ := poolMalloc_some h.shaped h.holds (poolMalloc_fit h.shaped hspares hm) hm
      exact h.same hsame hholds hallocs
  | free c => exact free_inv h (of_decide_eq_true hok) hspares
  | write c off data =>
    simp only [poolAllowed, decide_eq_true_eq] at hok
    have haddr := h.holds.addr c hok.1
    unfold poolPerform
    refine h.same ?_ ?_ rfl
    · rw [onBuf_self]
      exact ⟨rfl, rfl, rfl, rfl, rfl, rfl, rfl, rfl⟩
    · rw [onBuf_self]
      refine ⟨h.holds.tiled, h.holds.used, h.holds.addr, fun d hd => h.holds.header_write h.shaped hok.1 hd fun k hk => ?_⟩
      rcases hk with hk | hk
      · exact Mem.write_before k (by omega)
      · exact Mem.write_behind k (by omega)
  | setGrow pct step =>
    refine hset _ ?_
    unfold memBufferSetGrow
    split_ifs <;> exact ⟨rfl, rfl, rfl, rfl, rfl, rfl, rfl, rfl, rfl⟩
  | setShrink pct step =>
    refine hset _ ?_
    unfold memBufferSetShrink
    split_ifs <;> exact ⟨rfl, rfl, rfl, rfl, rfl, rfl, rfl, rfl, rfl⟩
  | setMaxSize maxCap =>
    refine hset _ ?_
    unfold memBufferSetMaxSize
    split_ifs <;> exact ⟨rfl, rfl, rfl, rfl, rfl, rfl, rfl, rfl, rfl⟩
  | elsewhere t =>
    unfold poolPerform
    refine h.alike ?_ rfl
    dsimp only
    rw [update_self]
    exact .refl _

/-- The pool has at most 65535 blocks, and the memory that it has and may get is in the address space. -/
structure Placed (i : ℕ) (t : Sys σ) : Prop where
  few : (t.buf i).poolBlockCount ≤ 65535
  base : 0 < (t.buf i).buf.base
  room : (t.buf i).buf.base + (t.buf i).buf.size < uintRange
  later : ∀ n r, t.allocs n = some r → 0 < r.base ∧ r.base + (t.buf i).cap < uintRange

lemma create_poolInv {initialCap maxCap lockSize : ℕ} {flags : Flags} (hpool : flags.mallocType = true)
    (hcreate : memBufferCreate E initialCap maxCap lockSize flags s = (some i, t)) (hplaced : Placed i t) :
    PoolInv (t.buf i).cap i t [] := by
  have hf := create_fresh hpool hcreate
  have hclear := hf.clear hplaced.few
  refine ⟨⟨hf.pool, hf.pos, hf.count, hf.size, hplaced.few, hplaced.base, hplaced.room, hf.bitmap⟩, hf.blocks,
    ⟨.nil hclear, ?_, nofun, nofun⟩, le_rfl, hplaced.later⟩
  rw [hf.used, Bitmap.count, eq_comm, countP_eq_zero]
  exact fun j hj => by simp [hclear j (mem_range.1 hj)]

/-- **A free leaves the other pieces alone exactly if the pool does not shrink under them**, in every run whose earlier frees
did not shrink it under a piece. -/
theorem others_undisturbed_iff (E : Env σ) (initialCap maxCap lockSize : ℕ) (flags : Flags) (s t : Sys σ) (i : ℕ)
    (hpool : flags.mallocType = true) (hcreate : memBufferCreate E initialCap maxCap lockSize flags s = (some i, t))
    (hplaced : Placed i t) (ops : List (PoolOp σ)) (m : Clients σ)
    (hspares : Along (spares i) (poolStepOf E i) ⟨t, []⟩ ops) (h : run (poolStepOf E i) ⟨t, []⟩ ops = some m) (c : Chunk)
    (hc : c ∈ m.live)
    (hapart : ∀ r, m.sys.allocs m.sys.calls = some r → r.base + (m.sys.buf i).cap ≤ (m.sys.buf i).buf.base ∨
      (m.sys.buf i).buf.base + (m.sys.buf i).cap ≤ r.base) :
    Undisturbed i m.sys (memBufferFree E i c.ptr.addr m.sys) (m.live.filter (· ≠ c)) ↔
      (poolShrinks (givenBack i c m.sys) i → ∀ d ∈ m.live, d = c) := by
  have hinv : PoolInv (t.buf i).cap i m.sys m.live := by
    refine run_inv_along (fun m => PoolInv (t.buf i).cap i m.sys m.live) ?_ (create_poolInv hpool hcreate hplaced) hspares h
    exact fun _ _ _ hm hsp hstep => poolPerform_inv hm hsp hstep
  exact free_undisturbed_iff hinv hc hapart

def smallHeap (n : ℕ) : Option Raw := if n < 16 then some ⟨1000 * (n + 1), fun _ => 0⟩ else none
def smallPool : Sys Unit := (memBufferCreate plainEnv 64 64 16 { mallocType := true } (started 0 smallHeap)).2

theorem others_undisturbed_two : ∃ m,
    memBufferCreate plainEnv 64 64 16 { mallocType := true } (started 0 smallHeap) = (some 0, smallPool) ∧
    run (poolStepOf plainEnv 0) ⟨smallPool, []⟩ [.setShrink 10 16, .malloc 10, .malloc 10] = some m ∧
    m.live = [⟨⟨0, 2018⟩, 10⟩, ⟨⟨0, 2002⟩, 10⟩] ∧
    Undisturbed 0 m.sys (memBufferFree plainEnv 0 2018 m.sys) (m.live.filter (· ≠ ⟨⟨0, 2018⟩, 10⟩)) := by
  have hcap : (smallPool.buf 0).cap = 64 := by decide +kernel
  have hlater : ∀ n r, smallPool.allocs n = some r → 0 < r.base ∧ r.base + (smallPool.buf 0).cap < uintRange := by
    intro n r hr
    have hr' : smallHeap n = some r := hr
    have hrange : uintRange = 16777216 := by decide
    unfold smallHeap at hr'
    split_ifs at hr' with hn
    cases hr'
    dsimp only
    omega
  have hfits : 10 + 2 < uintRange := by decide
  refine ⟨_, rfl, rfl, by decide +kernel, (others_undisturbed_iff plainEnv 64 64 16 { mallocType := true }
    (started 0 smallHeap) smallPool 0 rfl rfl ⟨by decide +kernel, by decide +kernel, by decide +kernel, hlater⟩
    [.setShrink 10 16, .malloc 10, .malloc 10] _ ⟨trivial, fun _ _ => ⟨hfits, fun _ _ => ⟨hfits, fun _ _ => trivial⟩⟩⟩
    rfl ⟨⟨0, 2018⟩, 10⟩ (by decide +kernel) (fun r hr => ?_)).2 fun hshrinks => absurd hshrinks (by decide +kernel)⟩
  have hbase : (smallHeap 3).map Raw.base = some 4000 := by decide
  rw [show smallHeap 3 = some r from hr] at hbase
  rw [Option.some.inj hbase]
  decide +kernel

/-- The same pool, to shrink as soon as a block at its end is free: the second piece is given back, and the first is no longer
in the pool. -/
theorem piece_left_behind : ∃ m,
    memBufferCreate plainEnv 64 64 16 { mallocType := true } (started 0 smallHeap) = (some 0, smallPool) ∧
    run (poolStepOf plainEnv 0) ⟨smallPool, []⟩ [.setShrink 100 16, .malloc 10, .malloc 10] = some m ∧
    m.live = [⟨⟨0, 2018⟩, 10⟩, ⟨⟨0, 2002⟩, 10⟩] ∧ ((memBufferFree plainEnv 0 2018 m.sys).buf 0).buf.base = 4000 ∧
    ¬ Undisturbed 0 m.sys (memBufferFree plainEnv 0 2018 m.sys) [⟨⟨0, 2002⟩, 10⟩] := by
  refine ⟨_, rfl, rfl, by decide +kernel, by decide +kernel, fun hu => ?_⟩
  have hin := (hu.inside _ mem_cons_self).1
  exact absurd hin (by decide +kernel)

end LwftpCe.Buffer
