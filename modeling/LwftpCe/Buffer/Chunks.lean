import LwftpCe.Buffer.Frame

/-!
# The pieces of a pool

A client has pieces of memory (`Chunk`), each with a header of two bytes in front of it, in a run of blocks of one pool.
`Holds rb cs` is the invariant of one pool with the pieces `cs`: the bitmap is the union of their runs, and the header of
each says how many blocks it has.
-/

namespace LwftpCe.Buffer

open Lib List Function Bitmap MemBuffer

variable {σ : Type} {E : Env σ} {i : ℕ} {s t u : Sys σ} {rb rb' : MemBuffer}

structure Chunk where
  ptr : Ptr
  size : ℕ
  deriving DecidableEq

def Chunk.start (rb : MemBuffer) (c : Chunk) : ℕ := (c.ptr.addr - 2 - rb.buf.base) / rb.poolBlockSize

def blocksFor (rb : MemBuffer) (size : ℕ) : ℕ := (size + 2 + rb.poolBlockSize - 1) / rb.poolBlockSize

def Chunk.blocks (rb : MemBuffer) (c : Chunk) : ℕ := blocksFor rb c.size

/-- A pool whose blocks are within its memory, which is within the address space. -/
structure Shaped (rb : MemBuffer) : Prop where
  pool : rb.flags.mallocType = true
  pos : 0 < rb.poolBlockSize
  count : rb.poolBlockCount * rb.poolBlockSize ≤ rb.cap
  size : rb.cap ≤ rb.buf.size
  few : rb.poolBlockCount ≤ 65535
  base : 0 < rb.buf.base
  room : rb.buf.base + rb.buf.size < uintRange
  bitmap : rb.poolBitmap.isSome

/-- A pool as `mem_buffer_lwip_init_pools` makes it: it does not grow or shrink. -/
structure IsPool (rb : MemBuffer) : Prop extends Shaped rb where
  step : rb.step = 0

/-- The pool with the pieces `cs` in it. -/
structure Holds (rb : MemBuffer) (cs : List Chunk) : Prop where
  tiled : Bitmap.Tiled rb.bits rb.poolBlockCount cs (Chunk.start rb) (Chunk.blocks rb)
  used : rb.poolUsedBlocks = Bitmap.count rb.bits rb.poolBlockCount
  addr : ∀ c ∈ cs, c.ptr.addr = rb.buf.base + c.start rb * rb.poolBlockSize + 2
  header : ∀ c ∈ cs, rb.buf.bytes.word (c.start rb * rb.poolBlockSize) = c.blocks rb

/-! ### Blocks -/

lemma le_blocksFor (h : Shaped rb) (size : ℕ) : size + 2 ≤ blocksFor rb size * rb.poolBlockSize := by
  have hpos := h.pos
  have hdiv := Nat.div_add_mod (size + 2 + rb.poolBlockSize - 1) rb.poolBlockSize
  have hmod := Nat.mod_lt (size + 2 + rb.poolBlockSize - 1) hpos
  rw [blocksFor, Nat.mul_comm]
  omega

lemma blocksNeeded_eq (h : Shaped rb) {size : ℕ} (hfit : size + 2 ≤ poolMaxBytes rb) :
    blocksNeeded rb (uadd size 2) = if size + 1 + rb.poolBlockSize < uintRange then blocksFor rb size else 0 := by
  have hcount := h.count
  have hsize := h.size
  have hroom := h.room
  have hmax : poolMaxBytes rb = rb.poolBlockCount * rb.poolBlockSize := by
    rw [poolMaxBytes, umul_of_lt (by rw [Nat.mul_comm]; omega), Nat.mul_comm]
  have hbs : rb.poolBlockSize ≤ rb.poolBlockCount * rb.poolBlockSize :=
    Nat.le_mul_of_pos_left _ (Nat.pos_of_ne_zero fun h0 => by rw [hmax, h0] at hfit; omega)
  have hneeded : uadd size 2 = size + 2 := uadd_of_lt (by omega)
  rw [blocksNeeded, hneeded, usub_uadd (by omega) (by decide), show size + 2 - 1 = size + 1 by omega, uadd]
  split_ifs with hlt
  · rw [Nat.mod_eq_of_lt hlt]
    congr 1
    omega
  · rw [Nat.div_eq_zero_iff]
    rw [Nat.mod_eq_sub_mod (by omega), Nat.mod_eq_of_lt (by omega)]
    omega

/-! ### One pool -/

section Pool

variable {cs : List Chunk} {c d : Chunk} {size : ℕ}

/-- The pool has the same memory, and its blocks are the same. -/
structure Same (rb rb' : MemBuffer) : Prop where
  flags : rb'.flags = rb.flags
  step : rb'.step = rb.step
  base : rb'.buf.base = rb.buf.base
  size : rb'.buf.size = rb.buf.size
  cap : rb'.cap = rb.cap
  blockSize : rb'.u₀ = rb.u₀
  count : rb'.u₁ = rb.u₁
  bitmap : rb'.poolBitmap.isSome = rb.poolBitmap.isSome

lemma Same.shaped (h : Same rb rb') (hp : Shaped rb) : Shaped rb' := by
  constructor
  · rw [h.flags]; exact hp.pool
  · rw [poolBlockSize, h.blockSize]; exact hp.pos
  · rw [poolBlockSize, poolBlockCount, h.blockSize, h.count, h.cap]; exact hp.count
  · rw [h.cap, h.size]; exact hp.size
  · rw [poolBlockCount, h.count]; exact hp.few
  · rw [h.base]; exact hp.base
  · rw [h.base, h.size]; exact hp.room
  · rw [h.bitmap]; exact hp.bitmap

lemma Same.isPool (h : Same rb rb') (hp : IsPool rb) : IsPool rb' := ⟨h.shaped hp.toShaped, h.step.trans hp.step⟩

lemma Same.setPool (f g : Mem → Mem) (used : ℕ) (rb : MemBuffer) : Same rb (rb.setPool f g used) :=
  ⟨rfl, rfl, rfl, rfl, rfl, rfl, rfl, Option.isSome_map⟩

section

variable (hp : Shaped rb)

include hp

lemma bits_setPool (f g : Mem → Mem) (used : ℕ) : (rb.setPool f g used).bits = g rb.bits := by
  obtain ⟨b, hb⟩ := Option.isSome_iff_exists.1 hp.bitmap
  simp only [bits, setPool, hb, Option.map_some]

lemma Holds.setPool {f g : Mem → Mem} {used : ℕ}
    (ht : Bitmap.Tiled (g rb.bits) rb.poolBlockCount cs (Chunk.start rb) (Chunk.blocks rb))
    (hu : used = count (g rb.bits) rb.poolBlockCount)
    (ha : ∀ c ∈ cs, c.ptr.addr = rb.buf.base + c.start rb * rb.poolBlockSize + 2)
    (hh : ∀ c ∈ cs, (f rb.buf.bytes).word (c.start rb * rb.poolBlockSize) = c.blocks rb) :
    Holds (rb.setPool f g used) cs := by
  have hbits := bits_setPool hp f g used
  refine ⟨?_, ?_, ha, hh⟩
  · rw [hbits]
    exact ht
  · rw [hbits]
    exact hu

lemma Chunk.end_le (c : Chunk) :
    c.start rb * rb.poolBlockSize + (c.size + 2) ≤ (c.start rb + c.blocks rb) * rb.poolBlockSize := by
  rw [Nat.add_mul]
  exact Nat.add_le_add_left (le_blocksFor hp c.size) _

lemma Holds.inside (h : Holds rb cs) (hc : c ∈ cs) : c.start rb * rb.poolBlockSize + (c.size + 2) ≤ rb.cap :=
  ((c.end_le hp).trans (Nat.mul_le_mul_right _ (h.tiled.inside c hc))).trans hp.count

lemma bytes_apart (h : c.start rb + c.blocks rb ≤ d.start rb ∨ d.start rb + d.blocks rb ≤ c.start rb) :
    c.start rb * rb.poolBlockSize + (c.size + 2) ≤ d.start rb * rb.poolBlockSize ∨
      d.start rb * rb.poolBlockSize + (d.size + 2) ≤ c.start rb * rb.poolBlockSize :=
  h.imp (fun h => (c.end_le hp).trans (Nat.mul_le_mul_right _ h)) fun h => (d.end_le hp).trans (Nat.mul_le_mul_right _ h)

lemma Holds.header_write (h : Holds rb cs) (hc : c ∈ cs) (hd : d ∈ cs) {m : Mem}
    (hm : ∀ k, k < c.start rb * rb.poolBlockSize + 2 ∨ c.start rb * rb.poolBlockSize + (c.size + 2) ≤ k → m k = rb.buf.bytes k) :
    m.word (d.start rb * rb.poolBlockSize) = d.blocks rb := by
  rw [← h.header d hd]
  have hout : ∀ k, d.start rb * rb.poolBlockSize ≤ k → k < d.start rb * rb.poolBlockSize + 2 → m k = rb.buf.bytes k := by
    intro k h1 h2
    by_cases hne : d = c
    · exact hm k (.inl (hne ▸ h2))
    · have happart := bytes_apart hp (h.tiled.apart_of_mem hc hd hne)
      exact hm k (by omega)
  exact Mem.word_congr (hout _ le_rfl (by omega)) (hout _ (by omega) (by omega))

lemma takeRun_holds (h : Holds rb cs) (hpos : 0 < c.blocks rb) (hle : c.start rb + c.blocks rb ≤ rb.poolBlockCount)
    (hclear : ∀ j, c.start rb ≤ j → j < c.start rb + c.blocks rb → test rb.bits j = false)
    (haddr : c.ptr.addr = rb.buf.base + c.start rb * rb.poolBlockSize + 2) :
    Holds (takeRun (c.start rb) (c.blocks rb) rb) (c :: cs) := by
  have hfew := hp.few
  have hroom := hp.room
  have htiled := h.tiled.take hpos hle hclear
  have hcount := count_setBits hle hclear
  have hinside := (c.end_le hp).trans (Nat.mul_le_mul_right rb.poolBlockSize hle)
  have hmul : umul (c.start rb) rb.poolBlockSize = c.start rb * rb.poolBlockSize :=
    umul_of_lt (by have := hp.count; have := hp.size; omega)
  have hused : uadd rb.poolUsedBlocks (c.blocks rb) = count (setBits rb.bits (c.start rb) (c.blocks rb)) rb.poolBlockCount := by
    have hmax := count_le (setBits rb.bits (c.start rb) (c.blocks rb)) rb.poolBlockCount
    have hlt : (65536 : ℕ) < uintRange := by decide
    rw [h.used, hcount, uadd_of_lt (by omega)]
  unfold takeRun
  rw [hmul]
  refine .setPool hp htiled hused (forall_mem_cons.2 ⟨haddr, h.addr⟩) (forall_mem_cons.2 ⟨?_, fun d hd => ?_⟩)
  · have hread := Mem.read_write rb.buf.bytes (c.start rb * rb.poolBlockSize) (le16 (c.blocks rb))
    rw [Mem.word_of_read hread, Nat.mod_eq_of_lt (by omega)]
  · -- the header of another piece is in another run
    have happart := bytes_apart hp (rel_of_pairwise_cons htiled.apart hd)
    rw [← h.header d hd]
    have hout : ∀ k, d.start rb * rb.poolBlockSize ≤ k → k < d.start rb * rb.poolBlockSize + 2 →
        rb.buf.bytes.write (c.start rb * rb.poolBlockSize) (le16 (c.blocks rb)) k = rb.buf.bytes k := by
      intro k h1 h2
      rcases Nat.lt_or_ge k (c.start rb * rb.poolBlockSize) with hk | hk
      · exact Mem.write_before k hk
      · exact Mem.write_behind k (by rw [length_le16]; omega)
    exact Mem.word_congr (hout _ le_rfl (by omega)) (hout _ (by omega) (by omega))

end

lemma poolMalloc_some {p : Ptr} (hp : Shaped (s.buf i)) (hh : Holds (s.buf i) cs) (hfit : size + 2 ≤ poolMaxBytes (s.buf i))
    (h : memBufferMalloc i size s = (some p, t)) :
    0 < size ∧ p.pool = i ∧ Same (s.buf i) (t.buf i) ∧ Holds (t.buf i) (⟨p, size⟩ :: cs) := by
  have hpos := hp.pos
  have hcount := hp.count
  have hsz := hp.size
  have hroom := hp.room
  have hne := blocksNeeded_eq hp hfit
  unfold memBufferMalloc at h
  simp only [hne] at h
  generalize hrb : s.buf i = rb at *
  by_cases h0 : rb.flags.mallocType = false ∨ size = 0
  · rw [if_pos h0] at h
    cases h
  rw [if_neg h0] at h
  generalize hn : (if size + 1 + rb.poolBlockSize < uintRange then blocksFor rb size else 0) = n at h
  by_cases h1 : n = 0 ∨ n > rb.poolBlockCount
  · rw [if_pos h1] at h
    cases h
  rw [if_neg h1] at h
  have hn' : n = blocksFor rb size := by
    split_ifs at hn
    · exact hn.symm
    · omega
  cases hf : findRun (test rb.bits) n rb.poolBlockCount 0 0 0 with
  | none =>
    rw [hf] at h
    cases h
  | some a =>
    rw [hf] at h
    cases h
    obtain ⟨hle, hclear⟩ := findRun_some le_rfl (fun h => absurd rfl h) (fun j _ hj => absurd hj (Nat.not_lt_zero j)) hf
    rw [Nat.zero_add] at hle
    -- the address is within the address space
    have hend : a * rb.poolBlockSize + n * rb.poolBlockSize ≤ rb.cap := by
      rw [← Nat.add_mul]
      exact (Nat.mul_le_mul_right _ hle).trans hcount
    have hbytes : size + 2 ≤ n * rb.poolBlockSize := hn' ▸ le_blocksFor hp size
    have haddr : uadd (uadd rb.buf.base (umul a rb.poolBlockSize)) 2 = rb.buf.base + a * rb.poolBlockSize + 2 := by
      have hmul : umul a rb.poolBlockSize = a * rb.poolBlockSize := umul_of_lt (by omega)
      have hbase : uadd rb.buf.base (a * rb.poolBlockSize) = rb.buf.base + a * rb.poolBlockSize := uadd_of_lt (by omega)
      rw [hmul, hbase, uadd_of_lt (by omega)]
    rw [haddr, Sys.onBuf_self, hrb]
    have hstart : Chunk.start rb ⟨⟨i, rb.buf.base + a * rb.poolBlockSize + 2⟩, size⟩ = a := by
      rw [Chunk.start, show rb.buf.base + a * rb.poolBlockSize + 2 - 2 - rb.buf.base = a * rb.poolBlockSize by omega,
        Nat.mul_div_cancel _ hpos]
    have hblocks : Chunk.blocks rb ⟨⟨i, rb.buf.base + a * rb.poolBlockSize + 2⟩, size⟩ = n := hn'.symm
    refine ⟨by omega, rfl, .setPool _ _ _ _, ?_⟩
    generalize hc : (⟨⟨i, rb.buf.base + a * rb.poolBlockSize + 2⟩, size⟩ : Chunk) = c at hstart hblocks ⊢
    have haddr : c.ptr.addr = rb.buf.base + c.start rb * rb.poolBlockSize + 2 := by
      rw [hstart, ← hc]
    rw [← hstart, ← hblocks] at hle hclear ⊢
    exact takeRun_holds hp hh (by omega) hle hclear haddr

lemma poolMalloc_none_eq (h : memBufferMalloc i size s = (none, t)) : t = s := by
  unfold memBufferMalloc at h
  simp only at h
  split_ifs at h
  · cases h; rfl
  · cases h; rfl
  · split at h
    · cases h; rfl
    · cases h

def HasRun (rb : MemBuffer) (n : ℕ) : Prop :=
  ∃ a, a + n ≤ rb.poolBlockCount ∧ ∀ j, a ≤ j → j < a + n → Bitmap.test rb.bits j = false

lemma poolMalloc_none (hp : Shaped (s.buf i)) (hsize : 0 < size) (hfit : size + 2 ≤ poolMaxBytes (s.buf i))
    (hsum : size + 1 + (s.buf i).poolBlockSize < uintRange) (h : (memBufferMalloc i size s).1 = none) :
    ¬ HasRun (s.buf i) (blocksFor (s.buf i) size) := by
  have hpool := hp.pool
  have hpos := le_blocksFor hp size
  unfold memBufferMalloc at h
  simp only [blocksNeeded_eq hp hfit, if_pos hsum, hpool, Bool.true_eq_false, false_or, if_neg hsize.ne'] at h
  rintro ⟨a, hle, hclear⟩
  generalize s.buf i = rb at *
  have hblocks : 0 < blocksFor rb size := Nat.pos_of_ne_zero fun h0 => by rw [h0] at hpos; omega
  rw [if_neg (by omega)] at h
  cases hf : findRun (test rb.bits) (blocksFor rb size) rb.poolBlockCount 0 0 0 with
  | some b =>
    rw [hf] at h
    cases h
  | none =>
    obtain ⟨j, h1, h2, hj⟩ := findRun_none le_rfl hblocks (.inl rfl) (fun b hb => by omega) hf a (by omega)
    rw [hclear j h1 h2] at hj
    cases hj

lemma giveRun_bytes (hp : Shaped rb) (h : Holds rb cs) (hc : c ∈ cs) (hd : d ∈ cs) (hne : d ≠ c) {k : ℕ}
    (hk : d.start rb * rb.poolBlockSize ≤ k) (hk' : k < d.start rb * rb.poolBlockSize + (d.size + 2)) :
    (giveRun (c.start rb) (c.blocks rb) rb).buf.bytes k = rb.buf.bytes k := by
  have hle := h.tiled.inside c hc
  have hruns := h.tiled.apart_of_mem hc hd hne
  have hmul : umul (c.blocks rb) rb.poolBlockSize = c.blocks rb * rb.poolBlockSize := by
    have := Nat.mul_le_mul_right rb.poolBlockSize hle
    rw [Nat.add_mul] at this
    exact umul_of_lt (by have := hp.count; have := hp.size; have := hp.room; omega)
  have hbytes : (c.start rb + c.blocks rb) * rb.poolBlockSize ≤ d.start rb * rb.poolBlockSize ∨
      d.start rb * rb.poolBlockSize + (d.size + 2) ≤ c.start rb * rb.poolBlockSize := by
    rcases hruns with hr | hr
    · exact .inl (Nat.mul_le_mul_right _ hr)
    · exact .inr ((d.end_le hp).trans (Nat.mul_le_mul_right _ hr))
  rw [Nat.add_mul] at hbytes
  unfold giveRun
  change (if rb.flags.secureMode = true then rb.buf.bytes.fill _ _ 0 else rb.buf.bytes) k = rb.buf.bytes k
  split_ifs
  · exact if_neg (by omega)
  · rfl

lemma giveRun_holds (hp : Shaped rb) (h : Holds rb cs) (hc : c ∈ cs) :
    Holds (giveRun (c.start rb) (c.blocks rb) rb) (cs.filter (· ≠ c)) := by
  have hle := h.tiled.inside c hc
  have hcount := count_clearBits hle fun j => h.tiled.test_of_mem hc
  have hmem : ∀ d ∈ cs.filter (· ≠ c), d ∈ cs := fun d hd => mem_of_mem_filter hd
  have hheader : ∀ d ∈ cs.filter (· ≠ c),
      (giveRun (c.start rb) (c.blocks rb) rb).buf.bytes.word (d.start rb * rb.poolBlockSize) = d.blocks rb := by
    intro d hd
    have hne : d ≠ c := of_decide_eq_true (mem_filter.1 hd).2
    rw [← h.header d (hmem d hd)]
    exact Mem.word_congr (giveRun_bytes hp h hc (hmem d hd) hne le_rfl (by omega))
      (giveRun_bytes hp h hc (hmem d hd) hne (by omega) (by omega))
  unfold giveRun at hheader ⊢
  refine .setPool hp (h.tiled.give hc) ?_ (fun d hd => h.addr d (hmem d hd)) hheader
  rw [h.used, if_pos (by omega)]
  omega

lemma shrinkPool_of_step (h : (s.buf i).step = 0) : shrinkPool E i s = s := by
  exact if_pos (.inl h)

lemma poolFree_eq (hp : Shaped (s.buf i)) (h : Holds (s.buf i) cs) (hc : c ∈ cs) : memBufferFree E i c.ptr.addr s =
      memPressureMaybeClear E i (shrinkPool E i (s.onBuf i (giveRun (c.start (s.buf i)) (c.blocks (s.buf i))))) := by
  have haddr := h.addr c hc
  have hinside := h.inside hp hc
  have hle := h.tiled.inside c hc
  have hblocks := h.tiled.pos c hc
  have hheader := h.header c hc
  have hsz := hp.size
  have hroom := hp.room
  have hlt : (65536 : ℕ) < uintRange := by decide
  have hfew := hp.few
  unfold memBufferFree
  generalize s.buf i = rb at *
  have hptr : usub c.ptr.addr 2 = rb.buf.base + c.start rb * rb.poolBlockSize := by
    rw [usub_of_le (by omega) (by omega)]
    omega
  have hcap : uadd rb.buf.base rb.cap = rb.buf.base + rb.cap := uadd_of_lt (by omega)
  simp only [hp.pool, Bool.true_eq_false, false_or, hptr, hcap, Nat.add_sub_cancel_left, Nat.mul_mod_left, ne_eq, not_true,
    if_false, Nat.mul_div_cancel _ hp.pos, hheader]
  rw [if_neg (by omega), if_neg (by omega), if_neg (by rw [uadd_of_lt (by omega)]; omega)]

lemma poolFree_give (hp : IsPool (s.buf i)) (h : Holds (s.buf i) cs) (hc : c ∈ cs) : memBufferFree E i c.ptr.addr s =
      memPressureMaybeClear E i (s.onBuf i (giveRun (c.start (s.buf i)) (c.blocks (s.buf i)))) := by
  have hstep : ((s.onBuf i (giveRun (c.start (s.buf i)) (c.blocks (s.buf i)))).buf i).step = 0 := by
    rw [Sys.onBuf_self]
    exact hp.step
  rw [poolFree_eq hp.toShaped h hc, shrinkPool_of_step hstep]

end Pool

/-! ### The passes over the pools -/

/-- Nothing has changed in the buffers but their pressure levels. -/
structure Still (s t : Sys σ) : Prop where
  buf : ∀ j, ∃ level, t.buf j = { s.buf j with lastPressureLevel := level }
  pools : t.lwipPools = s.lwipPools

namespace Still

lemma refl (s : Sys σ) : Still s s := ⟨fun j => ⟨(s.buf j).lastPressureLevel, rfl⟩, rfl⟩

lemma trans (h : Still s t) (h' : Still t u) : Still s u := by
  refine ⟨fun j => ?_, h'.pools.trans h.pools⟩
  obtain ⟨l, hl⟩ := h.buf j
  obtain ⟨l', hl'⟩ := h'.buf j
  exact ⟨l', by rw [hl', hl]⟩

lemma of_quiet (h : Quiet i s t) : Still s t := by
  refine ⟨fun j => ?_, h.lwipPools⟩
  obtain ⟨level, hl⟩ := h.buf
  rw [hl]
  rcases eq_or_ne j i with rfl | hne
  · exact ⟨level, update_self ..⟩
  · exact ⟨(s.buf j).lastPressureLevel, update_of_ne hne ..⟩

lemma same (h : Still s t) (j : ℕ) : Same (s.buf j) (t.buf j) := by
  obtain ⟨level, hl⟩ := h.buf j
  rw [hl]
  exact ⟨rfl, rfl, rfl, rfl, rfl, rfl, rfl, rfl⟩

lemma holds (h : Still s t) {j : ℕ} {cs : List Chunk} (hh : Holds (s.buf j) cs) : Holds (t.buf j) cs := by
  obtain ⟨level, hl⟩ := h.buf j
  rw [hl]
  exact ⟨hh.tiled, hh.used, hh.addr, hh.header⟩

lemma maxBytes (h : Still s t) (j : ℕ) : poolMaxBytes (t.buf j) = poolMaxBytes (s.buf j) := by
  obtain ⟨level, hl⟩ := h.buf j
  rw [hl]
  rfl

lemma hasRun (h : Still s t) {j : ℕ} (n : ℕ) : HasRun (t.buf j) n ↔ HasRun (s.buf j) n := by
  obtain ⟨level, hl⟩ := h.buf j
  rw [hl]
  rfl

end Still

section Passes

variable {size needed : ℕ} {pools : List ℕ} {p : Ptr} {preferred preferred' : Option ℕ}

def ServedBy (size needed : ℕ) (pools : List ℕ) (p : Ptr) (s t : Sys σ) : Prop :=
  ∃ i ∈ pools, ∃ u, Still s u ∧ needed ≤ poolMaxBytes (s.buf i) ∧ memBufferMalloc i size u = (some p, t)

def Refused (size i : ℕ) (s : Sys σ) : Prop := ∃ u, Still s u ∧ (memBufferMalloc i size u).1 = none

lemma ServedBy.mono (h : ServedBy size needed pools p t u) (hs : Still s t) (hm : ∀ j ∈ pools, j ∈ i :: pools) :
    ServedBy size needed (i :: pools) p s u := by
  obtain ⟨j, hj, v, hv, hle, heq⟩ := h
  exact ⟨j, hm j hj, v, hs.trans hv, (hs.maxBytes j).symm ▸ hle, heq⟩

lemma tryLarge_some (h : tryLarge E size needed pools preferred s = ((some p, preferred'), t)) :
    ServedBy size needed pools p s t := by
  induction pools generalizing preferred s with
  | nil => cases h
  | cons i pools ih =>
    have hmem : ∀ j ∈ pools, j ∈ i :: pools := fun j => mem_cons_of_mem i
    unfold tryLarge at h
    split_ifs at h with hskip
    · exact (ih h).mono (.refl s) hmem
    · have hrep : Still s (reportUsage E i (s.buf i).poolUsedBytes s) := .of_quiet (reportUsage_quiet i _ s)
      generalize reportUsage E i (s.buf i).poolUsedBytes s = u at h hrep
      generalize hm : memBufferMalloc i size u = x at h
      obtain ⟨_ | q, v⟩ := x
      · obtain rfl := poolMalloc_none_eq hm
        exact (ih h).mono hrep hmem
      · cases h
        exact ⟨i, mem_cons_self, u, hrep, by omega, hm⟩

lemma tryLarge_none (h : tryLarge E size needed pools preferred s = ((none, preferred'), t)) :
    Still s t ∧ ∀ i ∈ pools, needed > poolMaxBytes (s.buf i) ∨ (s.buf i).poolBlockSize < needed ∨ Refused size i s := by
  induction pools generalizing preferred s with
  | nil =>
    cases h
    exact ⟨.refl _, by simp⟩
  | cons i pools ih =>
    unfold tryLarge at h
    split_ifs at h with hskip
    · obtain ⟨hst, hrest⟩ := ih h
      exact ⟨hst, forall_mem_cons.2 ⟨by tauto, hrest⟩⟩
    · have hrep : Still s (reportUsage E i (s.buf i).poolUsedBytes s) := .of_quiet (reportUsage_quiet i _ s)
      generalize reportUsage E i (s.buf i).poolUsedBytes s = u at h hrep
      generalize hm : memBufferMalloc i size u = x at h
      obtain ⟨_ | q, v⟩ := x
      · obtain rfl := poolMalloc_none_eq hm
        obtain ⟨hst, hrest⟩ := ih h
        refine ⟨hrep.trans hst, forall_mem_cons.2 ⟨.inr (.inr ⟨_, hrep, by rw [hm]⟩), fun j hj => ?_⟩⟩
        have hbs : (v.buf j).poolBlockSize = (s.buf j).poolBlockSize := (hrep.same j).blockSize
        rw [← hrep.maxBytes j, ← hbs]
        exact (hrest j hj).imp_right (Or.imp_right fun ⟨w, hw, hn⟩ => ⟨w, hrep.trans hw, hn⟩)
      · cases h

lemma trySmall_some (h : trySmall size needed pools s = (some p, t)) : ServedBy size needed pools p s t := by
  induction pools with
  | nil => cases h
  | cons i pools ih =>
    have hmem : ∀ j ∈ pools, j ∈ i :: pools := fun j => mem_cons_of_mem i
    unfold trySmall at h
    split_ifs at h with hskip
    · exact (ih h).mono (.refl s) hmem
    · generalize hm : memBufferMalloc i size s = x at h
      obtain ⟨_ | q, v⟩ := x
      · obtain rfl := poolMalloc_none_eq hm
        exact (ih h).mono (.refl v) hmem
      · cases h
        exact ⟨i, mem_cons_self, s, .refl s, by omega, hm⟩

lemma trySmall_none (h : trySmall size needed pools s = (none, t)) :
    t = s ∧ ∀ i ∈ pools, needed > poolMaxBytes (s.buf i) ∨ (s.buf i).poolBlockSize ≥ needed ∨ Refused size i s := by
  induction pools with
  | nil =>
    cases h
    exact ⟨rfl, by simp⟩
  | cons i pools ih =>
    unfold trySmall at h
    split_ifs at h with hskip
    · obtain ⟨hst, hrest⟩ := ih h
      exact ⟨hst, forall_mem_cons.2 ⟨by tauto, hrest⟩⟩
    · generalize hm : memBufferMalloc i size s = x at h
      obtain ⟨_ | q, v⟩ := x
      · obtain rfl := poolMalloc_none_eq hm
        obtain ⟨hst, hrest⟩ := ih h
        exact ⟨hst, forall_mem_cons.2 ⟨.inr (.inr ⟨v, .refl v, by rw [hm]⟩), hrest⟩⟩
      · cases h

lemma notifyPreferred_still (preferred : Option ℕ) (s : Sys σ) : Still s (notifyPreferred E preferred s) := by
  cases preferred with
  | none => exact .refl s
  | some i => exact .of_quiet (quiet_notify i .critical s)

lemma customMalloc_some (hne : s.lwipPools ≠ []) (h : memBufferCustomMalloc E size s = (some p, t)) :
    ServedBy size (size + 2) s.lwipPools p s t := by
  unfold memBufferCustomMalloc at h
  simp only [if_neg hne] at h
  by_cases hmax : size > sizeMax - 2
  · rw [if_pos hmax] at h
    cases h
  rw [if_neg hmax] at h
  generalize hl : tryLarge E size (size + 2) s.lwipPools none s = x at h
  obtain ⟨⟨_ | q, preferred⟩, u⟩ := x
  · -- from the second pass
    have hst := (tryLarge_none hl).1.trans (notifyPreferred_still (E := E) preferred u)
    obtain ⟨i, hi, v, hv, hle, heq⟩ := trySmall_some h
    rw [hst.pools] at hi
    exact ⟨i, hi, v, hst.trans hv, hst.maxBytes i ▸ hle, heq⟩
  · cases h
    exact tryLarge_some hl

lemma customMalloc_none (hne : s.lwipPools ≠ []) (h : memBufferCustomMalloc E size s = (none, t)) :
    Still s t ∧ (size > sizeMax - 2 ∨ ∀ i ∈ s.lwipPools, size + 2 > poolMaxBytes (s.buf i) ∨ Refused size i s) := by
  unfold memBufferCustomMalloc at h
  simp only [if_neg hne] at h
  by_cases hmax : size > sizeMax - 2
  · rw [if_pos hmax] at h
    cases h
    exact ⟨.refl _, .inl hmax⟩
  rw [if_neg hmax] at h
  generalize hl : tryLarge E size (size + 2) s.lwipPools none s = x at h
  obtain ⟨⟨_ | q, preferred⟩, u⟩ := x
  · obtain ⟨hu, hlarge⟩ := tryLarge_none hl
    have hst := hu.trans (notifyPreferred_still (E := E) preferred u)
    obtain ⟨rfl, hsmall⟩ := trySmall_none h
    refine ⟨hst, .inr fun i hi => ?_⟩
    have h2 := hsmall i (hst.pools ▸ hi)
    rw [hst.maxBytes i, poolBlockSize, (hst.same i).blockSize] at h2
    rcases hlarge i hi with h1 | h1 | h1
    · exact .inl h1
    · rcases h2 with h2 | h2 | ⟨v, hv, hr⟩
      · exact .inl h2
      · exact absurd h1 (Nat.not_lt.2 h2)
      · exact .inr ⟨v, hst.trans hv, hr⟩
    · exact .inr h1
  · cases h

end Passes

end LwftpCe.Buffer
