import LwftpCe.Buffer.Chunks
import LwftpCe.Lib.Trace
import Mathlib.Data.List.Nodup

/-!
# The allocator of lwIP

The pools of `mem_buffer_lwip_init_pools`, with clients that ask for memory, give it back and write into it.  `Good` is the
invariant: every pool holds the pieces that come from it, and the memory of the pools is disjoint.
-/

namespace LwftpCe.Buffer

open Lib List Function Sys

variable {σ : Type} {E : Env σ} {i : ℕ} {s t : Sys σ} {rb rb' : MemBuffer} {cfgs : List PoolCfg}

/-! ### The pools with the pieces of the clients -/

def Disjoint (rb rb' : MemBuffer) : Prop :=
  rb.buf.base + rb.buf.size ≤ rb'.buf.base ∨ rb'.buf.base + rb'.buf.size ≤ rb.buf.base

instance : Decidable (Disjoint rb rb') := inferInstanceAs (Decidable (_ ∨ _))

structure Good (s : Sys σ) (live : List Chunk) : Prop where
  ne : s.lwipPools ≠ []
  isPool : ∀ i ∈ s.lwipPools, IsPool (s.buf i)
  holds : ∀ i ∈ s.lwipPools, Holds (s.buf i) (live.filter (·.ptr.pool = i))
  owned : ∀ c ∈ live, c.ptr.pool ∈ s.lwipPools
  size : ∀ c ∈ live, 0 < c.size
  apart : ∀ i ∈ s.lwipPools, ∀ j ∈ s.lwipPools, i ≠ j → Disjoint (s.buf i) (s.buf j)

namespace Good

variable {live live' : List Chunk} {c : Chunk} {size : ℕ} {p : Ptr}

lemma update (h : Good s live) (hbuf : ∀ j, j ≠ i → t.buf j = s.buf j) (hpools : t.lwipPools = s.lwipPools)
    (hsame : Same (s.buf i) (t.buf i)) (hholds : Holds (t.buf i) (live'.filter (·.ptr.pool = i)))
    (hother : ∀ j, j ≠ i → live'.filter (·.ptr.pool = j) = live.filter (·.ptr.pool = j))
    (howned : ∀ c ∈ live', c.ptr.pool ∈ s.lwipPools) (hsize : ∀ c ∈ live', 0 < c.size) : Good t live' := by
  have hs : ∀ j, Same (s.buf j) (t.buf j) := by
    intro j
    rcases eq_or_ne j i with rfl | hne
    · exact hsame
    · rw [hbuf j hne]
      exact ⟨rfl, rfl, rfl, rfl, rfl, rfl, rfl, rfl⟩
  constructor
  · exact hpools ▸ h.ne
  · rw [hpools]
    exact fun j hj => (hs j).isPool (h.isPool j hj)
  · rw [hpools]
    intro j hj
    rcases eq_or_ne j i with rfl | hne
    · exact hholds
    · rw [hbuf j hne, hother j hne]
      exact h.holds j hj
  · exact hpools ▸ howned
  · exact hsize
  · rw [hpools]
    intro j hj k hk hne
    unfold Disjoint
    rw [(hs j).base, (hs j).size, (hs k).base, (hs k).size]
    exact h.apart j hj k hk hne

lemma still (h : Good s live) (hst : Still s t) : Good t live := by
  constructor
  · exact hst.pools ▸ h.ne
  · rw [hst.pools]
    exact fun j hj => (hst.same j).isPool (h.isPool j hj)
  · rw [hst.pools]
    exact fun j hj => hst.holds (h.holds j hj)
  · exact hst.pools ▸ h.owned
  · exact h.size
  · rw [hst.pools]
    intro j hj k hk hne
    unfold Disjoint
    rw [(hst.same j).base, (hst.same j).size, (hst.same k).base, (hst.same k).size]
    exact h.apart j hj k hk hne

lemma mem_filter (hc : c ∈ live) : c ∈ live.filter (·.ptr.pool = c.ptr.pool) := List.mem_filter.2 ⟨hc, by simp⟩

variable (h : Good s live)

include h

lemma inside (hc : c ∈ live) : (s.buf c.ptr.pool).buf.base + 2 ≤ c.ptr.addr ∧
      c.ptr.addr + c.size ≤ (s.buf c.ptr.pool).buf.base + (s.buf c.ptr.pool).cap := by
  have hpool := h.isPool _ (h.owned c hc)
  have hh := h.holds _ (h.owned c hc)
  have haddr := hh.addr c (mem_filter hc)
  have hin := hh.inside hpool.toShaped (mem_filter hc)
  omega

lemma served (hserved : ServedBy size (size + 2) s.lwipPools p s t) : Good t (⟨p, size⟩ :: live) := by
  obtain ⟨i, hi, u, hu, hle, hm⟩ := hserved
  have hgood := h.still hu
  have hi' : i ∈ u.lwipPools := hu.pools ▸ hi
  obtain ⟨hsize, rfl, hsame, hholds⟩ := poolMalloc_some (hgood.isPool i hi').toShaped (hgood.holds i hi') (hu.maxBytes i ▸ hle) hm
  have hbeside := poolMalloc_beside (i := p.pool) size u
  rw [hm] at hbeside
  refine hgood.update hbeside.buf hbeside.pools hsame ?_ (fun j hj => ?_) (forall_mem_cons.2 ⟨hi', hgood.owned⟩)
    (forall_mem_cons.2 ⟨hsize, hgood.size⟩)
  · rw [filter_cons_of_pos (by simp)]
    exact hholds
  · rw [filter_cons_of_neg (by simpa using hj.symm)]

lemma customFree_eq (hc : c ∈ live) :
    memBufferCustomFree E c.ptr.addr s = memBufferFree E c.ptr.pool c.ptr.addr s := by
  have hin := h.inside hc
  have hsize := h.size c hc
  have hends : ∀ i ∈ s.lwipPools, uadd (s.buf i).buf.base (s.buf i).cap = (s.buf i).buf.base + (s.buf i).cap := fun i hi => by
    have := (h.isPool i hi).room
    have := (h.isPool i hi).size
    exact uadd_of_lt (by omega)
  unfold memBufferCustomFree
  rw [if_neg (by omega)]
  simp only
  generalize hf : s.lwipPools.find? _ = found
  cases found with
  | none =>
    have := List.find?_eq_none.1 hf c.ptr.pool (h.owned c hc)
    rw [hends _ (h.owned c hc), decide_eq_true_eq] at this
    omega
  | some i =>
    have hi := mem_of_find?_eq_some hf
    have howns := List.find?_some hf
    rw [hends i hi, decide_eq_true_eq] at howns
    rcases eq_or_ne i c.ptr.pool with rfl | hne
    · rfl
    · have hdis := h.apart i hi _ (h.owned c hc) hne
      have := (h.isPool i hi).size
      have := (h.isPool _ (h.owned c hc)).size
      unfold Disjoint at hdis
      omega

lemma freed (hc : c ∈ live) : Good (memBufferCustomFree E c.ptr.addr s) (live.filter (· ≠ c)) := by
  have hpool := h.isPool _ (h.owned c hc)
  have hholds := h.holds _ (h.owned c hc)
  rw [h.customFree_eq hc, poolFree_give hpool hholds (mem_filter hc)]
  generalize hrun : giveRun (c.start (s.buf c.ptr.pool)) (c.blocks (s.buf c.ptr.pool)) = run
  have hgive : Good (s.onBuf c.ptr.pool run) (live.filter (· ≠ c)) := by
    refine h.update (fun j hj => onBuf_other hj _ s) rfl ?_ ?_ (fun j hj => ?_) (fun d hd => h.owned d (mem_of_mem_filter hd))
      fun d hd => h.size d (mem_of_mem_filter hd)
    · rw [onBuf_self, ← hrun, giveRun]
      exact .setPool _ _ _ _
    · rw [onBuf_self, ← hrun, filter_filter, filter_congr fun d _ => Bool.and_comm _ _, ← filter_filter]
      exact giveRun_holds hpool.toShaped hholds (mem_filter hc)
    · rw [filter_filter]
      refine filter_congr fun d _ => ?_
      by_cases hd : d = c
      · simp [hd, hj.symm]
      · simp [hd]
  exact hgive.still (.of_quiet (quiet_maybeClear _ _))

lemma changed (hc : c ∈ live) {f : MemBuffer → Mem → Mem}
    (hf : ∀ k, k + (s.buf c.ptr.pool).buf.base < c.ptr.addr ∨ c.ptr.addr + c.size ≤ k + (s.buf c.ptr.pool).buf.base →
      f (s.buf c.ptr.pool) (s.buf c.ptr.pool).buf.bytes k = (s.buf c.ptr.pool).buf.bytes k) :
    Good (s.onBuf c.ptr.pool fun rb => rb.onBytes (f rb)) live := by
  have hpool := h.isPool _ (h.owned c hc)
  have hholds := h.holds _ (h.owned c hc)
  have haddr := hholds.addr c (mem_filter hc)
  refine h.update (fun j hj => onBuf_other hj _ s) rfl ?_ ?_ (fun _ _ => rfl) h.owned h.size
  · rw [onBuf_self]
    exact ⟨rfl, rfl, rfl, rfl, rfl, rfl, rfl, rfl⟩
  · rw [onBuf_self]
    exact ⟨hholds.tiled, hholds.used, hholds.addr, fun d hd =>
      hholds.header_write hpool.toShaped (mem_filter hc) hd fun k hk => hf k (by omega)⟩

end Good

/-! ### New pools -/

structure Fresh (rb : MemBuffer) : Prop where
  pool : rb.flags.mallocType = true
  pos : 0 < rb.poolBlockSize
  count : rb.poolBlockCount * rb.poolBlockSize ≤ rb.cap
  size : rb.cap ≤ rb.buf.size
  bitmap : rb.poolBitmap.isSome
  used : rb.poolUsedBlocks = 0
  blocks : rb.poolBlockCount = rb.cap / rb.poolBlockSize
  clear : rb.poolBlockCount ≤ 65535 → ∀ j < rb.poolBlockCount, Bitmap.test rb.bits j = false

lemma create_fresh {initialCap maxCap lockSize : ℕ} {flags : Flags} (hpool : flags.mallocType = true)
    (h : memBufferCreate E initialCap maxCap lockSize flags s = (some i, t)) : Fresh (t.buf i) := by
  obtain ⟨-, cfg, self, b, w, hw, hsize, ht⟩ := create_buffer h
  rw [hpool] at ht
  obtain ⟨v, hmake, ht⟩ := ht
  obtain ⟨-, hf, -⟩ | ⟨hpos, -, ⟨hf, -⟩ | ⟨cfg', -, ⟨hf, -⟩ | ⟨b', -, -, hzero, -, rfl⟩⟩⟩ := makePool_cases rfl rfl hmake
  · cases hf
  · cases hf
  · cases hf
  have hbuf : t.buf i = { asPool (poolSize lockSize (w.buf i)) (w.buf i) with poolBitmap := some b' } :=
    (congrFun ht i).trans (update_self ..)
  have hflags : (w.buf i).flags = flags := by rw [hw]; rfl
  have hb : (w.buf i).buf = b := by rw [hw]; rfl
  have hused : (w.buf i).u₂ = 0 := by rw [hw]; rfl
  rw [hbuf]
  generalize hbs : poolSize lockSize (w.buf i) = bs at *
  generalize w.buf i = rb at *
  refine ⟨hflags ▸ hpool, hpos, Nat.div_mul_le_self _ _, hb ▸ hsize, rfl, hused, rfl, fun hfew j hj => ?_⟩
  -- the bitmap has a bit for every block
  have hfew' : rb.cap / bs ≤ 65535 := hfew
  have hj' : j < rb.cap / bs := hj
  have hlt : (65535 + 7 : ℕ) < uintRange := by decide
  have hbyte : b'.bytes (j / 8) = 0 := hzero _ (by
    rw [bitmapSize, uadd_of_lt (by omega)]
    omega)
  change Bitmap.test b'.bytes j = false
  rw [Bitmap.test, hbyte]
  simp

lemma settle_perm (size : ℕ → ℕ) (x : ℕ) (ys : List ℕ) : ((settle size x ys).1 :: (settle size x ys).2).Perm (x :: ys) := by
  induction ys generalizing x with
  | nil => exact .refl _
  | cons y ys ih =>
    unfold settle
    split_ifs
    · exact (List.Perm.swap _ _ _).trans ((List.Perm.cons _ (ih y)).trans (.refl _))
    · exact (List.Perm.swap _ _ _).trans ((List.Perm.cons _ (ih x)).trans (List.Perm.swap _ _ _))

lemma sortPools_perm (size : ℕ → ℕ) (n : ℕ) (xs : List ℕ) : (memBufferSortPools size n xs).Perm xs := by
  induction n generalizing xs with
  | zero => exact .refl _
  | succ n ih =>
    cases xs with
    | nil => exact .refl _
    | cons x xs => exact (List.Perm.cons _ (ih _)).trans (settle_perm size x xs)

lemma initPool_fresh (h : ∀ i ∈ s.lwipPools, i < s.calls ∧ Fresh (s.buf i)) (c : PoolCfg) :
    ∀ i ∈ (initPool E s c).lwipPools, i < (initPool E s c).calls ∧ Fresh ((initPool E s c).buf i) := by
  unfold initPool
  by_cases h0 : c.blockSize = 0 ∨ c.blockCount = 0
  · simp only [if_pos h0]
    exact h
  simp only [if_neg h0]
  generalize hcreate : memBufferCreate E _ _ c.blockSize { c.flags with mallocType := true } s = x
  obtain ⟨r, t⟩ := x
  obtain ⟨hbeside, hnew⟩ := create_beside hcreate
  have hold : ∀ i ∈ s.lwipPools, i < t.calls ∧ Fresh (t.buf i) ∧ i ≠ s.calls := fun i hi =>
    have hlt := (h i hi).1
    ⟨lt_of_lt_of_le hlt hbeside.calls, hbeside.buf i hlt.ne ▸ (h i hi).2, hlt.ne⟩
  have hpools : t.lwipPools = s.lwipPools := hbeside.pools
  cases r with
  | none =>
    simp only [hpools]
    exact fun i hi => ⟨(hold i hi).1, (hold i hi).2.1⟩
  | some j =>
    obtain ⟨rfl, hlt, -⟩ := hnew j rfl
    simp only [hpools, forall_mem_append, forall_mem_singleton]
    refine ⟨fun i hi => ⟨(hold i hi).1, ?_⟩, hlt, ?_⟩
    · rw [onBuf_other (hold i hi).2.2]
      exact (hold i hi).2.1
    · have hf := create_fresh rfl hcreate
      rw [onBuf_self]
      exact ⟨hf.pool, hf.pos, hf.count, hf.size, hf.bitmap, hf.used, hf.blocks, hf.clear⟩

lemma initPools_fresh (h : memBufferLwipInitPools E cfgs s = (true, t)) : t.lwipPools ≠ [] ∧ ∀ i ∈ t.lwipPools, Fresh (t.buf i) := by
  have hfold : ∀ (l : List PoolCfg) {u : Sys σ}, (∀ i ∈ u.lwipPools, i < u.calls ∧ Fresh (u.buf i)) →
      ∀ i ∈ (l.foldl (initPool E) u).lwipPools, Fresh ((l.foldl (initPool E) u).buf i) := by
    intro l
    induction l with
    | nil => exact fun hu i hi => (hu i hi).2
    | cons c l ih => exact fun hu => ih (initPool_fresh hu c)
  have hf := hfold (cfgs.take 6) (u := { s with lwipPools := [] }) (by simp)
  unfold memBufferLwipInitPools at h
  generalize (cfgs.take 6).foldl (initPool E) { s with lwipPools := [] } = u at h hf
  simp only at h
  split_ifs at h with h1 h2
  · cases h
  · cases h
  · cases h
    have hperm := sortPools_perm (fun i => (u.buf i).poolBlockSize) (u.lwipPools.length - 1) u.lwipPools
    refine ⟨fun hnil => h2 ?_, fun i hi => hf i (hperm.mem_iff.1 hi)⟩
    rw [show memBufferSortPools _ _ u.lwipPools = [] from hnil] at hperm
    exact nil_perm.1 hperm

/-! ### Runs -/

/-- The module with the pieces that the clients have. -/
structure Clients (σ : Type) where
  sys : Sys σ
  live : List Chunk := []

/-- What the clients do: they ask for memory, give it back, and write into it. -/
inductive ClientOp where
  | malloc (size : ℕ)
  | calloc (count size : ℕ)
  | free (c : Chunk)
  | write (c : Chunk) (off : ℕ) (data : Bytes)

namespace Clients

def got (m : Clients σ) (size : ℕ) : Option Ptr × Sys σ → Clients σ
  | (none, s) => ⟨s, m.live⟩
  | (some p, s) => ⟨s, ⟨p, size⟩ :: m.live⟩

def step (E : Env σ) (m : Clients σ) : ClientOp → Option (Clients σ)
  | .malloc size => some (m.got size (memBufferCustomMalloc E size m.sys))
  | .calloc count size => some (m.got (umul count size) (memBufferCustomCalloc E count size m.sys))
  | .free c => some ⟨memBufferCustomFree E c.ptr.addr m.sys, m.live.filter (· ≠ c)⟩
  | .write c off data =>
    some ⟨m.sys.onBuf c.ptr.pool fun rb => rb.onBytes (·.write (c.ptr.addr - rb.buf.base + off) data), m.live⟩

def allowed (m : Clients σ) : ClientOp → Bool
  | .free c => c ∈ m.live
  | .write c off data => c ∈ m.live ∧ off + data.length ≤ c.size
  | _ => true

variable {m m' : Clients σ} {size : ℕ}

lemma got_good (h : Good m.sys m.live) {x : Option Ptr × Sys σ} (hnone : x.1 = none → Still m.sys x.2)
    (hsome : ∀ p, x.1 = some p → Good x.2 (⟨p, size⟩ :: m.live)) : Good (m.got size x).sys (m.got size x).live := by
  obtain ⟨_ | p, t⟩ := x
  · exact h.still (hnone rfl)
  · exact hsome p rfl

lemma malloc_good (h : Good m.sys m.live) (size : ℕ) :
    Good (m.got size (memBufferCustomMalloc E size m.sys)).sys (m.got size (memBufferCustomMalloc E size m.sys)).live :=
  got_good h (fun hn => (customMalloc_none h.ne (Prod.ext hn rfl)).1) fun _ hp =>
    h.served (customMalloc_some h.ne (Prod.ext hp rfl))

lemma calloc_good (h : Good m.sys m.live) (count size : ℕ) :
    Good (m.got (umul count size) (memBufferCustomCalloc E count size m.sys)).sys
      (m.got (umul count size) (memBufferCustomCalloc E count size m.sys)).live := by
  have hm := malloc_good (E := E) h (umul count size)
  unfold memBufferCustomCalloc
  split_ifs
  · exact h
  · exact h
  · simp only
    generalize memBufferCustomMalloc E (umul count size) m.sys = x at hm
    obtain ⟨_ | p, t⟩ := x
    · exact hm
    · -- the bytes of the new piece are cleared
      have hgood : Good t (⟨p, umul count size⟩ :: m.live) := hm
      have hin := hgood.inside mem_cons_self
      refine hgood.changed mem_cons_self
        (f := fun rb m => m.fill (p.addr - rb.buf.base) (umul count size) 0) fun k hk => ?_
      simp only at hk hin
      change (t.buf p.pool).buf.bytes.fill (p.addr - (t.buf p.pool).buf.base) (umul count size) 0 k = _
      exact if_neg (by omega)

lemma step_good {op : ClientOp} (h : Good m.sys m.live) (hok : m.allowed op) (hs : m.step E op = some m') : Good m'.sys m'.live := by
  cases op with
  | malloc size =>
    cases hs
    exact malloc_good h size
  | calloc count size =>
    cases hs
    exact calloc_good h count size
  | free c =>
    cases hs
    exact h.freed (of_decide_eq_true hok)
  | write c off data =>
    cases hs
    simp only [allowed, decide_eq_true_eq] at hok
    have hin := h.inside hok.1
    refine h.changed hok.1 (f := fun rb m => m.write (c.ptr.addr - rb.buf.base + off) data) fun k hk => ?_
    rcases hk with hk | hk
    · exact Mem.write_before k (by omega)
    · exact Mem.write_behind k (by omega)

end Clients

/-! ### What holds in every state -/

/-- The rounding of the request to blocks is no more than a `size_t` holds, where the pool is large enough for it. -/
def Rounds (rb : MemBuffer) (size : ℕ) : Prop := size + 2 ≤ poolMaxBytes rb → size + 1 + rb.poolBlockSize < uintRange

structure Sound (E : Env σ) (m : Clients σ) : Prop where
  /-- a piece is inside the memory of its pool, with its header -/
  inside : ∀ c ∈ m.live, c.ptr.pool ∈ m.sys.lwipPools ∧ (m.sys.buf c.ptr.pool).buf.base + 2 ≤ c.ptr.addr ∧
    c.ptr.addr + c.size ≤ (m.sys.buf c.ptr.pool).buf.base + (m.sys.buf c.ptr.pool).buf.size
  /-- and disjoint from every other piece and its header -/
  apart : m.live.Pairwise fun c d => c.ptr.addr + c.size ≤ d.ptr.addr - 2 ∨ d.ptr.addr + d.size ≤ c.ptr.addr - 2
  /-- the bitmap is the union of the runs -/
  bits : ∀ i ∈ m.sys.lwipPools, ∀ j < (m.sys.buf i).poolBlockCount, Bitmap.test (m.sys.buf i).bits j = true ↔
    ∃ c ∈ m.live, c.ptr.pool = i ∧ c.start (m.sys.buf i) ≤ j ∧ j < c.start (m.sys.buf i) + c.blocks (m.sys.buf i)
  used : ∀ i ∈ m.sys.lwipPools,
    (m.sys.buf i).poolUsedBlocks = Bitmap.count (m.sys.buf i).bits (m.sys.buf i).poolBlockCount
  /-- `mem_buffer_custom_free` of a piece clears its run, and nothing else -/
  frees : ∀ c ∈ m.live, ∀ i ∈ m.sys.lwipPools, ∀ j < (m.sys.buf i).poolBlockCount,
    Bitmap.test ((memBufferCustomFree E c.ptr.addr m.sys).buf i).bits j = true ↔ Bitmap.test (m.sys.buf i).bits j = true ∧
      ¬ (i = c.ptr.pool ∧ c.start (m.sys.buf i) ≤ j ∧ j < c.start (m.sys.buf i) + c.blocks (m.sys.buf i))
  /-- `mem_buffer_custom_malloc` serves a request if a pool has room for it -/
  serves : ∀ size, 0 < size → (∀ i ∈ m.sys.lwipPools, Rounds (m.sys.buf i) size) →
    (memBufferCustomMalloc E size m.sys).1 = none →
    ∀ i ∈ m.sys.lwipPools, ¬ HasRun (m.sys.buf i) (blocksFor (m.sys.buf i) size)

section Sound

variable {live : List Chunk} {c : Chunk} {size : ℕ}

lemma Good.nodup (h : Good s live) : live.Nodup := by
  rw [nodup_iff_count_le_one]
  intro c
  by_cases hc : c ∈ live
  · have hfilter := nodup_iff_count_le_one.1 (h.holds _ (h.owned c hc)).tiled.nodup c
    rwa [count_filter (by simp)] at hfilter
  · rw [count_eq_zero_of_not_mem hc]
    exact Nat.zero_le 1

lemma Good.pairwise (h : Good s live) :
    live.Pairwise fun c d => c.ptr.addr + c.size ≤ d.ptr.addr - 2 ∨ d.ptr.addr + d.size ≤ c.ptr.addr - 2 := by
  refine List.Nodup.pairwise_of_forall_ne h.nodup fun c hc d hd hne => ?_
  have hpc := h.isPool _ (h.owned c hc)
  have hpd := h.isPool _ (h.owned d hd)
  have hic := h.inside hc
  have hid := h.inside hd
  rcases eq_or_ne c.ptr.pool d.ptr.pool with heq | hpool
  · -- two runs of one pool
    have hh := h.holds _ (h.owned c hc)
    have hd' : d ∈ live.filter (·.ptr.pool = c.ptr.pool) := List.mem_filter.2 ⟨hd, by simp [heq]⟩
    have happart := bytes_apart hpc.toShaped (hh.tiled.apart_of_mem (Good.mem_filter hc) hd' hne.symm)
    have hac := hh.addr c (Good.mem_filter hc)
    have had := hh.addr d hd'
    omega
  · have hdis := h.apart _ (h.owned c hc) _ (h.owned d hd) hpool
    have := hpc.size
    have := hpd.size
    unfold Disjoint at hdis
    omega

lemma Good.frees (h : Good s live) (hc : c ∈ live) {j : ℕ} :
    Bitmap.test ((memBufferCustomFree E c.ptr.addr s).buf i).bits j = true ↔ Bitmap.test (s.buf i).bits j = true ∧
      ¬ (i = c.ptr.pool ∧ c.start (s.buf i) ≤ j ∧ j < c.start (s.buf i) + c.blocks (s.buf i)) := by
  have hpool := h.isPool _ (h.owned c hc)
  have hholds := h.holds _ (h.owned c hc)
  rw [h.customFree_eq hc, poolFree_give hpool hholds (Good.mem_filter hc)]
  generalize hrun : giveRun (c.start (s.buf c.ptr.pool)) (c.blocks (s.buf c.ptr.pool)) = run
  obtain ⟨level, hl⟩ := (Still.of_quiet (quiet_maybeClear c.ptr.pool (s.onBuf c.ptr.pool run))).buf i
  have hbits : ((memPressureMaybeClear E c.ptr.pool (s.onBuf c.ptr.pool run)).buf i).bits =
      ((s.onBuf c.ptr.pool run).buf i).bits := by
    rw [hl]
    rfl
  rw [hbits]
  rcases eq_or_ne i c.ptr.pool with rfl | hne
  · rw [onBuf_self, ← hrun, giveRun, bits_setPool hpool.toShaped, Bitmap.test_clearBits, Bool.and_eq_true, decide_eq_true_eq,
      and_comm]
    simp only [true_and]
  · rw [onBuf_other hne]
    simp [hne]

lemma not_hasRun (hp : Shaped rb) (h : rb.poolBlockCount * rb.poolBlockSize < size + 2) : ¬ HasRun rb (blocksFor rb size) := by
  rintro ⟨a, hle, -⟩
  have h1 := le_blocksFor hp size
  have h2 := Nat.mul_le_mul_right rb.poolBlockSize (show blocksFor rb size ≤ rb.poolBlockCount by omega)
  omega

lemma Good.serves (h : Good s live) (hsize : 0 < size) (hsum : ∀ i ∈ s.lwipPools, Rounds (s.buf i) size)
    (hnone : (memBufferCustomMalloc E size s).1 = none) : ∀ i ∈ s.lwipPools, ¬ HasRun (s.buf i) (blocksFor (s.buf i) size) := by
  intro i hi
  have hp := h.isPool i hi
  have hcount := hp.count
  have hsz := hp.size
  have hroom := hp.room
  have hmax : poolMaxBytes (s.buf i) = (s.buf i).poolBlockCount * (s.buf i).poolBlockSize := by
    rw [poolMaxBytes, umul_of_lt (by rw [Nat.mul_comm]; omega), Nat.mul_comm]
  rcases (customMalloc_none h.ne (Prod.ext hnone rfl)).2 with hbig | hall
  · have : sizeMax = uintRange - 1 := rfl
    exact not_hasRun hp.toShaped (by omega)
  · by_cases hfit : size + 2 ≤ poolMaxBytes (s.buf i)
    · obtain hlt | ⟨u, hu, href⟩ := hall i hi
      · omega
      · -- the pool was asked in a state with the same bitmap
        have hbs : (u.buf i).poolBlockSize = (s.buf i).poolBlockSize := (hu.same i).blockSize
        have hblocks : blocksFor (u.buf i) size = blocksFor (s.buf i) size := by
          unfold blocksFor
          rw [hbs]
        have hno := poolMalloc_none ((hu.same i).shaped hp.toShaped) hsize (hu.maxBytes i ▸ hfit) (hbs ▸ hsum i hi hfit) href
        rwa [hblocks, hu.hasRun] at hno
    · exact not_hasRun hp.toShaped (by omega)

end Sound

/-- The pools do not grow or shrink, have at most 65535 blocks each, and are in distinct pieces of the address space. -/
structure Distinct (t : Sys σ) : Prop where
  step : ∀ i ∈ t.lwipPools, (t.buf i).step = 0
  few : ∀ i ∈ t.lwipPools, (t.buf i).poolBlockCount ≤ 65535
  placed : ∀ i ∈ t.lwipPools, 0 < (t.buf i).buf.base ∧ (t.buf i).buf.base + (t.buf i).buf.size < uintRange
  apart : ∀ i ∈ t.lwipPools, ∀ j ∈ t.lwipPools, i ≠ j → Disjoint (t.buf i) (t.buf j)

lemma initPools_good (hinit : memBufferLwipInitPools E cfgs s = (true, t)) (h : Distinct t) : Good t [] := by
  obtain ⟨hne, hfresh⟩ := initPools_fresh hinit
  refine ⟨hne, fun i hi => ?_, fun i hi => ?_, by simp, by simp, h.apart⟩
  · have hf := hfresh i hi
    exact ⟨⟨hf.pool, hf.pos, hf.count, hf.size, h.few i hi, (h.placed i hi).1, (h.placed i hi).2, hf.bitmap⟩, h.step i hi⟩
  · have hf := hfresh i hi
    have hclear := hf.clear (h.few i hi)
    refine ⟨.nil hclear, ?_, by simp, by simp⟩
    rw [hf.used, Bitmap.count, eq_comm, countP_eq_zero]
    exact fun j hj => by simp [hclear j (mem_range.1 hj)]

/-- **The allocator of lwIP is correct**, in every run in which only live pieces are given back and clients write inside
their pieces. -/
theorem pools_sound (E : Env σ) (cfgs : List PoolCfg) (s t : Sys σ) (hinit : memBufferLwipInitPools E cfgs s = (true, t))
    (hdistinct : Distinct t) (ops : List ClientOp) (m : Clients σ)
    (h : run (guarded Clients.allowed (Clients.step E)) ⟨t, []⟩ ops = some m) : Sound E m := by
  have hgood : Good m.sys m.live := by
    refine run_inv (fun m => Good m.sys m.live) ?_ (initPools_good hinit hdistinct) h
    intro m op m' hm hstep
    obtain ⟨hok, hstep⟩ := guarded_some.1 hstep
    exact Clients.step_good hm hok hstep
  constructor
  · intro c hc
    have hin := hgood.inside hc
    have := (hgood.isPool _ (hgood.owned c hc)).size
    exact ⟨hgood.owned c hc, hin.1, by omega⟩
  · exact hgood.pairwise
  · intro i hi j hj
    rw [(hgood.holds i hi).tiled.bits j hj]
    simp [and_assoc]
  · exact fun i hi => (hgood.holds i hi).used
  · exact fun c hc i _ j _ => hgood.frees hc
  · exact fun size hsize hsum hnone => hgood.serves hsize hsum hnone

theorem pools_sound_two :
    ∃ t m, memBufferLwipInitPools plainEnv [⟨64, 2, 0, {}, .unknown⟩, ⟨16, 4, 0, {}, .unknown⟩] (started 0 plenty) = (true, t) ∧
      t.lwipPools = [3, 0] ∧
      run (guarded Clients.allowed (Clients.step plainEnv)) ⟨t, []⟩
        [.malloc 10, .calloc 5 8, .write ⟨⟨0, 1002⟩, 40⟩ 38 [1, 2], .free ⟨⟨3, 4002⟩, 10⟩] = some m ∧
      m.live = [⟨⟨0, 1002⟩, 40⟩] ∧ Sound plainEnv m :=
  ⟨_, _, rfl, by decide +kernel, rfl, by decide +kernel,
    pools_sound plainEnv [⟨64, 2, 0, {}, .unknown⟩, ⟨16, 4, 0, {}, .unknown⟩] (started 0 plenty) _ rfl
      ⟨by decide +kernel, by decide +kernel, by decide +kernel, by decide +kernel⟩
      [.malloc 10, .calloc 5 8, .write ⟨⟨0, 1002⟩, 40⟩ 38 [1, 2], .free ⟨⟨3, 4002⟩, 10⟩] _ rfl⟩

def largeBlock : Sys Unit := (memBufferLwipInitPools plainEnv [⟨10000000, 1, 0, {}, .unknown⟩] (started 0 plenty)).2

/-- `needed + pool_block_size - 1` wraps around, and the request is refused although the block is free. -/
theorem malloc_refused_with_room :
    memBufferLwipInitPools plainEnv [⟨10000000, 1, 0, {}, .unknown⟩] (started 0 plenty) = (true, largeBlock) ∧
      Distinct largeBlock ∧ largeBlock.lwipPools = [0] ∧ (memBufferCustomMalloc plainEnv 9000000 largeBlock).1 = none ∧
      HasRun (largeBlock.buf 0) (blocksFor (largeBlock.buf 0) 9000000) := by
  refine ⟨rfl, ⟨by decide +kernel, by decide +kernel, by decide +kernel, by decide +kernel⟩, by decide +kernel,
    by decide +kernel, 0, by decide +kernel, fun j _ hj => ?_⟩
  have hblocks : blocksFor (largeBlock.buf 0) 9000000 = 1 := by decide +kernel
  obtain rfl : j = 0 := by omega
  decide +kernel

end LwftpCe.Buffer
