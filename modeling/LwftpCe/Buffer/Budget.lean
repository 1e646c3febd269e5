import LwftpCe.Buffer.Frame

/-!
# The budget

What a buffer holds is in `heap_used` (`held`): the structure, the block of the buffer, and the bitmap of a pool.  The
functions charge before they allocate, so between the two the accounts are off by what has been charged ahead:
`Weighed i n s t` says that `n` bytes are.
-/

namespace LwftpCe.Buffer

open Lib List Function Sys Option

variable {σ : Type} {E : Env σ} {i n k : ℕ} {s t u : Sys σ} {rb : MemBuffer} {cfg : Config} {bytes : ℕ}

/-! ### What a buffer holds -/

def bitmapHeld (rb : MemBuffer) : ℕ := (rb.poolBitmap.map Block.size).getD 0

def held (E : Env σ) (rb : MemBuffer) : ℕ := E.structSize + rb.buf.size + bitmapHeld rb

/-- The fields that say how much a buffer holds are right. -/
structure Sized (rb : MemBuffer) : Prop where
  size : rb.buf.size = rb.cap
  ring : rb.flags.mallocType = false → rb.len ≤ rb.cap
  pool : rb.flags.mallocType = true → rb.poolBlockCount * rb.poolBlockSize ≤ rb.cap
  bitmap : ∀ b, rb.poolBitmap = some b → b.size = rb.poolBitmapBytes

/-- The buffer `i` is sized, and `n` bytes have been charged beyond its growth. -/
structure Weighed (i n : ℕ) (s t : Sys σ) : Prop where
  beside : Beside i s t
  sized : Sized (t.buf i)
  bitmap : bitmapHeld (t.buf i) = bitmapHeld (s.buf i)
  kind : (t.buf i).flags = (s.buf i).flags ∧ (t.buf i).u₀ = (s.buf i).u₀
  used : t.cfg.heapUsed + (s.buf i).cap = s.cfg.heapUsed + (t.buf i).cap + n
  le : t.cfg.heapUsed ≤ s.cfg.maxHeap

/-- What is assumed of a buffer before an operation. -/
structure Within (i : ℕ) (s : Sys σ) : Prop where
  sized : Sized (s.buf i)
  cap : (s.buf i).cap ≤ s.cfg.heapUsed
  le : s.cfg.heapUsed ≤ s.cfg.maxHeap
  pos : 0 < s.cfg.maxHeap
  lt : s.cfg.maxHeap < uintRange

namespace Weighed

lemma refl (h : Within i s) : Weighed i 0 s s := ⟨.refl i s, h.sized, rfl, ⟨rfl, rfl⟩, rfl, h.le⟩

variable (h : Weighed i n s t)

include h

lemma trans (h' : Weighed i k t u) : Weighed i (n + k) s u := by
  have h1 := h.used
  have h2 := h'.used
  refine ⟨h.beside.trans h'.beside, h'.sized, h'.bitmap.trans h.bitmap,
    ⟨h'.kind.1.trans h.kind.1, h'.kind.2.trans h.kind.2⟩, by omega, ?_⟩
  have hmax := h.beside.maxHeap
  exact hmax ▸ h'.le

lemma onBuf {f : MemBuffer → MemBuffer} (hsized : Sized (f (t.buf i)))
    (hcap : (f (t.buf i)).cap = (t.buf i).cap) (hbitmap : (f (t.buf i)).poolBitmap = (t.buf i).poolBitmap)
    (hkind : (f (t.buf i)).flags = (t.buf i).flags ∧ (f (t.buf i)).u₀ = (t.buf i).u₀) : Weighed i n s (t.onBuf i f) := by
  refine ⟨h.beside.onBuf f, ?_, ?_, ?_, ?_, h.le⟩
  · rw [onBuf_self]
    exact hsized
  · rw [onBuf_self, bitmapHeld, hbitmap]
    exact h.bitmap
  · rw [onBuf_self, hkind.1, hkind.2]
    exact h.kind
  · rw [onBuf_self, hcap]
    exact h.used

lemma hits (a : MemBuffer → UInt16) (b : MemBuffer → UInt8) (c : MemBuffer → UInt16) :
    Weighed i n s (t.onBuf i fun rb => { rb with shrinkHits := a rb, shrinkStage := b rb, shrinkHoldNext := c rb }) :=
  h.onBuf ⟨h.sized.size, h.sized.ring, h.sized.pool, h.sized.bitmap⟩ rfl rfl ⟨rfl, rfl⟩

lemma quiet (hq : Quiet i t u) : Weighed i n s u := by
  obtain ⟨level, hl⟩ := hq.self
  refine ⟨h.beside.quiet hq, ?_, ?_, ?_, ?_, ?_⟩
  · rw [hl]
    exact ⟨h.sized.size, h.sized.ring, h.sized.pool, h.sized.bitmap⟩
  · rw [hl]
    exact h.bitmap
  · rw [hl]
    exact h.kind
  · rw [hl, hq.cfg]
    exact h.used
  · rw [hq.cfg]
    exact h.le

lemma release (hn : n ≤ t.cfg.heapUsed) : Weighed i 0 s (t.onCfg (memBufferRelease n)) := by
  have hused := h.used
  have hle := h.le
  have hrel : (t.onCfg (memBufferRelease n)).cfg.heapUsed = t.cfg.heapUsed - n := if_pos hn
  refine ⟨h.beside.release n, h.sized, h.bitmap, h.kind, ?_, ?_⟩
  · rw [hrel]
    change t.cfg.heapUsed - n + (s.buf i).cap = s.cfg.heapUsed + (t.buf i).cap + 0
    omega
  · omega

end Weighed

lemma charge_eq {cfg' : Config} (hpos : 0 < cfg.maxHeap) (hsum : cfg.heapUsed + bytes < uintRange)
    (h : memBufferCharge bytes cfg = some cfg') :
    cfg' = { cfg with heapUsed := cfg.heapUsed + bytes } ∧ cfg.heapUsed + bytes ≤ cfg.maxHeap := by
  unfold memBufferCharge at h
  rw [if_neg hpos.ne', uadd_of_lt hsum] at h
  split_ifs at h with hle
  cases h
  exact ⟨rfl, by omega⟩

/-! ### Resizing -/

section Resize

variable {newCap grow shrink : ℕ}

lemma resized_used (i newCap : ℕ) (b : Block) (h : shrink ≤ t.cfg.heapUsed) :
    (resized i newCap shrink b t).cfg.heapUsed = t.cfg.heapUsed - shrink := by
  unfold resized
  split_ifs with h0
  · exact if_pos h
  · obtain rfl : shrink = 0 := by omega
    rfl

lemma resized_weighed (h : Weighed i grow s t) (hcap : (t.buf i).cap = (s.buf i).cap) (hgrow : grow = newCap - (s.buf i).cap)
    (hshrink : shrink = (s.buf i).cap - newCap) (hle : shrink ≤ s.cfg.heapUsed) (hlen : (t.buf i).len ≤ newCap) {b : Block}
    (hb : b.size = newCap) : Weighed i 0 s (resized i newCap shrink b t) := by
  have hused := h.used
  have htle := h.le
  have hbuf := resized_buf i newCap shrink b t
  have hres := resized_used i newCap b (show shrink ≤ t.cfg.heapUsed by omega)
  refine ⟨resized_beside h.beside newCap shrink b, ?_, ?_, ?_, ?_, by omega⟩
  · rw [hbuf]
    exact ⟨hb, fun _ => hlen, fun _ => (Nat.zero_mul _).trans_le (Nat.zero_le _), h.sized.bitmap⟩
  · rw [hbuf]
    exact h.bitmap
  · rw [hbuf]
    exact h.kind
  · have hnew : ((resized i newCap shrink b t).buf i).cap = newCap := by rw [hbuf]
    omega

lemma giveBack_weighed (h : Weighed i grow s t) (hle : grow ≤ t.cfg.heapUsed) : Weighed i 0 s (giveBack grow t) := by
  unfold giveBack
  split_ifs with h0
  · exact h.release hle
  · obtain rfl : grow = 0 := by omega
    exact h

lemma resize_weighed (newCap : ℕ) (h : Within i s) (hsum : s.cfg.heapUsed + (newCap - (s.buf i).cap) < uintRange) :
    Weighed i 0 s (memBufferResize E i newCap s).2 := by
  have hcap := h.cap
  -- what was charged is held behind the call of the allocator
  have hcalled : ∀ {cfg g} (heap), charged i newCap s = some cfg →
      Weighed i (newCap - (s.buf i).cap) s (called i cfg g heap s) ∧
        newCap - (s.buf i).cap ≤ (called i cfg g heap s).cfg.heapUsed := by
    intro cfg g heap hcfg
    have hbeside := called_beside (.refl i s) hcfg g heap
    obtain ⟨rfl, hle⟩ : cfg = { s.cfg with heapUsed := s.cfg.heapUsed + (newCap - (s.buf i).cap) } ∧
        s.cfg.heapUsed + (newCap - (s.buf i).cap) ≤ s.cfg.maxHeap := by
      unfold charged at hcfg
      split_ifs at hcfg with hpos
      · exact charge_eq h.pos hsum hcfg
      · cases hcfg
        rw [show newCap - (s.buf i).cap = 0 by omega]
        exact ⟨rfl, h.le⟩
    refine ⟨⟨hbeside, ?_, ?_, ?_, ?_, hle⟩, Nat.le_add_left _ _⟩
    · rw [called_buf]
      exact ⟨h.sized.size, h.sized.ring, h.sized.pool, h.sized.bitmap⟩
    · rw [called_buf]
      rfl
    · rw [called_buf]
      exact ⟨rfl, rfl⟩
    · rw [called_buf]
      exact Nat.add_right_comm ..
  have hr := resize_resizes (E := E) (i := i) newCap s
  generalize memBufferResize E i newCap s = x at hr
  cases hr with
  | stays | refused => exact .refl h
  | @failed cfg g _ _ _ hcfg _ _ hv =>
    obtain ⟨hw, hle⟩ := hcalled s.heap hcfg
    rcases hv with rfl | rfl
    · exact giveBack_weighed hw hle
    · have hq := quiet_notify (E := E) i .critical (called i cfg g s.heap s)
      exact giveBack_weighed (hw.quiet hq) (hq.cfg ▸ hle)
  | moved hlen _ _ hcfg _ _ hsize =>
    exact resized_weighed (hcalled _ hcfg).1 (by rw [called_buf]; rfl) rfl rfl (by omega) (by rw [called_buf]; exact hlen) hsize

end Resize

/-! ### Growing and shrinking -/

lemma Within.weighed (h : Within i s) (hw : Weighed i 0 s t) : Within i t := by
  have hcap := h.cap
  have hused := hw.used
  have hmax := hw.beside.maxHeap
  exact ⟨hw.sized, by omega, hmax ▸ hw.le, hmax ▸ h.pos, hmax ▸ h.lt⟩

lemma maybeGrow_weighed (h : Within i s)
    (hsum : s.cfg.heapUsed + (growTarget (s.buf i) (uadd (s.buf i).len n) - (s.buf i).cap) < uintRange) :
    Weighed i 0 s (memBufferMaybeGrow E i n s).2 := by
  have hg := maybeGrow_growsTo (E := E) (i := i) n s
  have hq := reportUsage_quiet (E := E) i (uadd (s.buf i).len n) s
  generalize memBufferMaybeGrow E i n s = x at hg
  generalize reportUsage E i (uadd (s.buf i).len n) s = u at hg hq
  have hu : Weighed i 0 s u := (Weighed.refl h).quiet hq
  have hcap : (u.buf i).cap = (s.buf i).cap := by
    obtain ⟨level, hl⟩ := hq.self
    rw [hl]
  have hres : ∀ c ≤ growTarget (s.buf i) (uadd (s.buf i).len n), Weighed i 0 s (memBufferResize E i c u).2 := fun c hc =>
    hu.trans (resize_weighed _ (h.weighed hu) (by rw [hq.cfg]; omega))
  cases hg with
  | refused => exact hu.quiet (quiet_notify i _ u)
  | stays => exact hu
  | grown c hc => exact hres c hc.2
  | failed c hc => exact (hres c hc.2).quiet (quiet_notify i _ _)

lemma maybeShrink_weighed (h : Within i s) (hring : (s.buf i).flags.mallocType = false) (wrapped : Bool) :
    Weighed i 0 s (memBufferMaybeShrink E i wrapped s) := by
  have hself := Weighed.refl h
  have hlen := h.sized.ring hring
  have hlt : s.cfg.heapUsed < uintRange := lt_of_le_of_lt h.le h.lt
  unfold memBufferMaybeShrink
  simp only
  split_ifs
  · exact hself
  · exact hself
  · exact hself
  · exact hself.hits ..
  · exact hself
  · exact hself.hits ..
  · have hhit : Weighed i 0 s (s.onBuf i fun rb => { rb with shrinkHits := rb.shrinkHits + 1 }) := hself.hits ..
    have hres := resize_weighed (E := E) (max ((s.buf i).cap - (s.buf i).step) (s.buf i).len) (h.weighed hhit) (by
      rw [onBuf_self]
      change s.cfg.heapUsed + (max ((s.buf i).cap - (s.buf i).step) (s.buf i).len - (s.buf i).cap) < uintRange
      omega)
    have hw := hhit.trans hres
    exact hw.hits ..

lemma trailingFree_le (used : ℕ → Bool) (n : ℕ) : trailingFree used n ≤ n := by
  induction n with
  | zero => exact le_rfl
  | succ n ih =>
    unfold trailingFree
    split_ifs <;> omega

lemma shrinkPool_weighed (h : Within i s) (hpool : (s.buf i).flags.mallocType = true) : Weighed i 0 s (shrinkPool E i s) := by
  have hself := Weighed.refl h
  have hcount := h.sized.pool hpool
  have hcap := h.cap
  have hlt : s.cfg.heapUsed < uintRange := lt_of_le_of_lt h.le h.lt
  unfold shrinkPool
  simp only
  split_ifs with h1 h2 h3 h4 h5
  · exact hself
  · exact hself.hits ..
  · exact hself
  · exact hself.hits ..
  · exact hself.hits ..
  · have hhit : Weighed i 0 s (s.onBuf i fun rb => { rb with shrinkHits := rb.shrinkHits + 1 }) := hself.hits ..
    -- the step is made of blocks at the end of the pool
    have hfree := trailingFree_le (Bitmap.test (s.buf i).bits) (s.buf i).poolBlockCount
    have hstep : poolStep (s.buf i) ≤ (s.buf i).cap := by
      have hmul := Nat.mod_le (trailingFree (Bitmap.test (s.buf i).bits) (s.buf i).poolBlockCount * (s.buf i).poolBlockSize) uintRange
      have hblocks := Nat.mul_le_mul_right (s.buf i).poolBlockSize hfree
      unfold umul at h5
      omega
    have hnew : usub (s.buf i).cap (poolStep (s.buf i)) ≤ (s.buf i).cap := by
      rw [usub_of_le (by omega) hstep]
      omega
    generalize usub (s.buf i).cap (poolStep (s.buf i)) = newCap at *
    have hres := resize_weighed (E := E) newCap (h.weighed hhit) (by
      rw [onBuf_self]
      change s.cfg.heapUsed + (newCap - (s.buf i).cap) < uintRange
      omega)
    have hw := hhit.trans hres
    generalize hx : memBufferResize E i newCap _ = x at hw
    obtain ⟨ok, v⟩ := x
    have hv : Weighed i 0 s v := hw
    cases ok with
    | false => exact hv
    | true =>
      have hvcap := resize_cap hx
      exact hv.onBuf ⟨hv.sized.size, hv.sized.ring, fun _ => (Nat.div_mul_le_self _ _).trans hvcap.ge, hv.sized.bitmap⟩ rfl rfl ⟨rfl, rfl⟩

/-! ### Creation and destruction -/

def outstanding : List HeapObs → List ℕ
  | [] => []
  | .got id _ :: l => id :: outstanding l
  | .gave b :: l => (outstanding l).erase b.id

def Refunded (s t : Sys σ) : Prop := t.cfg.heapUsed = s.cfg.heapUsed ∧ outstanding t.heap = outstanding s.heap

lemma release_used (h : bytes ≤ cfg.heapUsed) : (memBufferRelease bytes cfg).heapUsed = cfg.heapUsed - bytes := if_pos h

lemma release_release {a b : ℕ} (h : a + b ≤ cfg.heapUsed) :
    memBufferRelease b (memBufferRelease a cfg) = memBufferRelease (a + b) cfg := by
  have ha : a ≤ cfg.heapUsed := by omega
  have hb : b ≤ cfg.heapUsed - a := by omega
  simp only [memBufferRelease, if_pos ha, if_pos hb, if_pos h, Nat.sub_sub]

lemma destroy_cfg (hsized : Sized (s.buf i)) (h : held E (s.buf i) ≤ s.cfg.heapUsed) :
    (memBufferDestroy E i s).cfg = memBufferRelease (held E (s.buf i)) s.cfg := by
  have hsize := hsized.size
  have hbitmap := hsized.bitmap
  unfold memBufferDestroy held bitmapHeld at *
  generalize s.buf i = rb at *
  cases hb : rb.poolBitmap with
  | none =>
    simp only [hb, map_none, getD_none, onCfg, free] at h ⊢
    rw [release_release (by omega)]
    congr 1
    omega
  | some b =>
    have hbytes := hbitmap b hb
    simp only [hb, map_some, getD_some, onCfg, free] at h ⊢
    rw [release_release (a := rb.cap) (by omega), release_release (by omega)]
    congr 1
    omega

/-- The buffer `s.calls` is being made: it has its two blocks, and they are paid for. -/
structure Making (E : Env σ) (s w : Sys σ) : Prop where
  beside : Beside s.calls s w
  used : w.cfg.heapUsed = s.cfg.heapUsed + E.structSize + (w.buf s.calls).cap
  size : (w.buf s.calls).buf.size = (w.buf s.calls).cap
  le : w.cfg.heapUsed ≤ s.cfg.maxHeap
  self : (w.buf s.calls).self.id = s.calls
  bitmap : (w.buf s.calls).poolBitmap = none
  out : outstanding w.heap = (w.buf s.calls).buf.id :: s.calls :: outstanding s.heap

section Create

variable {w : Sys σ} {initialCap maxCap lockSize : ℕ} {flags : Flags} {ok : Bool}

lemma Making.destroyed (h : Making E s w) : Refunded s (memBufferDestroy E s.calls w) := by
  have hused := h.used
  unfold memBufferDestroy
  simp only [h.bitmap, onCfg, free]
  constructor
  · rw [release_release (by omega), release_used (by omega)]
    omega
  · have hid : (cleared (w.buf s.calls)).id = (w.buf s.calls).buf.id := by
      unfold cleared
      split_ifs <;> rfl
    simp only [outstanding, h.out, hid, h.self, erase_cons_head]

lemma reallocNew_out {b : Block} {size : ℕ} {r : Option Block} (h : reallocNew b size s = (r, t)) (hid : b.id ≠ s.calls) :
    t.buf = s.buf ∧ t.cfg = s.cfg ∧
      match r with
      | none => s.allocs s.calls = none ∧ outstanding t.heap = outstanding s.heap
      | some b' => b'.size = size ∧ outstanding t.heap = b'.id :: (outstanding s.heap).erase b.id := by
  unfold reallocNew realloc malloc at h
  cases hr : s.allocs s.calls with
  | none =>
    simp only [hr] at h
    split_ifs at h <;> cases h <;> exact ⟨rfl, rfl, rfl, rfl⟩
  | some raw =>
    simp only [hr] at h
    split_ifs at h
    · cases h
      exact ⟨rfl, rfl, rfl, rfl⟩
    · cases h
      refine ⟨rfl, rfl, rfl, ?_⟩
      exact erase_cons_tail (by simpa using Ne.symm hid)

lemma Making.abandoned (hused : w.cfg.heapUsed = s.cfg.heapUsed + (E.structSize + initialCap))
    (hfit : E.structSize + initialCap < uintRange) (hself : rb.self.id = s.calls)
    (hout : outstanding w.heap = rb.buf.id :: s.calls :: outstanding s.heap) : Refunded s (abandon E initialCap rb w) := by
  unfold abandon
  rw [uadd_of_lt hfit]
  constructor
  · change (memBufferRelease (E.structSize + initialCap) w.cfg).heapUsed = _
    rw [release_used (by omega)]
    omega
  · simp only [onCfg, free, outstanding, hout, hself, erase_cons_head]

/-- The buffer behind its first two allocations: the block has the initial capacity. -/
structure Begun (E : Env σ) (initialCap : ℕ) (s v : Sys σ) : Prop where
  beside : Beside s.calls s v
  calls : v.calls = s.calls + 2
  used : v.cfg.heapUsed = s.cfg.heapUsed + (E.structSize + initialCap)
  le : v.cfg.heapUsed ≤ s.cfg.maxHeap
  size : (v.buf s.calls).buf.size = initialCap
  cap : (v.buf s.calls).flags.lockSize = false → (v.buf s.calls).cap = initialCap
  id : (v.buf s.calls).buf.id = s.calls + 1
  self : (v.buf s.calls).self.id = s.calls
  bitmap : (v.buf s.calls).poolBitmap = none
  out : outstanding v.heap = (v.buf s.calls).buf.id :: s.calls :: outstanding s.heap

lemma lockCap_making {v : Sys σ} (hv : Begun E initialCap s v) (hpos : 0 < s.cfg.maxHeap)
    (hsum : s.cfg.heapUsed + E.structSize + max initialCap (v.buf s.calls).cap < uintRange)
    (hshrink : (v.buf s.calls).cap < initialCap → s.allocs (s.calls + 2) ≠ none)
    (h : lockCap E s.calls initialCap v = (ok, w)) : if ok then Making E s w else Refunded s w := by
  have hused := hv.used
  have hsize := hv.size
  have hmax := hv.beside.maxHeap
  have hid : (v.buf s.calls).buf.id ≠ v.calls := by rw [hv.id, hv.calls]; omega
  have herase : (outstanding v.heap).erase (v.buf s.calls).buf.id = s.calls :: outstanding s.heap := by
    rw [hv.out, erase_cons_head]
  -- the buffer in a new block of the locked size
  have hnew : ∀ {u : Sys σ} {b : Block}, Beside s.calls s u → u.buf = v.buf → b.size = (v.buf s.calls).cap →
      u.cfg.heapUsed = s.cfg.heapUsed + E.structSize + (v.buf s.calls).cap → u.cfg.heapUsed ≤ s.cfg.maxHeap →
      outstanding u.heap = b.id :: s.calls :: outstanding s.heap →
      Making E s (u.onBuf s.calls fun rb => { rb with buf := b }) := by
    intro u b hu hbuf hb hcfg hle hout
    have hrb : ((u.onBuf s.calls fun rb => { rb with buf := b }).buf s.calls) = { v.buf s.calls with buf := b } := by
      rw [onBuf_self, hbuf]
    exact ⟨hu.onBuf _, by rw [hrb]; exact hcfg, by rw [hrb]; exact hb, hle, by rw [hrb]; exact hv.self,
      by rw [hrb]; exact hv.bitmap, by rw [hrb]; exact hout⟩
  unfold lockCap at h
  by_cases hsame : (v.buf s.calls).flags.lockSize = false ∨ (v.buf s.calls).cap = initialCap
  · have hcap : (v.buf s.calls).cap = initialCap := hsame.elim hv.cap fun h => h
    rw [if_pos hsame] at h
    cases h
    exact ⟨hv.beside, by omega, by omega, hv.le, hv.self, hv.bitmap, hv.out⟩
  rw [if_neg hsame] at h
  by_cases hlt : initialCap < (v.buf s.calls).cap
  · -- the locked size is larger, and charged first
    rw [if_pos hlt] at h
    cases hcharge : memBufferCharge ((v.buf s.calls).cap - initialCap) v.cfg with
    | none =>
      rw [hcharge] at h
      cases h
      exact Making.abandoned hused (by omega) hv.self hv.out
    | some cfg =>
      obtain ⟨rfl, hle⟩ := charge_eq (hmax.symm ▸ hpos) (by omega) hcharge
      have hbeside := reallocNew_beside (hv.beside.charge hcharge) (v.buf s.calls).buf (v.buf s.calls).cap
      rw [hcharge] at h
      simp only at h
      generalize hre : reallocNew _ _ _ = x at h hbeside
      obtain ⟨r, u⟩ := x
      obtain ⟨hbuf, hcfg, hr⟩ := reallocNew_out hre hid
      have huused : u.cfg.heapUsed = v.cfg.heapUsed + ((v.buf s.calls).cap - initialCap) := by rw [hcfg]
      cases r with
      | none =>
        cases h
        refine Making.abandoned ?_ (by omega) hv.self (hr.2.trans hv.out)
        change (memBufferRelease _ u.cfg).heapUsed = _
        rw [release_used (by omega)]
        omega
      | some b =>
        cases h
        exact hnew hbeside hbuf hr.1 (by omega) (by omega) (hr.2.trans (by rw [← herase]))
  · -- the locked size is smaller
    have hbeside := reallocNew_beside hv.beside (v.buf s.calls).buf (v.buf s.calls).cap
    rw [if_neg hlt] at h
    generalize hre : reallocNew _ _ _ = x at h hbeside
    obtain ⟨r, u⟩ := x
    obtain ⟨hbuf, hcfg, hr⟩ := reallocNew_out hre hid
    cases r with
    | none =>
      refine absurd hr.1 ?_
      rw [hv.beside.allocs, hv.calls]
      exact hshrink (by omega)
    | some b =>
      cases h
      have hrel : (memBufferRelease (initialCap - (v.buf s.calls).cap) u.cfg).heapUsed =
          s.cfg.heapUsed + E.structSize + (v.buf s.calls).cap := by
        rw [release_used (by rw [hcfg]; omega), hcfg]
        omega
      have hle := hv.le
      have hmaking := hnew (hbeside.release _) hbuf
        hr.1 hrel (by change (memBufferRelease _ u.cfg).heapUsed ≤ _; omega) (hr.2.trans (by rw [← herase]))
      exact hmaking

lemma makePool_paid (hw : Making E s w) (hpos : 0 < s.cfg.maxHeap) (hpool : (w.buf s.calls).flags.mallocType = true)
    (hsum : w.cfg.heapUsed + bitmapSize (poolSize lockSize (w.buf s.calls)) (w.buf s.calls) < uintRange)
    (h : makePool E s.calls lockSize w = (ok, t)) :
    if ok then Sized (t.buf s.calls) ∧ t.cfg.heapUsed = s.cfg.heapUsed + held E (t.buf s.calls) ∧ t.cfg.heapUsed ≤ s.cfg.maxHeap
    else Refunded s t := by
  have hmax := hw.beside.maxHeap
  have hused := hw.used
  generalize hbs : poolSize lockSize (w.buf s.calls) = bs at *
  generalize hn : bitmapSize bs (w.buf s.calls) = n at *
  -- the buffer as a pool without a bitmap
  have hmaking : ∀ (cfg : Config) (calls : ℕ), cfg.heapUsed = w.cfg.heapUsed →
      Beside s.calls s { w.onBuf s.calls (asPool bs) with cfg, calls } →
      Making E s { w.onBuf s.calls (asPool bs) with cfg, calls } := by
    intro cfg calls hcfg hb
    have hrb : (({ w.onBuf s.calls (asPool bs) with cfg, calls } : Sys σ).buf s.calls) = asPool bs (w.buf s.calls) :=
      onBuf_self ..
    refine ⟨hb, ?_, ?_, hcfg.symm ▸ hw.le, ?_, ?_, ?_⟩
    · rw [hrb]
      exact hcfg.trans hw.used
    · rw [hrb]
      exact hw.size
    · rw [hrb]
      exact hw.self
    · rw [hrb]
      exact hw.bitmap
    · rw [hrb]
      exact hw.out
  obtain ⟨-, rfl, rfl⟩ | ⟨-, -, ⟨rfl, rfl⟩ | ⟨cfg, hcharge, ⟨rfl, rfl⟩ | ⟨b, -, hsize, -, rfl, rfl⟩⟩⟩ :=
    makePool_cases hbs.symm hn.symm h
  · exact hw.destroyed
  · exact (hmaking w.cfg w.calls rfl (hw.beside.onBuf _)).destroyed
  · obtain ⟨rfl, -⟩ := charge_eq (hmax.symm ▸ hpos) hsum hcharge
    have hrel := ((hw.beside.onBuf (asPool bs)).charge hcharge).release n
    refine (hmaking _ (w.calls + 1) ?_
      ⟨hrel.buf, hrel.live, hrel.pools, hrel.heap, hrel.allocs, hrel.calls.trans (Nat.le_succ _), hrel.cfg⟩).destroyed
    exact (release_used (Nat.le_add_left _ _)).trans (Nat.add_sub_cancel ..)
  · obtain ⟨rfl, hle⟩ := charge_eq (hmax.symm ▸ hpos) hsum hcharge
    simp only [onBuf_self, if_true]
    have hwsize := hw.size
    refine ⟨⟨hwsize, fun hring => absurd hpool (by rw [show (w.buf s.calls).flags.mallocType = false from hring]; simp),
      fun _ => Nat.div_mul_le_self _ _, fun b' hb' => ?_⟩, ?_, by omega⟩
    · cases hb'
      exact hsize.trans hn.symm
    · have hheld : held E { asPool bs (w.buf s.calls) with poolBitmap := some b } = E.structSize + (w.buf s.calls).buf.size + n := by
        rw [← hsize]
        rfl
      rw [hheld]
      omega

def createCap (initialCap lockSize : ℕ) (flags : Flags) : ℕ := if flags.lockSize ∧ lockSize > 0 then lockSize else initialCap

/-- The sums that `mem_buffer_create` charges are no more than a `size_t` holds, and the allocation for a locked size below
the initial one succeeds. -/
def createFits (E : Env σ) (initialCap lockSize : ℕ) (flags : Flags) (s : Sys σ) : Bool :=
  let cap := createCap initialCap lockSize flags
  let bitmap := if flags.mallocType then uadd (cap / if lockSize ≠ 0 then lockSize else s.cfg.step) 7 / 8 else 0
  s.cfg.heapUsed + E.structSize + max initialCap cap + bitmap < uintRange ∧
    (cap < initialCap → (s.allocs (s.calls + 2)).isSome)

lemma begun_begun {cfg : Config} (maxCap lockSize : ℕ) (flags : Flags) (r0 r1 : Raw) (hpos : 0 < s.cfg.maxHeap)
    (hsum : s.cfg.heapUsed + (E.structSize + initialCap) < uintRange)
    (hcharge : memBufferCharge (uadd E.structSize initialCap) s.cfg = some cfg) :
    Begun E initialCap s (begun E initialCap maxCap lockSize flags cfg r0 r1 s) := by
  have hbeside := begun_beside maxCap lockSize flags r0 r1 hcharge
  rw [uadd_of_lt (by omega)] at hcharge
  obtain ⟨hcfg, hle⟩ := charge_eq hpos hsum hcharge
  have hrb : (begun E initialCap maxCap lockSize flags cfg r0 r1 s).buf s.calls = newBuffer cfg initialCap maxCap lockSize
      flags ⟨s.calls, r0.base, E.structSize, r0.bytes⟩ ⟨s.calls + 1, r1.base, initialCap, r1.bytes⟩ := update_self ..
  have hused : (begun E initialCap maxCap lockSize flags cfg r0 r1 s).cfg.heapUsed =
      s.cfg.heapUsed + (E.structSize + initialCap) := by
    change cfg.heapUsed = _
    rw [hcfg]
  refine ⟨hbeside, rfl, hused, hused.trans_le hle, ?_, ?_, ?_, ?_, ?_, ?_⟩
  · rw [hrb]
    rfl
  · rw [hrb]
    intro hlock
    have hlock' : flags.lockSize = false := hlock
    simp only [newBuffer, hlock', Bool.false_eq_true, false_and, if_false]
  all_goals
    rw [hrb]
    rfl

lemma create_outcome {r : Option ℕ} (hpos : 0 < s.cfg.maxHeap) (hfits : createFits E initialCap lockSize flags s)
    (h : memBufferCreate E initialCap maxCap lockSize flags s = (r, t)) :
    match r with
    | none => Refunded s t
    | some i => Sized (t.buf i) ∧ t.cfg.heapUsed = s.cfg.heapUsed + held E (t.buf i) ∧ t.cfg.heapUsed ≤ s.cfg.maxHeap := by
  simp only [createFits, decide_eq_true_eq] at hfits
  obtain ⟨hsum, hshrink⟩ := hfits
  obtain ⟨rfl, rfl⟩ | ⟨cfg, hcharge, -, -, hexit⟩ := create_cases h
  · exact ⟨rfl, rfl⟩
  have huadd : uadd E.structSize initialCap = E.structSize + initialCap := uadd_of_lt (by omega)
  have hrel : (memBufferRelease (uadd E.structSize initialCap) cfg).heapUsed = s.cfg.heapUsed := by
    obtain ⟨rfl, -⟩ := charge_eq hpos (by omega) hcharge
    exact (release_used (Nat.le_add_left _ _)).trans (Nat.add_sub_cancel ..)
  obtain ⟨rfl, rfl⟩ | ⟨b, hb, rfl, rfl⟩ | ⟨r0, r1, -, -, hfin⟩ := hexit
  · exact ⟨hrel, rfl⟩
  · refine ⟨hrel, ?_⟩
    simp only [outstanding, hb, erase_cons_head]
  -- behind the first two allocations
  have hbegun := begun_begun maxCap lockSize flags r0 r1 hpos (by omega) hcharge
  have hrb : (begun E initialCap maxCap lockSize flags cfg r0 r1 s).buf s.calls = newBuffer cfg initialCap maxCap lockSize
      flags ⟨s.calls, r0.base, E.structSize, r0.bytes⟩ ⟨s.calls + 1, r1.base, initialCap, r1.bytes⟩ := update_self ..
  generalize begun E initialCap maxCap lockSize flags cfg r0 r1 s = v at hfin hbegun hrb
  have hstep := ((Beside.refl s.calls s).charge hcharge).step
  have hcap : (v.buf s.calls).cap = createCap initialCap lockSize flags := by rw [hrb]; rfl
  unfold finishCreate at hfin
  generalize hlock : lockCap E s.calls initialCap v = x at hfin
  obtain ⟨ok, w⟩ := x
  have hmaking := lockCap_making hbegun hpos (by rw [hcap]; omega)
    (by rw [hcap]; exact fun hlt => isSome_iff_ne_none.1 (hshrink hlt)) hlock
  cases ok with
  | false =>
    cases hfin
    exact hmaking
  | true =>
    have hw : Making E s w := hmaking
    obtain ⟨b, hb, -⟩ := lockCap_buf hbegun.size hbegun.cap hlock
    rw [hrb] at hb
    have hflags : (w.buf s.calls).flags = flags := by rw [hb]; rfl
    have hlen : (w.buf s.calls).u₀ = 0 := by rw [hb]; rfl
    have hwcap : (w.buf s.calls).cap = createCap initialCap lockSize flags := by rw [hb]; rfl
    have hwstep : (w.buf s.calls).step = s.cfg.step := by rw [hb]; exact hstep
    simp only [hflags] at hfin
    by_cases hpool : flags.mallocType = true
    · rw [if_pos hpool] at hfin hsum
      generalize hmake : makePool E s.calls lockSize w = y at hfin
      obtain ⟨ok, u⟩ := y
      have hpaid := makePool_paid hw hpos (by rw [hflags]; exact hpool) (by
        have hused := hw.used
        rw [bitmapSize, poolSize, hwcap, hwstep]
        omega) hmake
      cases ok with
      | false | true =>
        cases hfin
        exact hpaid
    · rw [if_neg hpool] at hfin
      cases hfin
      have hwsize := hw.size
      refine ⟨⟨hwsize, fun _ => ?_, fun hm => absurd (hflags ▸ hm) hpool, fun b' hb' => ?_⟩, ?_, hw.le⟩
      · change (w.buf s.calls).u₀ ≤ _
        rw [hlen]
        exact Nat.zero_le _
      · rw [hw.bitmap] at hb'
        cases hb'
      · have hheld : held E (w.buf s.calls) = E.structSize + (w.buf s.calls).buf.size := by
          rw [held, bitmapHeld, hw.bitmap]
          rfl
        rw [hheld, hw.used]
        omega

end Create

end LwftpCe.Buffer
