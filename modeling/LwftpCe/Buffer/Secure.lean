import LwftpCe.Buffer.Twins

/-!
# Buffers in secure mode

What is stored in a buffer is not to be found in its unused storage, nor in a block that has been given back.  That is a
statement about two runs: they store different bytes, and whoever sees the unused storage and the blocks that are given back
sees the same in both (`NoResidue`).  `no_residue` says so for a ring whose queue is never moved by `realloc_fn`, and for a
pool that never shrinks under a piece.
-/

namespace LwftpCe.Buffer

open Lib List Function Sys

variable {σ : Type} {E : Env σ} {i K : ℕ} {s t : Sys σ} {rb rb' : MemBuffer} {m : Mem} {live : List Chunk} {c : Chunk}
  {n : Clients σ} {op op' : PoolOp σ}

/-! ### Pools with other bytes in their pieces -/

def inPieces (live : List Chunk) (rb : MemBuffer) (k : ℕ) : Prop :=
  ∃ c ∈ live, c.ptr.addr ≤ rb.buf.base + k ∧ rb.buf.base + k < c.ptr.addr + c.size

def PoolTwin (i : ℕ) (live : List Chunk) (s t : Sys σ) : Prop := Twin (inPieces live (s.buf i)) i s t

lemma inPieces_base (rb : MemBuffer) (h : rb'.buf.base = rb.buf.base) : inPieces live rb' = inPieces live rb := by
  unfold inPieces
  rw [h]

lemma PoolTwin.blind {f : Sys σ → Sys σ} (hf : Blind i f) (h : PoolTwin i live s t) : PoolTwin i live (f s) (f t) := by
  unfold PoolTwin
  rw [inPieces_base (s.buf i) (by rw [(hf.alike s).buf])]
  exact Twin.blind hf h

lemma PoolTwin.onBuf {live' : List Chunk} {f f' : MemBuffer → MemBuffer} {g q : Mem → Mem}
    (hbase : (f (s.buf i)).buf.base = (s.buf i).buf.base) (hbytes : (f (s.buf i)).buf.bytes = g (s.buf i).buf.bytes)
    (hf : ∀ m, f' ((s.buf i).onBytes fun _ => m) = (f (s.buf i)).onBytes fun _ => q m)
    (hg : ∀ m k, ¬ inPieces live' (s.buf i) k → (¬ inPieces live (s.buf i) k → m k = (s.buf i).buf.bytes k) →
      q m k = g (s.buf i).buf.bytes k) (h : PoolTwin i live s t) : PoolTwin i live' (s.onBuf i f) (t.onBuf i f') := by
  obtain ⟨m, rfl, hm⟩ := h
  unfold PoolTwin
  rw [onBuf_self, inPieces_base _ hbase]
  refine ⟨q m, ?_, fun k hk => ?_⟩
  · unfold withBytes
    rw [onBuf_onBuf, onBuf_onBuf]
    unfold onBuf
    rw [comp_apply, comp_apply, hf]
  · rw [onBuf_self, hbytes]
    exact hg m k hk (hm k)

lemma write_congr {m m' : Mem} {a k : ℕ} {bs : Bytes} (h : m k = m' k) : m.write a bs k = m'.write a bs k := by
  unfold Mem.write
  rw [h]

lemma poolMalloc_twin (size : ℕ) (h : PoolTwin i live s t) : (memBufferMalloc i size t).1 = (memBufferMalloc i size s).1 ∧
    ∀ live', (∀ c ∈ live, c ∈ live') → PoolTwin i live' (memBufferMalloc i size s).2 (memBufferMalloc i size t).2 := by
  have hsame : ∀ live', (∀ c ∈ live, c ∈ live') → PoolTwin i live' s t := fun live' hsub =>
    Twin.mono h fun k ⟨c, hc, hk⟩ => ⟨c, hsub c hc, hk⟩
  have htaken : ∀ start blocks live', (∀ c ∈ live, c ∈ live') →
      PoolTwin i live' (s.onBuf i (takeRun start blocks)) (t.onBuf i (takeRun start blocks)) := by
    intro start blocks live' hsub
    refine PoolTwin.onBuf (g := (·.write (umul start (s.buf i).poolBlockSize) (le16 blocks)))
      (q := (·.write (umul start (s.buf i).poolBlockSize) (le16 blocks))) rfl rfl (fun _ => rfl) ?_ (hsame live' hsub)
    exact fun m k hk heq => write_congr (heq hk)
  obtain ⟨m, hbuf⟩ := h.self
  unfold memBufferMalloc
  dsimp only
  rw [hbuf]
  refine rel_ite (R := fun x y : Option Ptr × Sys σ => y.1 = x.1 ∧ ∀ live', (∀ c ∈ live, c ∈ live') → PoolTwin i live' x.2 y.2)
    Iff.rfl (fun _ => ⟨rfl, hsame⟩) fun _ => ?_
  refine rel_ite (R := fun x y : Option Ptr × Sys σ => y.1 = x.1 ∧ ∀ live', (∀ c ∈ live, c ∈ live') → PoolTwin i live' x.2 y.2)
    Iff.rfl (fun _ => ⟨rfl, hsame⟩) fun _ => ?_
  have hbits : ((s.buf i).onBytes fun _ => m).bits = (s.buf i).bits := rfl
  have hblocks : blocksNeeded ((s.buf i).onBytes fun _ => m) (uadd size 2) = blocksNeeded (s.buf i) (uadd size 2) := rfl
  have hcount : ((s.buf i).onBytes fun _ => m).poolBlockCount = (s.buf i).poolBlockCount := rfl
  rw [hbits, hblocks, hcount]
  cases Bitmap.findRun (Bitmap.test (s.buf i).bits) (blocksNeeded (s.buf i) (uadd size 2)) (s.buf i).poolBlockCount 0 0 0 with
  | none => exact ⟨rfl, hsame⟩
  | some start => exact ⟨rfl, htaken start _⟩

lemma givenBack_twin (hinv : PoolInv K i s live) (hsec : (s.buf i).flags.secureMode = true) (hc : c ∈ live)
    (h : PoolTwin i live s t) : PoolTwin i (live.filter (· ≠ c)) (givenBack i c s) (givenBack i c t) := by
  have hstart : givenBack i c t = t.onBuf i (giveRun (c.start (s.buf i)) (c.blocks (s.buf i))) := by
    obtain ⟨m, rfl, -⟩ := h
    unfold givenBack
    rw [withBytes_self]
    rfl
  rw [hstart]
  have haddr := hinv.holds.addr c hc
  have hroom := le_blocksFor hinv.shaped c.size
  have hend := Nat.mul_le_mul_right (s.buf i).poolBlockSize (hinv.holds.tiled.inside c hc)
  rw [Nat.add_mul] at hend
  have hcount := hinv.shaped.count
  have hsize := hinv.shaped.size
  have hspace := hinv.shaped.room
  let wipe := fun m : Mem => if (s.buf i).flags.secureMode then
    m.fill (c.start (s.buf i) * (s.buf i).poolBlockSize) (umul (c.blocks (s.buf i)) (s.buf i).poolBlockSize) 0 else m
  refine PoolTwin.onBuf (g := wipe) (q := wipe) rfl rfl (fun _ => rfl) (fun m k hk heq => ?_) h
  simp only [wipe, if_pos hsec, umul_of_lt (show c.blocks (s.buf i) * (s.buf i).poolBlockSize < uintRange by omega), Mem.fill]
  split_ifs with hin
  · rfl
  · refine heq fun hpiece => ?_
    obtain ⟨d, hd, hle, hlt⟩ := hpiece
    by_cases hdc : d = c
    · subst hdc
      unfold Chunk.blocks at hin
      omega
    · exact hk ⟨d, mem_filter.2 ⟨hd, decide_eq_true hdc⟩, hle, hlt⟩

lemma poolShrinks_withBytes (m : Mem) : poolShrinks (s.withBytes i m) i = poolShrinks s i := by
  unfold poolShrinks
  rw [withBytes_self]
  rfl

lemma refused_withBytes (newCap : ℕ) (hhead : (s.buf i).u₁ ≠ 0) (hlen : (s.buf i).u₀ ≤ newCap) (hcap : newCap < (s.buf i).cap)
    (hno : (s.buf i).flags.lockSize = true ∨ ((s.buf i).maxCap ≠ sizeMax ∧ newCap > (s.buf i).maxCap) ∨ s.allocs s.calls = none)
    (m : Mem) : ∃ v, memBufferResize E i newCap s = (false, v) ∧
      memBufferResize E i newCap (s.withBytes i m) = (false, v.withBytes i m) := by
  have hself := withBytes_self i m s
  have hs := resize_pool (E := E) newCap hhead hlen hcap
  have ht := resize_pool (E := E) (s := s.withBytes i m) (i := i) newCap (by rw [hself]; exact hhead)
    (by rw [hself]; exact hlen) (by rw [hself]; exact hcap)
  rw [hself] at ht
  rw [hs, ht]
  refine rel_ite (R := fun x y => ∃ v, x = (false, v) ∧ y = (false, withBytes i m v)) Iff.rfl (fun _ => ⟨s, rfl, rfl⟩) fun hlock =>
    ?_
  refine rel_ite (R := fun x y => ∃ v, x = (false, v) ∧ y = (false, withBytes i m v)) Iff.rfl (fun _ => ⟨s, rfl, rfl⟩) fun hmax => ?_
  have hnone := (hno.resolve_left hlock).resolve_left hmax
  exact ⟨_, resizeByCopy_none hnone, resizeByCopy_none (s := s.withBytes i m) hnone⟩

lemma shrinkPool_withBytes (hno : poolShrinks s i = false) (hcount : (s.buf i).u₁ ≠ 0)
    (hcap : asksToShrink (s.buf i) → shrunkCap (s.buf i) < (s.buf i).cap) (m : Mem) :
    shrinkPool E i (s.withBytes i m) = (shrinkPool E i s).withBytes i m := by
  unfold shrinkPool
  simp only [onBuf_self]
  rw [withBytes_self]
  refine rel_ite (R := fun x y => x = withBytes i m y) Iff.rfl (fun _ => rfl) fun h1 =>
    rel_ite (R := fun x y => x = withBytes i m y) Iff.rfl (fun _ => blind_restartShrink.comm m s) fun h3 =>
    rel_ite (R := fun x y => x = withBytes i m y) Iff.rfl (fun _ => rfl) fun h4 =>
    rel_ite (R := fun x y => x = withBytes i m y) Iff.rfl (fun _ => blind_hit.comm m s) fun h6 =>
    rel_ite (R := fun x y => x = withBytes i m y) Iff.rfl (fun _ => blind_hit.comm m s) fun h7 => ?_
  rw [not_or] at h1 h4
  rw [not_or, not_lt, not_lt] at h7
  have hasks : asksToShrink (s.buf i) = true := by
    simp only [asksToShrink, decide_eq_true_eq]
    exact ⟨h1.1, h1.2, not_lt.1 h3, h4.1, h4.2, UInt16.not_lt.1 h6, h7.1, h7.2⟩
  -- the pool is to shrink, and the resizing is refused
  have hrefused := not_shrinks hasks hno
  have hself : (s.onBuf i countHit).buf i = countHit (s.buf i) := onBuf_self ..
  obtain ⟨v, hs, ht⟩ := refused_withBytes (E := E) (s := s.onBuf i countHit) (i := i) (shrunkCap (s.buf i))
    (by rw [hself]; exact hcount) (by rw [hself]; exact h7.2) (by rw [hself]; exact hcap hasks) (by rw [hself]; exact hrefused) m
  rw [← (show Blind (σ := σ) i (onBuf i countHit) from blind_hit).comm m s] at ht
  have hcap' : usub ((s.buf i).onBytes fun _ => m).cap (poolStep ((s.buf i).onBytes fun _ => m)) =
    usub (s.buf i).cap (poolStep (s.buf i)) := rfl
  rw [hcap', show memBufferResize E i (usub (s.buf i).cap (poolStep (s.buf i))) ((s.withBytes i m).onBuf i fun rb =>
    { rb with shrinkHits := rb.shrinkHits + 1 }) = (false, v.withBytes i m) from ht,
    show memBufferResize E i (usub (s.buf i).cap (poolStep (s.buf i)))
    (s.onBuf i fun rb => { rb with shrinkHits := rb.shrinkHits + 1 }) = (false, v) from hs]

lemma free_twin (hinv : PoolInv K i s live) (hinv' : PoolInv K i t live) (hsec : (s.buf i).flags.secureMode = true) (hc : c ∈ live)
    (hspares : poolShrinks (givenBack i c s) i → ∀ d ∈ live, d = c) (h : PoolTwin i live s t) :
    PoolTwin i (live.filter (· ≠ c)) (memBufferFree E i c.ptr.addr s) (memBufferFree E i c.ptr.addr t) := by
  have hback := givenBack_twin hinv hsec hc h
  rw [poolFree_eq hinv.shaped hinv.holds hc, poolFree_eq hinv'.shaped hinv'.holds hc]
  change PoolTwin i (live.filter (· ≠ c)) (memPressureMaybeClear E i (shrinkPool E i (givenBack i c s)))
    (memPressureMaybeClear E i (shrinkPool E i (givenBack i c t)))
  refine PoolTwin.blind blind_maybeClear ?_
  cases hshrinks : poolShrinks (givenBack i c s) i with
  | true =>
    -- no piece is left, so that the pools are the same
    have hsame : givenBack i c t = givenBack i c s := by
      refine Twin.eq_of_unused hback fun k hk => ?_
      obtain ⟨d, hd, -⟩ := hk
      obtain ⟨hd, hne⟩ := mem_filter.1 hd
      exact of_decide_eq_true hne (hspares hshrinks d hd)
    rw [hsame]
    exact .refl ..
  | false =>
    have hcount : ((givenBack i c s).buf i).u₁ ≠ 0 := by
      have hle := hinv.holds.tiled.inside c hc
      have hpos := hinv.holds.tiled.pos c hc
      have hsame : ((givenBack i c s).buf i).u₁ = (s.buf i).poolBlockCount := by
        rw [givenBack, onBuf_self, giveRun]
        rfl
      omega
    have hcap : asksToShrink ((givenBack i c s).buf i) → shrunkCap ((givenBack i c s).buf i) < ((givenBack i c s).buf i).cap := by
      intro hasks
      obtain ⟨hpos, hle, hcap⟩ := shrunkCap_eq (givenBack_inv hinv hc).shaped hasks
      omega
    have hout := shrinkPool_outcome (E := E) hcount hcap
    rw [hshrinks, if_neg Bool.false_ne_true] at hout
    generalize givenBack i c s = u at *
    obtain ⟨m, hm, hbytes⟩ := hback
    rw [hm, shrinkPool_withBytes hshrinks hcount hcap]
    unfold PoolTwin
    rw [inPieces_base (u.buf i) (by rw [hout.1.buf])]
    refine ⟨m, rfl, fun k hk => ?_⟩
    rw [hout.1.buf]
    exact hbytes k hk

/-! ### Runs of a pool -/

/-- The same operation, but for the bytes that are written. -/
inductive PoolOp.Parallel : PoolOp σ → PoolOp σ → Prop
  | write {data data' : Bytes} (c : Chunk) (off : ℕ) (h : data'.length = data.length) :
      Parallel (.write c off data) (.write c off data')
  | same (op : PoolOp σ) : Parallel op op

lemma write_twin {off : ℕ} {data data' : Bytes} (hinv : PoolInv K i s live) (hc : c ∈ live) (hfit : off + data.length ≤ c.size)
    (hlen : data'.length = data.length) (h : PoolTwin i live s t) :
    PoolTwin i live (s.onBuf i fun rb => rb.onBytes (·.write (c.ptr.addr - rb.buf.base + off) data))
      (t.onBuf i fun rb => rb.onBytes (·.write (c.ptr.addr - rb.buf.base + off) data')) := by
  have haddr := hinv.holds.addr c hc
  refine PoolTwin.onBuf (g := (·.write (c.ptr.addr - (s.buf i).buf.base + off) data))
    (q := (·.write (c.ptr.addr - (s.buf i).buf.base + off) data')) rfl rfl (fun _ => rfl) (fun m k hk heq => ?_) h
  have hout : k < c.ptr.addr - (s.buf i).buf.base + off ∨ c.ptr.addr - (s.buf i).buf.base + off + data.length ≤ k := by
    by_contra hin
    exact hk ⟨c, hc, by omega, by omega⟩
  rcases hout with hlt | hge
  · rw [Mem.write_before k hlt, Mem.write_before k hlt]
    exact heq hk
  · rw [Mem.write_behind k hge, Mem.write_behind k (by omega)]
    exact heq hk

structure PoolTwins (K i : ℕ) (m n : Clients σ) : Prop where
  inv : PoolInv K i m.sys m.live
  inv' : PoolInv K i n.sys n.live
  secure : (m.sys.buf i).flags.secureMode = true
  live : n.live = m.live
  twin : PoolTwin i m.live m.sys n.sys

lemma poolPerform_flags {m : Clients σ} (op : PoolOp σ) : ((poolPerform E i m op).sys.buf i).flags = (m.sys.buf i).flags := by
  cases op with
  | malloc size =>
    have hflags := (Moves.poolMalloc (E := E) (i := i) size m.sys).fixed.flags
    simp only [poolPerform]
    generalize memBufferMalloc i size m.sys = x at hflags
    obtain ⟨_ | p, t⟩ := x
    · exact hflags
    · exact hflags
  | free c => exact (Moves.poolFree c.ptr.addr m.sys).fixed.flags
  | write c off data =>
    unfold poolPerform
    rw [onBuf_self]
    rfl
  | setGrow pct step => exact ((blind_setGrow pct step).alike m.sys).flags
  | setShrink pct step => exact ((blind_setShrink pct step).alike m.sys).flags
  | setMaxSize maxCap => exact ((blind_setMaxSize maxCap).alike m.sys).flags
  | elsewhere v =>
    unfold poolPerform
    dsimp only
    rw [update_self]

lemma PoolTwins.spares {m : Clients σ} (h : PoolTwins K i m n) (hop : op.Parallel op')
    (hallowed : poolAllowed m op) (hspares : spares i m op) : spares i n op' := by
  cases hop with
  | write c off hlen => trivial
  | same =>
    cases op with
    | free c =>
      have hback := givenBack_twin h.inv h.secure (of_decide_eq_true hallowed) h.twin
      intro hshrinks
      obtain ⟨b, hb, -⟩ := hback
      rw [hb, poolShrinks_withBytes] at hshrinks
      rw [h.live]
      exact hspares hshrinks
    | malloc size => exact hspares
    | write _ _ _ | setGrow _ _ | setShrink _ _ | setMaxSize _ | elsewhere _ => trivial

lemma poolPerform_twin {m : Clients σ} (h : PoolTwins K i m n) (hop : op.Parallel op')
    (hallowed : poolAllowed m op) (hspares : spares i m op) : (poolPerform E i n op').live = (poolPerform E i m op).live ∧
      PoolTwin i (poolPerform E i m op).live (poolPerform E i m op).sys (poolPerform E i n op').sys := by
  cases hop with
  | write c off hlen =>
    simp only [poolAllowed, decide_eq_true_eq] at hallowed
    exact ⟨h.live, write_twin h.inv hallowed.1 hallowed.2 hlen h.twin⟩
  | same =>
    cases op with
    | malloc size =>
      obtain ⟨hanswer, htwin⟩ := poolMalloc_twin size h.twin
      simp only [poolPerform]
      generalize memBufferMalloc i size m.sys = x at hanswer htwin
      generalize memBufferMalloc i size n.sys = y at hanswer htwin
      obtain ⟨p, u⟩ := x
      obtain ⟨q, v⟩ := y
      obtain rfl : q = p := hanswer
      cases q with
      | none => exact ⟨h.live, htwin _ fun _ hc => hc⟩
      | some p => exact ⟨congrArg (List.cons _) h.live, htwin _ fun _ hc => mem_cons_of_mem _ hc⟩
    | free c =>
      have hinv' : PoolInv K i n.sys m.live := h.live ▸ h.inv'
      refine ⟨?_, free_twin h.inv hinv' h.secure (of_decide_eq_true hallowed) hspares h.twin⟩
      simp only [poolPerform, h.live]
    | write c off data =>
      simp only [poolAllowed, decide_eq_true_eq] at hallowed
      exact ⟨h.live, write_twin h.inv hallowed.1 hallowed.2 rfl h.twin⟩
    | setGrow pct step => exact ⟨h.live, h.twin.blind (blind_setGrow pct step)⟩
    | setShrink pct step => exact ⟨h.live, h.twin.blind (blind_setShrink pct step)⟩
    | setMaxSize maxCap => exact ⟨h.live, h.twin.blind (blind_setMaxSize maxCap)⟩
    | elsewhere v => exact ⟨h.live, h.twin.blind (blind_elsewhere (fun s => { v with allocs := s.allocs }) fun _ _ => rfl)⟩

lemma PoolTwins.step {m m' : Clients σ} (h : PoolTwins K i m n) (hop : op.Parallel op')
    (hspares : Buffer.spares i m op) (hstep : poolStepOf E i m op = some m') :
    ∃ n', poolStepOf E i n op' = some n' ∧ PoolTwins K i m' n' := by
  obtain ⟨hallowed, hm'⟩ := guarded_some.1 hstep
  have hallowed' : poolAllowed n op' := by
    cases hop with
    | write c off hlen =>
      simp only [poolAllowed, decide_eq_true_eq] at hallowed ⊢
      rw [h.live, hlen]
      exact hallowed
    | same =>
      unfold poolAllowed at hallowed ⊢
      rw [h.live]
      exact hallowed
  have hstep' : poolStepOf E i n op' = some (poolPerform E i n op') := guarded_some.2 ⟨hallowed', rfl⟩
  have hinv := poolPerform_inv h.inv hspares hstep
  cases hm'
  obtain ⟨hlive, htwin⟩ := poolPerform_twin (E := E) h hop hallowed hspares
  refine ⟨_, hstep', hinv, poolPerform_inv h.inv' (h.spares hop hallowed hspares) hstep', ?_, hlive, htwin⟩
  rw [poolPerform_flags]
  exact h.secure

/-! ### No residue -/

/-- Two states that cannot be told apart by the unused storage of the buffer, nor by the blocks that have been given back, also
when the buffer is destroyed. -/
structure NoResidue (E : Env σ) (i : ℕ) (used : ℕ → Prop) (s t : Sys σ) : Prop where
  unused : ∀ k, ¬ used k → (t.buf i).buf.bytes k = (s.buf i).buf.bytes k
  released : t.heap = s.heap
  destroyed : (memBufferDestroy E i t).heap = (memBufferDestroy E i s).heap

lemma destroy_heap (E : Env σ) (i : ℕ) (s : Sys σ) : (memBufferDestroy E i s).heap = .gave (s.buf i).self ::
    (match (s.buf i).poolBitmap with
      | none => []
      | some b => [.gave (if (s.buf i).flags.secureMode then { b with bytes := b.bytes.fill 0 (s.buf i).poolBitmapBytes 0 } else b)]) ++
    .gave (cleared (s.buf i)) :: s.heap := by
  unfold memBufferDestroy
  dsimp only
  cases (s.buf i).poolBitmap with
  | none => rfl
  | some b => rfl

lemma Twin.noResidue {used : ℕ → Prop} (h : Twin used i s t) (hsec : (s.buf i).flags.secureMode = true)
    (hused : ∀ k, used k → k < (s.buf i).cap) : NoResidue E i used s t := by
  obtain ⟨m, rfl, hm⟩ := h
  refine ⟨fun k hk => ?_, rfl, ?_⟩
  · rw [withBytes_self]
    exact hm k hk
  · have hclear := cleared_withBytes (s.buf i) hsec fun k hk => hm k fun hu => absurd (hused k hu) (not_lt.2 hk)
    rw [destroy_heap, destroy_heap, withBytes_self, hclear]
    rfl

lemma create_flags {initialCap maxCap lockSize : ℕ} {flags : Flags}
    (h : memBufferCreate E initialCap maxCap lockSize flags s = (some i, t)) : (t.buf i).flags = flags := by
  obtain ⟨-, cfg, self, b, w, hw, -, hbuf⟩ := create_buffer h
  have hflags : (w.buf i).flags = flags := by
    rw [hw]
    rfl
  split_ifs at hbuf with hpool
  · obtain ⟨v, hmake, hbuf⟩ := hbuf
    obtain ⟨-, hf, -⟩ | ⟨-, -, ⟨hf, -⟩ | ⟨cfg', -, ⟨hf, -⟩ | ⟨b', -, -, -, -, rfl⟩⟩⟩ := makePool_cases rfl rfl hmake
    · cases hf
    · cases hf
    · cases hf
    · have hpoolBuf : t.buf i = { asPool (poolSize lockSize (w.buf i)) (w.buf i) with poolBitmap := some b' } :=
        (congrFun hbuf i).trans (update_self ..)
      rw [hpoolBuf]
      exact hflags
  · rw [hbuf]
    exact hflags

def ringStep (E : Env σ) (i : ℕ) (s : Sys σ) (op : RingOp σ) : Option (Sys σ) := some (play E i s op).2

/-- The sums of the operation are no more than a `size_t` holds, and it does not move the queue by `realloc_fn`. -/
def ringKeeps (i : ℕ) (s : Sys σ) (op : RingOp σ) : Prop := sumsFit i s op = true ∧ leavesBehind i s op = false

/-- **In secure mode nothing is left behind**: whatever is stored instead, the unused storage and the blocks that are given back
are the same; in every run of a ring whose queue is not moved by `realloc_fn`, and of a pool that does not shrink under a
piece. -/
theorem no_residue (E : Env σ) (initialCap maxCap lockSize : ℕ) (flags : Flags) (s t : Sys σ) (i : ℕ)
    (hinit : initialCap < uintRange) (hmax : maxCap < uintRange) (hlock : lockSize < uintRange) (hsec : flags.secureMode = true)
    (hcreate : memBufferCreate E initialCap maxCap lockSize flags s = (some i, t)) :
    (flags.mallocType = false → ∀ ops ops' : List (RingOp σ), List.Forall₂ RingOp.Parallel ops ops' →
      Along (ringKeeps i) (ringStep E i) t ops → ∀ u, run (ringStep E i) t ops = some u →
        ∃ u', run (ringStep E i) t ops' = some u' ∧ NoResidue E i (inQueue (u.buf i)) u u') ∧
    (flags.mallocType = true → Placed i t → ∀ ops ops' : List (PoolOp σ), List.Forall₂ PoolOp.Parallel ops ops' →
      Along (spares i) (poolStepOf E i) ⟨t, []⟩ ops → ∀ m, run (poolStepOf E i) ⟨t, []⟩ ops = some m →
        ∃ m', run (poolStepOf E i) ⟨t, []⟩ ops' = some m' ∧ NoResidue E i (inPieces m.live (m.sys.buf i)) m.sys m'.sys) := by
  have hsecure : (t.buf i).flags.secureMode = true := by
    rw [create_flags hcreate]
    exact hsec
  refine ⟨fun hring ops ops' hops hkeeps u hrun => ?_, fun hpool hplaced ops ops' hops hspares m hrun => ?_⟩
  · have hstep : ∀ u v op op' u', IsRing (u.buf i) ∧ (u.buf i).flags.secureMode = true ∧ RingTwin i u v →
        RingOp.Parallel op op' → ringKeeps i u op → ringStep E i u op = some u' → ∃ v', ringStep E i v op' = some v' ∧
          IsRing (u'.buf i) ∧ (u'.buf i).flags.secureMode = true ∧ RingTwin i u' v' := by
      rintro u v op op' u' ⟨hr, hs, htwin⟩ hop hkeep hstep
      cases hstep
      refine ⟨_, rfl, (play_serves op hr hkeep.1).1, ?_, play_twin hr hs hkeep.1 hkeep.2 hop htwin⟩
      rw [play_flags]
      exact hs
    obtain ⟨u', hrun', hr, hs, htwin⟩ := run_sim
      (fun u v => IsRing (u.buf i) ∧ (u.buf i).flags.secureMode = true ∧ RingTwin i u v) hstep hops
      ⟨(create_ring hring hinit hmax hlock hcreate).1, hsecure, .refl ..⟩ hkeeps hrun
    exact ⟨u', hrun', Twin.noResidue htwin hs fun k hk => hk.lt hr⟩
  · have hstart := create_poolInv hpool hcreate hplaced
    have hfirst : PoolTwins (t.buf i).cap i ⟨t, []⟩ ⟨t, []⟩ := ⟨hstart, hstart, hsecure, rfl, .refl ..⟩
    have hstep : ∀ m n op op' m', PoolTwins (t.buf i).cap i m n → PoolOp.Parallel op op' → spares i m op →
        poolStepOf E i m op = some m' → ∃ n', poolStepOf E i n op' = some n' ∧ PoolTwins (t.buf i).cap i m' n' :=
      fun _ _ _ _ _ h hop hsp hstep => h.step hop hsp hstep
    obtain ⟨m', hrun', htwins⟩ := run_sim (PoolTwins (t.buf i).cap i) hstep hops hfirst hspares hrun
    refine ⟨m', hrun', Twin.noResidue htwins.twin htwins.secure fun k hk => ?_⟩
    obtain ⟨c, hc, hle, hlt⟩ := hk
    have haddr := htwins.inv.holds.addr c hc
    have hin := htwins.inv.holds.inside htwins.inv.shaped hc
    omega

theorem no_residue_popped : ∃ t u, memBufferCreate plainEnv 8 16 0 { secureMode := true } (started 0 plenty) = (some 0, t) ∧
    run (ringStep plainEnv 0) t [.push [42, 7], .pop 1] = some u ∧
    ∃ u', run (ringStep plainEnv 0) t [.push [1, 2], .pop 1] = some u' ∧ NoResidue plainEnv 0 (inQueue (u.buf 0)) u u' := by
  refine ⟨_, _, rfl, rfl, (no_residue plainEnv 8 16 0 { secureMode := true } (started 0 plenty) _ 0 (by decide) (by decide)
    (by decide) rfl rfl).1 rfl [.push [42, 7], .pop 1] [.push [1, 2], .pop 1] (.cons (.push rfl) (.cons (.same _) .nil))
    ⟨⟨by decide +kernel, by decide +kernel⟩, fun u hu => ⟨?_, fun _ _ => trivial⟩⟩ _ rfl⟩
  cases hu
  exact ⟨by decide +kernel, by decide +kernel⟩

def firstBytes (s : Sys σ) : Bytes := s.heap.filterMap fun o =>
  match o with
  | .got _ _ => none
  | .gave b => some (b.bytes 0)

/-- A ring that grows from half of its capacity on: `realloc_fn` releases the block with the first byte in it. -/
theorem byte_left_behind : ∃ t u u', memBufferCreate plainEnv 8 16 0 { secureMode := true } (started 0 plenty) = (some 0, t) ∧
    run (ringStep plainEnv 0) t [.setGrow 50 4, .push [42], .push [1, 2, 3]] = some u ∧ firstBytes u = [42] ∧
    run (ringStep plainEnv 0) t [.setGrow 50 4, .push [43], .push [1, 2, 3]] = some u' ∧ firstBytes u' = [43] ∧
    ¬ NoResidue plainEnv 0 (inQueue (u.buf 0)) u u' := by
  refine ⟨_, _, _, rfl, rfl, by decide +kernel, rfl, by decide +kernel, fun h => ?_⟩
  have hsame := congrArg (fun l => filterMap (fun o => match o with | .got _ _ => none | .gave b => some (b.bytes 0)) l) h.released
  exact absurd hsame (by decide +kernel)

end LwftpCe.Buffer
