import LwftpCe.Buffer.Budget
import LwftpCe.Lib.Trace
import Mathlib.Algebra.BigOperators.Group.List.Basic

/-!
# The accounts of the budget

`heap_used` is the sum of what the live buffers hold (`total`), in every state of every run (`accounts_balance`), if the
sums that are charged do not wrap around and a buffer with a locked size below its initial capacity gets its smaller block.
-/

namespace LwftpCe.Buffer

open Lib List MemBuffer

variable {σ : Type} {E : Env σ} {i n : ℕ} {s t : Sys σ} {rb : MemBuffer}

def total (E : Env σ) (s : Sys σ) : ℕ := (s.live.map fun i => held E (s.buf i)).sum

lemma total_eq (h : i ∈ s.live) : total E s = held E (s.buf i) + ((s.live.erase i).map fun j => held E (s.buf j)).sum :=
  (sum_map_erase (fun j => held E (s.buf j)) h).symm

/-! ### Every buffer -/

structure Balanced (E : Env σ) (s : Sys σ) : Prop where
  nodup : s.live.Nodup
  fresh : ∀ i ∈ s.live, i < s.calls
  sized : ∀ i ∈ s.live, Sized (s.buf i)
  used : s.cfg.heapUsed = total E s
  le : s.cfg.heapUsed ≤ s.cfg.maxHeap
  pos : 0 < s.cfg.maxHeap
  lt : s.cfg.maxHeap < uintRange

namespace Balanced

variable (h : Balanced E s)

include h

lemma held_le (hi : i ∈ s.live) : held E (s.buf i) ≤ s.cfg.heapUsed := by
  rw [h.used, total_eq hi]
  exact Nat.le_add_right _ _

lemma within (hi : i ∈ s.live) : Within i s := by
  have hheld := h.held_le hi
  have hsize := (h.sized i hi).size
  unfold held at hheld
  exact ⟨h.sized i hi, by omega, h.le, h.pos, h.lt⟩

lemma others (hbuf : ∀ j, j ≠ i → t.buf j = s.buf j) :
    ((s.live.erase i).map fun j => held E (t.buf j)).sum = ((s.live.erase i).map fun j => held E (s.buf j)).sum := by
  refine congrArg List.sum (map_congr_left fun j hj => ?_)
  rw [hbuf j ((List.Nodup.mem_erase_iff h.nodup).1 hj).1]

lemma beside (hi : i ∈ s.live) (hb : Beside i s t) (hsized : Sized (t.buf i))
    (hbitmap : bitmapHeld (t.buf i) = bitmapHeld (s.buf i))
    (hused : t.cfg.heapUsed + (s.buf i).cap = s.cfg.heapUsed + (t.buf i).cap) (hle : t.cfg.heapUsed ≤ s.cfg.maxHeap) :
    Balanced E t := by
  have hmax := hb.maxHeap
  have hs := total_eq (E := E) hi
  have ht := total_eq (E := E) (hb.live ▸ hi)
  rw [hb.live, h.others hb.buf] at ht
  have hsz := (h.sized i hi).size
  have htz := hsized.size
  have hold := h.used
  refine ⟨hb.live ▸ h.nodup, ?_, ?_, ?_, hmax ▸ hle, hmax ▸ h.pos, hmax ▸ h.lt⟩
  · rw [hb.live]
    exact fun j hj => lt_of_lt_of_le (h.fresh j hj) hb.calls
  · rw [hb.live]
    intro j hj
    rcases eq_or_ne j i with rfl | hne
    · exact hsized
    · rw [hb.buf j hne]
      exact h.sized j hj
  · unfold held at hs ht
    omega

lemma weighed (hi : i ∈ s.live) (hw : Weighed i 0 s t) : Balanced E t :=
  h.beside hi hw.beside hw.sized hw.bitmap hw.used hw.le

lemma quiet (hi : i ∈ s.live) (hq : Quiet i s t) : Balanced E t :=
  h.weighed hi ((Weighed.refl (h.within hi)).quiet hq)

lemma onBuf (hi : i ∈ s.live) {f : MemBuffer → MemBuffer} (hsized : Sized (f (s.buf i)))
    (hcap : (f (s.buf i)).cap = (s.buf i).cap) (hbitmap : bitmapHeld (f (s.buf i)) = bitmapHeld (s.buf i)) :
    Balanced E (s.onBuf i f) := by
  refine h.beside hi ((Beside.refl i s).onBuf f) ?_ ?_ ?_ h.le
  · rw [Sys.onBuf_self]
    exact hsized
  · rw [Sys.onBuf_self]
    exact hbitmap
  · rw [Sys.onBuf_self, hcap]
    rfl

lemma destroy (hi : i ∈ s.live) : Balanced E (memBufferDestroy E i s) := by
  have hcfg := destroy_cfg (h.sized i hi) (h.held_le hi)
  have hused : (memBufferDestroy E i s).cfg.heapUsed = s.cfg.heapUsed - held E (s.buf i) := by
    rw [hcfg, release_used (h.held_le hi)]
  have hmax : (memBufferDestroy E i s).cfg.maxHeap = s.cfg.maxHeap := by
    rw [hcfg]
    rfl
  obtain ⟨hbuf, hlive, hcalls⟩ := destroy_rest i s
  have hs := total_eq (E := E) hi
  have hle := h.le
  have hold := h.used
  refine ⟨?_, ?_, ?_, ?_, by omega, hmax ▸ h.pos, hmax ▸ h.lt⟩
  · rw [hlive]
    exact h.nodup.erase i
  · rw [hlive, hcalls]
    exact fun j hj => h.fresh j (mem_of_mem_erase hj)
  · rw [hlive, hbuf]
    exact fun j hj => h.sized j (mem_of_mem_erase hj)
  · rw [total, hlive, hbuf]
    omega

lemma create {initialCap maxCap lockSize : ℕ} {flags : Flags} {r : Option ℕ}
    (hfits : createFits E initialCap lockSize flags s) (hc : memBufferCreate E initialCap maxCap lockSize flags s = (r, t)) :
    Balanced E t := by
  have hout := create_outcome h.pos hfits hc
  obtain ⟨hb, hnew⟩ := create_beside hc
  have hmax : t.cfg.maxHeap = s.cfg.maxHeap := hb.maxHeap
  have hnotin : s.calls ∉ s.live := fun hm => lt_irrefl _ (h.fresh _ hm)
  have hold : ∀ j ∈ s.live, j ≠ s.calls ∧ t.buf j = s.buf j := fun j hj =>
    have hne : j ≠ s.calls := fun he => hnotin (he ▸ hj)
    ⟨hne, hb.buf j hne⟩
  have htotal : (s.live.map fun j => held E (t.buf j)).sum = total E s :=
    congrArg List.sum (map_congr_left fun j hj => by rw [(hold j hj).2])
  have hcalls : s.calls ≤ t.calls := hb.calls
  cases r with
  | none =>
    have hlive : t.live = s.live := by
      rcases create_none_live hc with hl | hl
      · exact hl
      · rw [hl, erase_of_not_mem hnotin]
    refine ⟨hlive ▸ h.nodup, ?_, ?_, ?_, ?_, hmax ▸ h.pos, hmax ▸ h.lt⟩
    · rw [hlive]
      exact fun j hj => lt_of_lt_of_le (h.fresh j hj) hcalls
    · rw [hlive]
      exact fun j hj => (hold j hj).2 ▸ h.sized j hj
    · rw [total, hlive, htotal, hout.1]
      exact h.used
    · rw [hout.1, hmax]
      exact h.le
  | some i =>
    obtain ⟨hi, hlt, hlive⟩ := hnew i rfl
    obtain ⟨hsized, hused, hle⟩ := hout
    subst hi
    refine ⟨?_, ?_, ?_, ?_, hmax ▸ hle, hmax ▸ h.pos, hmax ▸ h.lt⟩
    · rw [hlive]
      exact nodup_cons.2 ⟨hnotin, h.nodup⟩
    · rw [hlive]
      exact forall_mem_cons.2 ⟨hlt, fun j hj => lt_of_lt_of_le (h.fresh j hj) hcalls⟩
    · rw [hlive]
      exact forall_mem_cons.2 ⟨hsized, fun j hj => (hold j hj).2 ▸ h.sized j hj⟩
    · rw [total, hlive, map_cons, sum_cons, hused, h.used]
      omega

end Balanced

/-! ### Operations -/

inductive BufOp where
  | create (initialCap maxCap lockSize : ℕ) (flags : Flags)
  | destroy (i : ℕ)
  | push (i : ℕ) (data : Bytes)
  | pop (i len : ℕ)
  | reserve (i len : ℕ)
  | malloc (i size : ℕ)
  | free (i ptr : ℕ)
  | setOwner (i : ℕ) (owner : Owner)
  | setGrow (i thresholdPct step : ℕ)
  | setShrink (i thresholdPct step : ℕ)
  | setMaxSize (i maxCap : ℕ)

def BufOp.target : BufOp → Option ℕ
  | .create .. => none
  | .destroy i | .push i _ | .pop i _ | .reserve i _ | .malloc i _ | .free i _ => some i
  | .setOwner i _ | .setGrow i .. | .setShrink i .. | .setMaxSize i _ => some i

def perform (E : Env σ) (s : Sys σ) : BufOp → Sys σ
  | .create initialCap maxCap lockSize flags => (memBufferCreate E initialCap maxCap lockSize flags s).2
  | .destroy i => memBufferDestroy E i s
  | .push i data => (memBufferPush E i data s).2
  | .pop i len => (memBufferPop E i len s).2
  | .reserve i len => (memBufferReserve E i len s).2
  | .malloc i size => (memBufferMalloc i size s).2
  | .free i ptr => memBufferFree E i ptr s
  | .setOwner i owner => s.onBuf i (memBufferSetOwner owner)
  | .setGrow i thresholdPct step => s.onBuf i (memBufferSetGrow thresholdPct step)
  | .setShrink i thresholdPct step => s.onBuf i (memBufferSetShrink thresholdPct step)
  | .setMaxSize i maxCap => s.onBuf i (memBufferSetMaxSize maxCap)

def growFits (i n : ℕ) (s : Sys σ) : Bool :=
  (s.buf i).flags.mallocType ∨
    s.cfg.heapUsed + (growTarget (s.buf i) (uadd (s.buf i).len n) - (s.buf i).cap) < uintRange

def chargeFits (E : Env σ) (s : Sys σ) : BufOp → Bool
  | .create initialCap _ lockSize flags => createFits E initialCap lockSize flags s
  | .push i data => growFits i data.length s
  | .reserve i len => growFits i len s
  | _ => true

def affordable (E : Env σ) (s : Sys σ) (op : BufOp) : Bool := op.target.all (· ∈ s.live) && chargeFits E s op

lemma Sized.setRing (h : Sized rb) (hring : rb.flags.mallocType = false) (f : Mem → Mem) {head len : ℕ} (hl : len ≤ rb.cap) :
    Sized (rb.setRing f head len) :=
  ⟨h.size, fun _ => hl, fun hp => absurd (hring.symm.trans hp) (by simp), h.bitmap⟩

lemma setRing_held (f : Mem → Mem) (head len : ℕ) (rb : MemBuffer) :
    (rb.setRing f head len).cap = rb.cap ∧ bitmapHeld (rb.setRing f head len) = bitmapHeld rb := ⟨rfl, rfl⟩

lemma Sized.setPool (h : Sized rb) (hpool : rb.flags.mallocType = true) (f g : Mem → Mem) (used : ℕ) :
    Sized (rb.setPool f g used) := by
  refine ⟨h.size, fun hr => absurd (hpool.symm.trans hr) (by simp), fun _ => h.pool hpool, fun b hb => ?_⟩
  obtain ⟨b', hb', rfl⟩ := Option.map_eq_some_iff.1 hb
  exact h.bitmap b' hb'

lemma bitmapHeld_setPool (f g : Mem → Mem) (used : ℕ) (rb : MemBuffer) : bitmapHeld (rb.setPool f g used) = bitmapHeld rb := by
  unfold bitmapHeld setPool
  simp only [Option.map_map]
  rfl

namespace Balanced

section

variable (h : Balanced E s)

include h

lemma maybeGrow (hi : i ∈ s.live) (hfits : growFits i n s) (hring : (s.buf i).flags.mallocType = false) :
    Weighed i 0 s (memBufferMaybeGrow E i n s).2 := by
  simp only [growFits, hring, Bool.false_eq_true, false_or, decide_eq_true_eq] at hfits
  exact maybeGrow_weighed (h.within hi) hfits

lemma push (hi : i ∈ s.live) {data : Bytes} (hfits : growFits i data.length s) :
    Balanced E (memBufferPush E i data s).2 := by
  unfold memBufferPush
  split_ifs with h0
  · exact h
  · obtain ⟨-, hring⟩ := not_or.1 h0
    have hw := h.maybeGrow hi hfits (by simpa using hring)
    generalize hx : memBufferMaybeGrow E i data.length s = x at hw
    obtain ⟨ok, t⟩ := x
    have hbal : Balanced E t := h.weighed hi hw
    cases ok with
    | false => exact hbal
    | true =>
      have hit : i ∈ t.live := hw.beside.live ▸ hi
      have hroom := maybeGrow_room hx
      have hkind : (t.buf i).flags = (s.buf i).flags ∧ (t.buf i).u₀ = (s.buf i).u₀ := hw.kind
      refine hbal.onBuf hit ?_ (setRing_held ..).1 (setRing_held ..).2
      refine (hbal.sized i hit).setRing ?_ _ ?_
      · rw [hkind.1]
        simpa using hring
      · rw [len, hkind.2]
        exact hroom

lemma reserve (hi : i ∈ s.live) (hfits : growFits i n s) : Balanced E (memBufferReserve E i n s).2 := by
  unfold memBufferReserve
  split_ifs with h0
  · exact h
  · obtain ⟨-, hring⟩ := not_or.1 h0
    exact h.weighed hi (h.maybeGrow hi hfits (by simpa using hring))

lemma pop (hi : i ∈ s.live) (n : ℕ) : Balanced E (memBufferPop E i n s).2 := by
  unfold memBufferPop
  simp only
  split_ifs with h0
  · exact h
  · have hring : (s.buf i).flags.mallocType = false := by
      simp only [not_or, Bool.not_eq_true] at h0
      exact h0.2.2
    have hlen := (h.sized i hi).ring hring
    have hpop : Balanced E (s.onBuf i (popBytes n)) := by
      refine h.onBuf hi ?_ (setRing_held ..).1 (setRing_held ..).2
      exact (h.sized i hi).setRing hring _ ((Nat.sub_le _ _).trans hlen)
    have hring' : ((s.onBuf i (popBytes n)).buf i).flags.mallocType = false := by
      rw [Sys.onBuf_self]
      exact hring
    have hw := maybeShrink_weighed (E := E) (hpop.within hi) hring' (decide (uadd (s.buf i).head n ≥ (s.buf i).cap))
    exact (hpop.weighed hi hw).quiet (hw.beside.live ▸ hi) (quiet_maybeClear i _)

lemma poolMalloc (hi : i ∈ s.live) (size : ℕ) : Balanced E (memBufferMalloc i size s).2 := by
  unfold memBufferMalloc
  simp only
  split_ifs with h0 h1
  · exact h
  · exact h
  · split
    · exact h
    · have hpool : (s.buf i).flags.mallocType = true := by
        simp only [not_or, Bool.not_eq_false] at h0
        exact h0.1
      refine h.onBuf hi ?_ rfl (bitmapHeld_setPool ..)
      exact (h.sized i hi).setPool hpool _ _ _

lemma poolFree (hi : i ∈ s.live) (ptr : ℕ) : Balanced E (memBufferFree E i ptr s) := by
  unfold memBufferFree
  simp only
  split_ifs with h0 h1 h2 h3
  · exact h
  · exact h
  · exact h
  · exact h
  · have hpool : (s.buf i).flags.mallocType = true := by
      simp only [not_or, Bool.not_eq_false] at h0
      exact h0.1
    generalize hstart : (usub ptr 2 - (s.buf i).buf.base) / (s.buf i).poolBlockSize = start
    generalize hblocks : (s.buf i).buf.bytes.word (usub ptr 2 - (s.buf i).buf.base) = blocks
    have hgive : Balanced E (s.onBuf i (giveRun start blocks)) := by
      refine h.onBuf hi ?_ rfl (bitmapHeld_setPool ..)
      unfold giveRun
      exact (h.sized i hi).setPool hpool _ _ _
    have hpool' : ((s.onBuf i (giveRun start blocks)).buf i).flags.mallocType = true := by
      rw [Sys.onBuf_self]
      exact hpool
    have hw := shrinkPool_weighed (E := E) (hgive.within hi) hpool'
    exact (hgive.weighed hi hw).quiet (hw.beside.live ▸ hi) (quiet_maybeClear i _)

end

lemma perform {op : BufOp} (h : Balanced E s) (hok : affordable E s op) : Balanced E (perform E s op) := by
  obtain ⟨htarget, hfits⟩ := Bool.and_eq_true_iff.1 hok
  -- a setting that leaves what the buffer holds
  have hset : ∀ {i : ℕ} {f : MemBuffer → MemBuffer}, i ∈ s.live → (f (s.buf i)).buf = (s.buf i).buf →
      (f (s.buf i)).cap = (s.buf i).cap → (f (s.buf i)).flags = (s.buf i).flags → (f (s.buf i)).u₀ = (s.buf i).u₀ →
      (f (s.buf i)).u₁ = (s.buf i).u₁ → (f (s.buf i)).poolBitmap = (s.buf i).poolBitmap →
      (f (s.buf i)).poolBitmapBytes = (s.buf i).poolBitmapBytes → Balanced E (s.onBuf i f) := by
    intro i f hi hbuf hcap hflags h0 h1 hbitmap hbytes
    have hs := h.sized i hi
    refine h.onBuf hi ⟨?_, ?_, ?_, ?_⟩ hcap (by rw [bitmapHeld, hbitmap, bitmapHeld])
    · rw [hbuf, hcap]
      exact hs.size
    · rw [hflags, len, h0, hcap]
      exact hs.ring
    · rw [hflags, poolBlockCount, poolBlockSize, h0, h1, hcap]
      exact hs.pool
    · rw [hbitmap, hbytes]
      exact hs.bitmap
  cases op with
  | create initialCap maxCap lockSize flags => exact h.create hfits rfl
  | destroy i => exact h.destroy (of_decide_eq_true htarget)
  | push i data => exact h.push (of_decide_eq_true htarget) hfits
  | pop i len => exact h.pop (of_decide_eq_true htarget) len
  | reserve i len => exact h.reserve (of_decide_eq_true htarget) hfits
  | malloc i size => exact h.poolMalloc (of_decide_eq_true htarget) size
  | free i ptr => exact h.poolFree (of_decide_eq_true htarget) ptr
  | setOwner i owner => exact hset (of_decide_eq_true htarget) rfl rfl rfl rfl rfl rfl rfl
  | setGrow i thresholdPct step =>
    refine hset (of_decide_eq_true htarget) ?_ ?_ ?_ ?_ ?_ ?_ ?_ <;> unfold memBufferSetGrow <;> split_ifs <;> rfl
  | setShrink i thresholdPct step =>
    refine hset (of_decide_eq_true htarget) ?_ ?_ ?_ ?_ ?_ ?_ ?_ <;> unfold memBufferSetShrink <;> split_ifs <;> rfl
  | setMaxSize i maxCap =>
    refine hset (of_decide_eq_true htarget) ?_ ?_ ?_ ?_ ?_ ?_ ?_ <;> unfold memBufferSetMaxSize <;> split_ifs <;> rfl

end Balanced

/-! ### Runs -/

lemma perform_beside (s : Sys σ) (op : BufOp) : Beside (op.target.getD s.calls) s { perform E s op with live := s.live } := by
  have hlive : ∀ {i} {t : Sys σ}, Beside i s t → Beside i s { t with live := s.live } := fun h => h.live ▸ h
  cases op with
  | create initialCap maxCap lockSize flags => exact (create_beside rfl).1
  | destroy i => exact destroy_beside (.refl i s)
  | push i data => exact hlive (push_beside data s)
  | pop i len => exact hlive (pop_beside len s)
  | reserve i len => exact hlive (reserve_beside len s)
  | malloc i size => exact hlive (poolMalloc_beside size s)
  | free i ptr => exact hlive (poolFree_beside ptr s)
  | setOwner i _ | setGrow i _ _ | setShrink i _ _ | setMaxSize i _ => exact (Beside.refl i s).onBuf _

/-- The accounts: `heap_used` is what the live buffers hold, within the budget, and a `mem_buffer_create` that fails leaves
neither budget nor memory behind. -/
structure Accounts (E : Env σ) (s : Sys σ) : Prop where
  used : s.cfg.heapUsed = total E s
  le : s.cfg.heapUsed ≤ s.cfg.maxHeap
  empty : s.live = [] → s.cfg.heapUsed = 0
  refund : ∀ (initialCap maxCap lockSize : ℕ) (flags : Flags) (t : Sys σ), createFits E initialCap lockSize flags s →
    memBufferCreate E initialCap maxCap lockSize flags s = (none, t) → Refunded s t

/-- **The accounts balance**, in every run whose operations are on live buffers and charge sums that fit. -/
theorem accounts_balance (E : Env σ) (maxHeap : ℕ) (hasRealloc : Bool) (s t : Sys σ) (hpos : 0 < maxHeap)
    (hlt : maxHeap < uintRange) (hlive : s.live = []) (ops : List BufOp)
    (h : run (guarded (affordable E) fun s op => some (perform E s op)) (memInit maxHeap hasRealloc s) ops = some t) :
    Accounts E t := by
  have hbal : Balanced E t := by
    refine run_inv (Balanced E) ?_ ?_ h
    · intro s op s' hs hstep
      obtain ⟨hok, hstep⟩ := guarded_some.1 hstep
      cases hstep
      exact hs.perform hok
    · have hl : (memInit maxHeap hasRealloc s).live = [] := hlive
      refine ⟨?_, ?_, ?_, ?_, Nat.zero_le _, hpos, hlt⟩
      · rw [hl]
        exact nodup_nil
      · simp [hl]
      · simp [hl]
      · rw [total, hl]
        rfl
  refine ⟨hbal.used, hbal.le, fun hl => ?_, fun _ _ _ _ _ hfits hc => create_outcome hbal.pos hfits hc⟩
  rw [hbal.used, total, hl]
  rfl

theorem accounts_balance_two :
    ∃ t, run (guarded (affordable plainEnv) fun s op => some (perform plainEnv s op)) (memInit 1000 true { allocs := plenty, world := () })
        [.create 2 8 0 {}, .push 0 [1, 2, 3], .create 64 64 16 { mallocType := true }, .malloc 3 10, .destroy 0] =
          some t ∧
      t.live = [3] ∧ t.cfg.heapUsed = 48 + 64 + 1 ∧ Accounts plainEnv t :=
  ⟨_, rfl, by decide +kernel, by decide +kernel,
    accounts_balance plainEnv 1000 true { allocs := plenty, world := () } _ (by decide) (by decide) rfl
      [.create 2 8 0 {}, .push 0 [1, 2, 3], .create 64 64 16 { mallocType := true }, .malloc 3 10, .destroy 0] rfl⟩

def noShrink (n : ℕ) : Option Raw := if n = 2 then none else plenty n

/-- A buffer of 100 bytes is to be locked at 50; the block stays as it is, and `mem_buffer_destroy` gives back 50 bytes too
few. -/
theorem budget_left_behind :
    ∃ t, run (fun s op => some (perform plainEnv s op)) (memInit 1000 true { allocs := noShrink, world := () })
        [.create 100 100 50 { lockSize := true }, .destroy 0] = some t ∧
      t.live = [] ∧ t.cfg.heapUsed = 50 :=
  ⟨_, rfl, by decide +kernel, by decide +kernel⟩

end LwftpCe.Buffer
