import LwftpCe.Buffer.Fifo
import LwftpCe.Buffer.Moves

/-!
# When a ring has room

`mem_buffer_maybe_grow` is asked for room in advance, and again by every push.  Here is when it says yes: the bytes stay
below the threshold, or the ring is at its limit, or the budget and the allocator serve the growth (`Ample`).  `Ready k need`
says that it will say yes `k` more times, as long as no more than `need` bytes are in the ring.
-/

namespace LwftpCe.Buffer

open Lib

variable {σ : Type} {E : Env σ} {i n need k newCap : ℕ} {s t : Sys σ} {rb : MemBuffer} {needed : ℕ}

def growCap (rb : MemBuffer) (needed : ℕ) : ℕ :=
  if rb.maxCap ≠ sizeMax ∧ growTarget rb needed > rb.maxCap then rb.maxCap else growTarget rb needed

def roomCap (rb : MemBuffer) (needed : ℕ) : ℕ :=
  if needed ≤ rb.cap ∧ needed < thresholdBytes rb.cap rb.growThresholdPct then rb.cap else growCap rb needed

/-- A ring that is not locked, with a limit; its capacity and its step are small against a `size_t`. -/
structure Growing (rb : MemBuffer) : Prop where
  isRing : IsRing rb
  lock : rb.flags.lockSize = false
  step_pos : 0 < rb.step
  small : rb.maxCap + rb.step < uintRange - 1

lemma maybeGrow_below (hlock : (s.buf i).flags.lockSize = false) (hroom : uadd (s.buf i).len n ≤ (s.buf i).cap)
    (hthr : uadd (s.buf i).len n < thresholdBytes (s.buf i).cap (s.buf i).growThresholdPct) :
    memBufferMaybeGrow E i n s = (true, reportUsage E i (uadd (s.buf i).len n) s) := by
  unfold memBufferMaybeGrow
  simp only [hlock, Bool.false_eq_true, if_false]
  rw [if_pos ⟨hroom, hthr⟩]

lemma maybeGrow_above (hlock : (s.buf i).flags.lockSize = false) (hthr : ¬ (uadd (s.buf i).len n ≤ (s.buf i).cap ∧
      uadd (s.buf i).len n < thresholdBytes (s.buf i).cap (s.buf i).growThresholdPct)) :
    memBufferMaybeGrow E i n s =
      growTo E i (uadd (s.buf i).len n) (growTarget (s.buf i) (uadd (s.buf i).len n)) (reportUsage E i (uadd (s.buf i).len n) s) := by
  unfold memBufferMaybeGrow
  simp only [hlock, Bool.false_eq_true, if_false]
  rw [if_neg hthr]

lemma growTo_eq (h : (s.buf i).maxCap = rb.maxCap) (hmax : needed ≤ rb.maxCap) : growTo E i needed (growTarget rb needed) s =
      match memBufferResize E i (growCap rb needed) s with
      | (true, t) => (true, t)
      | (false, t) => (false, memBufferNotifyLowmem E i .critical t) := by
  unfold growTo growCap
  dsimp only
  rw [h]
  exact if_neg (by omega)

lemma maybeGrow_cap (hlock : (s.buf i).flags.lockSize = false) (h : memBufferMaybeGrow E i n s = (true, t)) :
    (t.buf i).cap = roomCap (s.buf i) (uadd (s.buf i).len n) := by
  obtain ⟨level, hl⟩ := (reportUsage_quiet (E := E) i (uadd (s.buf i).len n) s).self
  unfold roomCap
  split_ifs with hthr
  · rw [maybeGrow_below hlock hthr.1 hthr.2] at h
    obtain ⟨-, rfl⟩ := Prod.mk.inj h
    rw [hl]
  · rw [maybeGrow_above hlock hthr] at h
    generalize reportUsage E i (uadd (s.buf i).len n) s = u at h hl
    have hmaxCap : (u.buf i).maxCap = (s.buf i).maxCap := by rw [hl]
    unfold growTo at h
    simp only [hmaxCap] at h
    split at h
    · cases h
    · split at h
      · next v hv =>
        cases h
        exact resize_cap hv
      · cases h

/-! ### The target -/

lemma le_alignStep {value step : ℕ} (hstep : 0 < step) (h : value + step < uintRange) : value ≤ alignStep value step := by
  unfold alignStep
  split_ifs
  · exact le_rfl
  · exact le_rfl
  · rw [uadd_of_lt (by omega)]
    omega

lemma Growing.le_growTarget (h : Growing rb) (needed : ℕ) :
    rb.cap ≤ growTarget rb needed ∧ needed ≤ growTarget rb needed := by
  have hcap := h.isRing.cap_le
  have hsmall := h.small
  refine ⟨le_max_of_le_left ?_, le_max_right _ _⟩
  split_ifs
  · rw [uadd_of_lt (by omega)]
    omega
  · omega

lemma Growing.growCap_bounds (h : Growing rb) (hn : needed ≤ rb.maxCap) :
    rb.cap ≤ growCap rb needed ∧ needed ≤ growCap rb needed ∧ growCap rb needed ≤ rb.maxCap := by
  obtain ⟨h1, h2⟩ := h.le_growTarget needed
  have hcap := h.isRing.cap_le
  have hsmall := h.small
  have hsz : sizeMax = uintRange - 1 := rfl
  unfold growCap
  split_ifs with hl
  · exact ⟨hcap, hn, le_rfl⟩
  · by_contra hgt
    exact hl ⟨by omega, by omega⟩

lemma maybeGrow_used (h : Growing (s.buf i)) (hmax : uadd (s.buf i).len n ≤ (s.buf i).maxCap)
    (hgrow : memBufferMaybeGrow E i n s = (true, t)) :
    t.cfg.heapUsed + ((s.buf i).maxCap - (t.buf i).cap) ≤ s.cfg.heapUsed + ((s.buf i).maxCap - (s.buf i).cap) := by
  have hq := reportUsage_quiet (E := E) i (uadd (s.buf i).len n) s
  obtain ⟨level, hl⟩ := hq.self
  by_cases hthr : uadd (s.buf i).len n ≤ (s.buf i).cap ∧
      uadd (s.buf i).len n < thresholdBytes (s.buf i).cap (s.buf i).growThresholdPct
  · rw [maybeGrow_below h.lock hthr.1 hthr.2] at hgrow
    obtain ⟨-, rfl⟩ := Prod.mk.inj hgrow
    rw [hq.cfg, hl]
  · rw [maybeGrow_above h.lock hthr] at hgrow
    generalize reportUsage E i (uadd (s.buf i).len n) s = u at hq hl hgrow
    have hmaxCap : (u.buf i).maxCap = (s.buf i).maxCap := by rw [hl]
    have hcap : (u.buf i).cap = (s.buf i).cap := by rw [hl]
    obtain ⟨hc1, -, hc3⟩ := h.growCap_bounds hmax
    rw [growTo_eq hmaxCap (by omega)] at hgrow
    generalize hres : memBufferResize E i (growCap (s.buf i) (uadd (s.buf i).len n)) u = x at hgrow
    obtain ⟨_ | _, v⟩ := x
    · cases hgrow
    · cases hgrow
      have hused := resize_used hres
      rw [resize_cap hres]
      rw [hq.cfg] at hused
      omega

/-! ### Success -/

/-- The budget serves the growth to the limit, and the allocator the next `k` calls. -/
structure Ample (k i : ℕ) (s : Sys σ) : Prop where
  allocs : ∀ j < k, (s.allocs (s.calls + j)).isSome
  maxHeap : s.cfg.maxHeap < uintRange
  budget : s.cfg.maxHeap = 0 ∨ s.cfg.heapUsed + ((s.buf i).maxCap - (s.buf i).cap) ≤ s.cfg.maxHeap

lemma Ample.mono (h : Ample (k + 1) i s) : Ample k i s := ⟨fun j hj => h.allocs j (by omega), h.maxHeap, h.budget⟩

lemma Ample.congr (h : Ample k i s) (ha : t.allocs = s.allocs) (hc : t.calls = s.calls) (hcfg : t.cfg = s.cfg)
    (hm : (t.buf i).maxCap = (s.buf i).maxCap) (hcap : (t.buf i).cap = (s.buf i).cap) : Ample k i t := by
  refine ⟨?_, ?_, ?_⟩
  · rw [ha, hc]
    exact h.allocs
  · rw [hcfg]
    exact h.maxHeap
  · rw [hcfg, hm, hcap]
    exact h.budget

lemma resize_ample (h : Growing (s.buf i)) (hample : Ample (k + 1) i s) (hlen : (s.buf i).len ≤ newCap)
    (hlt : (s.buf i).cap < newCap) (hmax : newCap ≤ (s.buf i).maxCap) :
    ∃ t, memBufferResize E i newCap s = (true, t) ∧ Ample k i t := by
  obtain ⟨r, hr⟩ := Option.isSome_iff_exists.1 (hample.allocs 0 (Nat.succ_pos k))
  rw [Nat.add_zero] at hr
  have hnext : ∀ j < k, (s.allocs (s.calls + 1 + j)).isSome := fun j hj => by
    have := hample.allocs (j + 1) (by omega)
    rwa [Nat.add_comm j 1, ← Nat.add_assoc] at this
  -- what is charged
  have hcharge : ∃ used, memBufferCharge (newCap - (s.buf i).cap) s.cfg = some { s.cfg with heapUsed := used } ∧
      (s.cfg.maxHeap = 0 ∨ used + ((s.buf i).maxCap - newCap) ≤ s.cfg.maxHeap) := by
    have hm := hample.maxHeap
    unfold memBufferCharge
    rcases Nat.eq_zero_or_pos s.cfg.maxHeap with h0 | h0
    · exact ⟨s.cfg.heapUsed, by rw [if_pos h0], .inl h0⟩
    · have hbudget : s.cfg.heapUsed + ((s.buf i).maxCap - (s.buf i).cap) ≤ s.cfg.maxHeap := hample.budget.resolve_left (by omega)
      have hsum : uadd s.cfg.heapUsed (newCap - (s.buf i).cap) = s.cfg.heapUsed + (newCap - (s.buf i).cap) :=
        uadd_of_lt (by omega)
      refine ⟨s.cfg.heapUsed + (newCap - (s.buf i).cap), ?_, .inr ?_⟩
      · rw [if_neg (by omega), hsum, if_neg (by omega)]
      · omega
  obtain ⟨used, hcfg, hused⟩ := hcharge
  have hshrink : (s.buf i).cap - newCap = 0 := by omega
  -- the state behind it
  have hample' : ∀ {t : Sys σ}, t.allocs = s.allocs → t.calls = s.calls + 1 → t.cfg = { s.cfg with heapUsed := used } →
      (t.buf i).maxCap = (s.buf i).maxCap → (t.buf i).cap = newCap → Ample k i t := by
    intro t ha hc hcfg hm hcap
    refine ⟨?_, ?_, ?_⟩
    · rw [ha, hc]
      exact hnext
    · rw [hcfg]
      exact hample.maxHeap
    · rw [hcfg, hm, hcap]
      exact hused
  unfold memBufferResize
  simp only
  rw [if_neg (by omega), if_neg (by rw [h.lock]; simp), if_neg (by omega), if_pos (by omega : newCap - (s.buf i).cap > 0), hcfg]
  simp only [hshrink]
  split_ifs
  · unfold resizeInPlace realloc
    simp only [Nat.lt_irrefl, and_false, if_false, hr, gt_iff_lt]
    refine ⟨_, rfl, hample' rfl rfl rfl ?_ ?_⟩
    · rw [resized_buf]
    · rw [resized_buf]
  · unfold resizeByCopy malloc
    simp only [hr]
    refine ⟨_, rfl, hample' rfl rfl rfl ?_ ?_⟩
    · rw [resized_buf]
      rfl
    · rw [resized_buf]

def Ready (k need i : ℕ) (s : Sys σ) : Prop :=
  need ≤ (s.buf i).maxCap ∧
    (need ≤ (s.buf i).cap ∧ need < thresholdBytes (s.buf i).cap (s.buf i).growThresholdPct ∨
      (s.buf i).cap = (s.buf i).maxCap ∨ Ample k i s)

lemma Ready.maybeGrow (h : Growing (s.buf i)) (hready : Ready (k + 1) need i s) (hn : (s.buf i).len + n ≤ need) :
    ∃ t, memBufferMaybeGrow E i n s = (true, t) ∧ Ready k need i t := by
  obtain ⟨hmax, hready⟩ := hready
  have hsmall := h.small
  have hsum : uadd (s.buf i).len n = (s.buf i).len + n := uadd_of_lt (by omega)
  have hq := reportUsage_quiet (E := E) i (uadd (s.buf i).len n) s
  obtain ⟨level, hl⟩ := hq.self
  by_cases hthr : uadd (s.buf i).len n ≤ (s.buf i).cap ∧
      uadd (s.buf i).len n < thresholdBytes (s.buf i).cap (s.buf i).growThresholdPct
  · -- nothing but the report
    refine ⟨_, maybeGrow_below h.lock hthr.1 hthr.2, ?_⟩
    unfold Ready
    rw [hl]
    refine ⟨hmax, hready.imp_right (Or.imp_right fun ha => ?_)⟩
    exact ha.mono.congr hq.allocs hq.calls hq.cfg (by rw [hl]) (by rw [hl])
  · rw [maybeGrow_above h.lock hthr]
    generalize reportUsage E i (uadd (s.buf i).len n) s = u at hq hl
    have hu : Growing (u.buf i) := ⟨(hq.kept h.isRing).isRing, by rw [hl]; exact h.lock, by rw [hl]; exact h.step_pos,
      by rw [hl]; exact h.small⟩
    have hmaxCap : (u.buf i).maxCap = (s.buf i).maxCap := by rw [hl]
    have hcap : (u.buf i).cap = (s.buf i).cap := by rw [hl]
    have hlen : (u.buf i).len = (s.buf i).len := by rw [hl]
    rw [growTo_eq hmaxCap (by omega)]
    obtain ⟨hc1, hc2, hc3⟩ := h.growCap_bounds (by omega : uadd (s.buf i).len n ≤ (s.buf i).maxCap)
    rcases Nat.eq_or_lt_of_le hc1 with heq | hlt
    · -- the ring is at its limit
      have hsame : memBufferResize E i (growCap (s.buf i) (uadd (s.buf i).len n)) u = (true, u) := by
        unfold memBufferResize
        simp only [hcap, ← heq, or_true, if_true, decide_true]
      rw [hsame]
      refine ⟨u, rfl, ?_⟩
      unfold Ready
      rw [hl]
      refine ⟨hmax, hready.imp_right (Or.imp_right fun ha => ?_)⟩
      exact ha.mono.congr hq.allocs hq.calls hq.cfg (by rw [hl]) (by rw [hl])
    · have hample : Ample (k + 1) i u := by
        rcases hready with hbelow | hfull | ha
        · exact absurd ⟨by omega, by omega⟩ hthr
        · omega
        · exact ha.congr hq.allocs hq.calls hq.cfg hmaxCap hcap
      obtain ⟨t, ht, hat⟩ := resize_ample hu hample (by omega : (u.buf i).len ≤ _) (by omega : (u.buf i).cap < _)
        (by omega : growCap (s.buf i) (uadd (s.buf i).len n) ≤ _)
      rw [ht]
      refine ⟨t, rfl, ?_, .inr (.inr hat)⟩
      have hfix := (Moves.refl (E := E) (i := i) (s := u)).resize (growCap (s.buf i) (uadd (s.buf i).len n))
      rw [ht] at hfix
      rw [hfix.fixed.maxCap, hmaxCap]
      exact hmax

lemma Ready.setRing (h : Ready k need i s) {f : MemBuffer → MemBuffer} {g : Mem → Mem} {head len : ℕ}
    (hf : f (s.buf i) = (s.buf i).setRing g head len) : Ready k need i (s.onBuf i f) := by
  obtain ⟨hmax, hready⟩ := h
  have hself : (s.onBuf i f).buf i = (s.buf i).setRing g head len := by rw [Sys.onBuf_self, hf]
  unfold Ready
  rw [hself]
  refine ⟨hmax, hready.imp_right (Or.imp_right fun ha => ?_)⟩
  exact ha.congr rfl rfl rfl (by rw [hself]; rfl) (by rw [hself]; rfl)

end LwftpCe.Buffer
