import LwftpCe.Buffer.Pool

/-!
# What an operation on a buffer leaves alone

`Beside i s t`: between the states `s` and `t` only the buffer `i`, the budget, the pressure and the allocator have changed.
-/

namespace LwftpCe.Buffer

open Lib Function Sys

variable {σ : Type} {E : Env σ} {i : ℕ} {s t u : Sys σ} {newCap : ℕ} {n lockSize : ℕ} {ok : Bool}

structure Beside (i : ℕ) (s t : Sys σ) : Prop where
  buf : ∀ j, j ≠ i → t.buf j = s.buf j
  live : t.live = s.live
  pools : t.lwipPools = s.lwipPools
  heap : t.lwipHeap = s.lwipHeap
  allocs : t.allocs = s.allocs
  calls : s.calls ≤ t.calls
  cfg : t.cfg = { s.cfg with heapUsed := t.cfg.heapUsed }

namespace Beside

lemma refl (i : ℕ) (s : Sys σ) : Beside i s s := ⟨fun _ _ => rfl, rfl, rfl, rfl, rfl, le_rfl, rfl⟩

variable (h : Beside i s t)

include h

lemma trans (h' : Beside i t u) : Beside i s u :=
  ⟨fun j hj => (h'.buf j hj).trans (h.buf j hj), h'.live.trans h.live, h'.pools.trans h.pools, h'.heap.trans h.heap,
    h'.allocs.trans h.allocs, h.calls.trans h'.calls, by rw [h'.cfg, h.cfg]⟩

lemma maxHeap : t.cfg.maxHeap = s.cfg.maxHeap := by rw [h.cfg]

lemma step : t.cfg.step = s.cfg.step := by rw [h.cfg]

lemma onBuf (f : MemBuffer → MemBuffer) : Beside i s (t.onBuf i f) :=
  h.trans ⟨fun _ hj => onBuf_other hj f t, rfl, rfl, rfl, rfl, le_rfl, rfl⟩

lemma free (b : Block) : Beside i s (free b t) :=
  h.trans ⟨fun _ _ => rfl, rfl, rfl, rfl, rfl, le_rfl, rfl⟩

lemma release (bytes : ℕ) : Beside i s (t.onCfg (memBufferRelease bytes)) :=
  h.trans ⟨fun _ _ => rfl, rfl, rfl, rfl, rfl, le_rfl, rfl⟩

lemma charge {bytes : ℕ} {cfg : Config} (hc : memBufferCharge bytes t.cfg = some cfg) :
    Beside i s { t with cfg } := by
  refine h.trans ⟨fun _ _ => rfl, rfl, rfl, rfl, rfl, le_rfl, ?_⟩
  unfold memBufferCharge at hc
  split_ifs at hc <;> cases hc <;> rfl

lemma malloc (size : ℕ) : Beside i s (malloc size t).2 := by
  refine h.trans ?_
  unfold Buffer.malloc
  split <;> exact ⟨fun _ _ => rfl, rfl, rfl, rfl, rfl, Nat.le_succ _, rfl⟩

lemma realloc (b : Block) (size : ℕ) : Beside i s (realloc b size t).2 := by
  refine h.trans ?_
  unfold Buffer.realloc
  split <;> exact ⟨fun _ _ => rfl, rfl, rfl, rfl, rfl, Nat.le_succ _, rfl⟩

lemma quiet (hq : Quiet i t u) : Beside i s u := by
  obtain ⟨level, hl⟩ := hq.buf
  refine h.trans ⟨fun j hj => ?_, hq.live, hq.lwipPools, hq.lwipHeap, hq.allocs, hq.calls.ge, by rw [hq.cfg]⟩
  rw [hl, update_of_ne hj]

end Beside

/-! ### Resizing -/

@[simp] lemma giveBack_buf (grow : ℕ) (s : Sys σ) : (giveBack grow s).buf = s.buf := by
  unfold giveBack
  split_ifs <;> rfl

lemma resized_buf (i newCap shrink : ℕ) (b : Block) (s : Sys σ) : (resized i newCap shrink b s).buf i =
    { s.buf i with buf := b, cap := newCap, u₁ := 0, shrinkHits := 0, shrinkStage := 0,
                   shrinkHoldNext := (s.buf i).shrinkHoldBase } := by
  unfold resized
  split_ifs
  · rw [onCfg_buf, onBuf_self]
  · rw [onBuf_self]

lemma resized_beside (h : Beside i s t) (newCap shrink : ℕ) (b : Block) : Beside i s (resized i newCap shrink b t) := by
  unfold resized
  split_ifs
  · exact (h.onBuf _).release _
  · exact h.onBuf _

lemma giveBack_beside (h : Beside i s t) (grow : ℕ) : Beside i s (giveBack grow t) := by
  unfold giveBack
  split_ifs
  · exact h.release _
  · exact h

def charged (i newCap : ℕ) (s : Sys σ) : Option Config :=
  if newCap - (s.buf i).cap > 0 then memBufferCharge (newCap - (s.buf i).cap) s.cfg else some s.cfg

/-- The state behind the call of the allocator: the budget is charged, and `g` has been done to the bytes. -/
def called (i : ℕ) (cfg : Config) (g : Mem → Mem) (heap : List HeapObs) (s : Sys σ) : Sys σ :=
  { { s with cfg }.onBuf i (·.onBytes g) with calls := s.calls + 1, heap }

lemma called_buf (i : ℕ) (cfg : Config) (g : Mem → Mem) (heap : List HeapObs) (s : Sys σ) :
    (called i cfg g heap s).buf i = (s.buf i).onBytes g := update_self ..

lemma onBytes_id (i : ℕ) (s : Sys σ) : s.onBuf i (·.onBytes id) = s :=
  congrArg (fun buf => { s with buf }) (update_eq_self i s.buf)

lemma called_id (i : ℕ) (cfg : Config) (heap : List HeapObs) (s : Sys σ) :
    called i cfg id heap s = { s with cfg, calls := s.calls + 1, heap } := by
  unfold called
  rw [onBytes_id]

/-- The exits of `mem_buffer_resize`.  `g` is what is done to the bytes in front of `realloc_fn`. -/
inductive Resizes (E : Env σ) (i newCap : ℕ) (s : Sys σ) : Bool × Sys σ → Prop
  | stays (h : newCap < (s.buf i).len ∨ newCap = (s.buf i).cap) : Resizes E i newCap s (newCap = (s.buf i).cap, s)
  | refused (hlen : (s.buf i).len ≤ newCap) (hne : newCap ≠ (s.buf i).cap) (h : (s.buf i).flags.lockSize = true ∨
      ((s.buf i).maxCap ≠ sizeMax ∧ newCap > (s.buf i).maxCap) ∨ charged i newCap s = none) : Resizes E i newCap s (false, s)
  | failed {cfg : Config} {g : Mem → Mem} {t : Sys σ} (hlen : (s.buf i).len ≤ newCap) (hne : newCap ≠ (s.buf i).cap)
      (hcfg : charged i newCap s = some cfg) (ha : s.allocs s.calls = none)
      (hg : g = id ∨ (s.buf i).head = 0 ∧ g = (·.fill newCap ((s.buf i).cap - newCap) 0))
      (ht : t = called i cfg g s.heap s ∨ t = memBufferNotifyLowmem E i .critical (called i cfg g s.heap s)) :
      Resizes E i newCap s (false, giveBack (newCap - (s.buf i).cap) t)
  | moved {cfg : Config} {g : Mem → Mem} {b : Block} {heap : List HeapObs} (hlen : (s.buf i).len ≤ newCap)
      (hne : newCap ≠ (s.buf i).cap) (hmax : (s.buf i).maxCap = sizeMax ∨ newCap ≤ (s.buf i).maxCap)
      (hcfg : charged i newCap s = some cfg) (ha : (s.allocs s.calls).isSome)
      (hg : g = id ∨ (s.buf i).head = 0 ∧ g = (·.fill newCap ((s.buf i).cap - newCap) 0)) (hsize : b.size = newCap)
      (hb : (s.buf i).head = 0 ∧ (∀ k, k < (s.buf i).buf.size → k < newCap → b.bytes k = g (s.buf i).buf.bytes k) ∨
        ∃ b₀, b = copyRing (s.buf i) b₀) :
      Resizes E i newCap s (true, resized i newCap ((s.buf i).cap - newCap) b (called i cfg g heap s))

lemma resize_resizes (newCap : ℕ) (s : Sys σ) : Resizes E i newCap s (memBufferResize E i newCap s) := by
  unfold memBufferResize
  dsimp only
  by_cases h1 : newCap < (s.buf i).len ∨ newCap = (s.buf i).cap
  · rw [if_pos h1]
    exact .stays h1
  rw [if_neg h1]
  have hlen : (s.buf i).len ≤ newCap := by omega
  have hne : newCap ≠ (s.buf i).cap := by omega
  by_cases h2 : (s.buf i).flags.lockSize = true
  · rw [if_pos h2]
    exact .refused hlen hne (.inl h2)
  rw [if_neg h2]
  by_cases h3 : (s.buf i).maxCap ≠ sizeMax ∧ newCap > (s.buf i).maxCap
  · rw [if_pos h3]
    exact .refused hlen hne (.inr (.inl h3))
  rw [if_neg h3]
  rw [show (if newCap - (s.buf i).cap > 0 then memBufferCharge (newCap - (s.buf i).cap) s.cfg else some s.cfg) =
    charged i newCap s from rfl]
  cases hcfg : charged i newCap s with
  | none => exact .refused hlen hne (.inr (.inr hcfg))
  | some cfg =>
    dsimp only
    split_ifs with hre
    · -- the state before `realloc_fn`
      obtain ⟨g, hg, hw⟩ : ∃ g : Mem → Mem, (g = id ∨ (s.buf i).head = 0 ∧ g = (·.fill newCap ((s.buf i).cap - newCap) 0)) ∧
          (if (s.buf i).flags.secureMode ∧ (s.buf i).cap - newCap > 0 then
            ({ s with cfg } : Sys σ).onBuf i (·.onBytes (·.fill newCap ((s.buf i).cap - newCap) 0)) else { s with cfg }) =
          { s with cfg }.onBuf i (·.onBytes g) := by
        split_ifs
        · exact ⟨_, .inr ⟨hre.2.1, rfl⟩, rfl⟩
        · exact ⟨id, .inl rfl, (onBytes_id i { s with cfg }).symm⟩
      unfold resizeInPlace
      dsimp only
      rw [hw]
      have hcall : (({ s with cfg } : Sys σ).onBuf i (·.onBytes g)).allocs (({ s with cfg } : Sys σ).onBuf i (·.onBytes g)).calls =
          s.allocs s.calls := rfl
      unfold realloc
      rw [hcall]
      cases ha : s.allocs s.calls with
      | none => exact .failed hlen hne hcfg ha hg (.inr rfl)
      | some r =>
        refine .moved hlen hne (by omega) hcfg (by rw [ha]; rfl) hg rfl (.inl ⟨hre.2.1, fun k hk hk' => ?_⟩)
        rw [onBuf_self]
        exact if_pos (lt_min hk hk')
    · unfold resizeByCopy malloc
      cases ha : s.allocs s.calls with
      | none =>
        have hfail := Resizes.failed (E := E) hlen hne hcfg ha (.inl rfl) (.inl rfl)
        rw [called_id] at hfail
        exact hfail
      | some r =>
        have hsize : (copyRing (s.buf i) ⟨s.calls, r.base, newCap, r.bytes⟩).size = newCap := by
          unfold copyRing
          split_ifs <;> rfl
        have hmoved (heap : List HeapObs) : Resizes E i newCap s (true, resized i newCap ((s.buf i).cap - newCap)
            (copyRing (s.buf i) ⟨s.calls, r.base, newCap, r.bytes⟩) (called i cfg id heap s)) :=
          .moved hlen hne (by omega) hcfg (by rw [ha]; rfl) (.inl rfl) hsize (.inr ⟨_, rfl⟩)
        have hfree := hmoved (.gave (cleared (s.buf i)) :: .got s.calls newCap :: s.heap)
        rw [called_id] at hfree
        exact hfree

lemma called_beside (h : Beside i s t) {cfg : Config} (hc : charged i newCap t = some cfg) (g : Mem → Mem)
    (heap : List HeapObs) : Beside i s (called i cfg g heap t) := by
  have hcfg : Beside i s { t with cfg } := by
    unfold charged at hc
    split_ifs at hc
    · exact h.charge hc
    · cases hc
      exact h
  exact (hcfg.onBuf _).trans ⟨fun _ _ => rfl, rfl, rfl, rfl, rfl, Nat.le_succ _, rfl⟩

lemma resize_beside (h : Beside i s t) (newCap : ℕ) : Beside i s (memBufferResize E i newCap t).2 := by
  have hr := resize_resizes (E := E) (i := i) newCap t
  generalize memBufferResize E i newCap t = x at hr
  cases hr with
  | stays | refused => exact h
  | @failed _ g v _ _ hcfg _ _ hv =>
    have hcalled := called_beside h hcfg g t.heap
    refine giveBack_beside ?_ _
    rcases hv with rfl | rfl
    · exact hcalled
    · exact hcalled.quiet (quiet_notify i .critical _)
  | moved _ _ _ hcfg => exact resized_beside (called_beside h hcfg _ _) newCap _ _

lemma resize_resized (h : memBufferResize E i newCap s = (true, t)) : newCap = (s.buf i).cap ∧ t = s ∨
    ∃ cfg b u, charged i newCap s = some cfg ∧ u.cfg = cfg ∧ t = resized i newCap ((s.buf i).cap - newCap) b u := by
  have hr := resize_resizes (E := E) (i := i) newCap s
  rw [h] at hr
  generalize hx : (true, t) = x at hr
  cases hr with
  | stays => exact .inl ⟨of_decide_eq_true (Prod.mk.inj hx).1.symm, (Prod.mk.inj hx).2⟩
  | refused | failed => cases hx
  | moved _ _ _ hcfg => exact .inr ⟨_, _, _, hcfg, rfl, (Prod.mk.inj hx).2⟩

lemma resize_cap (h : memBufferResize E i newCap s = (true, t)) : (t.buf i).cap = newCap := by
  obtain ⟨hcap, rfl⟩ | ⟨cfg, b, u, -, -, rfl⟩ := resize_resized h
  · exact hcap.symm
  · rw [resized_buf]

lemma resize_used (h : memBufferResize E i newCap s = (true, t)) : t.cfg.heapUsed ≤ s.cfg.heapUsed + (newCap - (s.buf i).cap) := by
  obtain ⟨-, rfl⟩ | ⟨cfg, b, u, hcfg, rfl, rfl⟩ := resize_resized h
  · exact Nat.le_add_right ..
  have hu : u.cfg.heapUsed ≤ s.cfg.heapUsed + (newCap - (s.buf i).cap) := by
    unfold charged at hcfg
    split_ifs at hcfg
    · unfold memBufferCharge at hcfg
      split_ifs at hcfg
      · rw [← Option.some.inj hcfg]
        exact Nat.le_add_right ..
      · rw [← Option.some.inj hcfg]
        exact Nat.mod_le ..
    · rw [← Option.some.inj hcfg]
      exact Nat.le_add_right ..
  have hrelease : ∀ bytes : ℕ, (memBufferRelease bytes u.cfg).heapUsed ≤ u.cfg.heapUsed := by
    intro bytes
    unfold memBufferRelease
    split_ifs
    · exact Nat.sub_le ..
    · exact Nat.zero_le _
  unfold resized
  split_ifs
  · exact (hrelease _).trans hu
  · exact hu

/-! ### Rings -/

lemma reportUsage_quiet (i needed : ℕ) (s : Sys σ) : Quiet i s (reportUsage E i needed s) := by
  unfold reportUsage
  simp only
  split_ifs
  · exact quiet_notify i _ s
  · exact .refl i s

/-- The exits of `mem_buffer_maybe_grow`; `u` is the state behind the report of the usage. -/
inductive GrowsTo (E : Env σ) (i needed : ℕ) (s u : Sys σ) : Bool × Sys σ → Prop
  | refused : GrowsTo E i needed s u (false, memBufferNotifyLowmem E i .critical u)
  | stays (h : needed ≤ (s.buf i).cap) : GrowsTo E i needed s u (true, u)
  | grown (c : ℕ) (hc : needed ≤ c ∧ c ≤ growTarget (s.buf i) needed) (h : (memBufferResize E i c u).1 = true) :
      GrowsTo E i needed s u (true, (memBufferResize E i c u).2)
  | failed (c : ℕ) (hc : needed ≤ c ∧ c ≤ growTarget (s.buf i) needed) :
      GrowsTo E i needed s u (false, memBufferNotifyLowmem E i .critical (memBufferResize E i c u).2)

lemma maybeGrow_growsTo (n : ℕ) (s : Sys σ) :
    GrowsTo E i (uadd (s.buf i).len n) s (reportUsage E i (uadd (s.buf i).len n) s) (memBufferMaybeGrow E i n s) := by
  unfold memBufferMaybeGrow
  dsimp only
  generalize uadd (s.buf i).len n = needed
  generalize reportUsage E i needed s = u
  have htarget : needed ≤ growTarget (s.buf i) needed := le_max_right _ _
  split_ifs with hlock hgt hroom
  · exact .refused
  · exact .stays (by omega)
  · exact .stays hroom.1
  · unfold growTo
    by_cases hlim : ((u.buf i).maxCap ≠ sizeMax ∧ growTarget (s.buf i) needed > (u.buf i).maxCap) ∧ (u.buf i).maxCap < needed
    · rw [if_pos hlim]
      exact .refused
    rw [if_neg hlim]
    -- the new capacity is the target or the limit
    generalize hc : (if (u.buf i).maxCap ≠ sizeMax ∧ growTarget (s.buf i) needed > (u.buf i).maxCap then (u.buf i).maxCap
      else growTarget (s.buf i) needed) = c
    have hbounds : needed ≤ c ∧ c ≤ growTarget (s.buf i) needed := by
      split_ifs at hc <;> omega
    have hgrown := GrowsTo.grown (E := E) (u := u) c hbounds
    have hfailed := GrowsTo.failed (E := E) (u := u) c hbounds
    generalize memBufferResize E i c u = x at hgrown hfailed
    obtain ⟨_ | _, v⟩ := x
    · exact hfailed
    · exact hgrown rfl

lemma maybeGrow_beside (h : Beside i s t) (n : ℕ) : Beside i s (memBufferMaybeGrow E i n t).2 := by
  have hg := maybeGrow_growsTo (E := E) (i := i) n t
  have hrep := h.quiet (reportUsage_quiet (E := E) i (uadd (t.buf i).len n) t)
  generalize memBufferMaybeGrow E i n t = x at hg
  cases hg with
  | refused => exact hrep.quiet (quiet_notify i _ _)
  | stays => exact hrep
  | grown c => exact resize_beside hrep c
  | failed c => exact (resize_beside hrep c).quiet (quiet_notify i _ _)

lemma maybeGrow_room (h : memBufferMaybeGrow E i n s = (true, t)) : uadd (s.buf i).len n ≤ (t.buf i).cap := by
  have hg := maybeGrow_growsTo (E := E) (i := i) n s
  obtain ⟨level, hl⟩ := (reportUsage_quiet i (uadd (s.buf i).len n) s).self
  rw [h] at hg
  generalize hx : (true, t) = x at hg
  cases hg with
  | refused | failed => cases hx
  | stays hle =>
    rw [(Prod.mk.inj hx).2, hl]
    exact hle
  | grown c hc hok =>
    rw [(Prod.mk.inj hx).2, resize_cap (Prod.ext hok rfl)]
    exact hc.1

lemma maybeShrink_beside (h : Beside i s t) (wrapped : Bool) : Beside i s (memBufferMaybeShrink E i wrapped t) := by
  unfold memBufferMaybeShrink
  simp only
  split_ifs
  · exact h
  · exact h
  · exact h
  · exact h.onBuf _
  · exact h
  · exact h.onBuf _
  · exact (resize_beside (h.onBuf _) _).onBuf _

lemma reserve_beside (n : ℕ) (s : Sys σ) : Beside i s (memBufferReserve E i n s).2 := by
  unfold memBufferReserve
  split_ifs
  · exact .refl i s
  · exact maybeGrow_beside (.refl i s) n

lemma push_beside (data : Bytes) (s : Sys σ) : Beside i s (memBufferPush E i data s).2 := by
  have hgrow := maybeGrow_beside (E := E) (.refl i s) data.length
  unfold memBufferPush
  split_ifs
  · exact .refl i s
  · generalize memBufferMaybeGrow E i data.length s = x at hgrow
    obtain ⟨_ | _, t⟩ := x
    · exact hgrow
    · exact hgrow.onBuf _

lemma pop_beside (n : ℕ) (s : Sys σ) : Beside i s (memBufferPop E i n s).2 := by
  unfold memBufferPop
  simp only
  split_ifs
  · exact .refl i s
  · exact (maybeShrink_beside ((Beside.refl i s).onBuf _) _).quiet (quiet_maybeClear i _)

/-! ### Pools -/

lemma poolMalloc_beside (size : ℕ) (s : Sys σ) : Beside i s (memBufferMalloc i size s).2 := by
  unfold memBufferMalloc
  simp only
  split_ifs
  · exact .refl i s
  · exact .refl i s
  · split
    · exact .refl i s
    · exact (Beside.refl i s).onBuf _

lemma shrinkPool_beside (h : Beside i s t) : Beside i s (shrinkPool E i t) := by
  unfold shrinkPool
  simp only
  split_ifs
  · exact h
  · exact h.onBuf _
  · exact h
  · exact h.onBuf _
  · exact h.onBuf _
  · have hres := resize_beside (E := E) (h.onBuf fun rb => { rb with shrinkHits := rb.shrinkHits + 1 })
      (usub (t.buf i).cap (poolStep (t.buf i)))
    generalize memBufferResize E i _ _ = x at hres
    obtain ⟨ok, v⟩ := x
    have hv : Beside i s v := hres
    cases ok with
    | false => exact hv
    | true => exact hv.onBuf _

lemma poolFree_beside (ptr : ℕ) (s : Sys σ) : Beside i s (memBufferFree E i ptr s) := by
  unfold memBufferFree
  simp only
  split_ifs
  · exact .refl i s
  · exact .refl i s
  · exact .refl i s
  · exact .refl i s
  · exact (shrinkPool_beside ((Beside.refl i s).onBuf _)).quiet (quiet_maybeClear i _)

/-! ### Creation -/

lemma reallocNew_beside (h : Beside i s t) (b : Block) (size : ℕ) : Beside i s (reallocNew b size t).2 := by
  unfold reallocNew
  split_ifs
  · exact h.realloc b size
  · have hm := h.malloc size
    generalize malloc size t = x at hm
    obtain ⟨_ | b', u⟩ := x
    · exact hm
    · exact hm.free b

lemma lockCap_beside (initialCap : ℕ) (s : Sys σ) : Beside i s (lockCap E i initialCap s).2 := by
  unfold lockCap
  simp only
  split_ifs
  · exact .refl i s
  · split
    · exact (((Beside.refl i s).free _).free _).release _
    · next cfg hcfg =>
      have hre := reallocNew_beside ((Beside.refl i s).charge hcfg) (s.buf i).buf (s.buf i).cap
      generalize reallocNew (s.buf i).buf (s.buf i).cap { s with cfg } = x at hre
      obtain ⟨r, u⟩ := x
      have hu : Beside i s u := hre
      cases r with
      | none => exact (((hu.release _).free _).free _).release _
      | some b =>
        dsimp only
        exact hu.onBuf _
  · have hre := reallocNew_beside (.refl i s) (s.buf i).buf (s.buf i).cap
    generalize reallocNew (s.buf i).buf (s.buf i).cap s = x at hre
    obtain ⟨_ | b, u⟩ := x
    · exact hre
    · exact (hre.onBuf _).release _

lemma reallocNew_buf (b : Block) (size : ℕ) (s : Sys σ) :
    (reallocNew b size s).2.buf = s.buf ∧ ∀ b', (reallocNew b size s).1 = some b' → b'.size = size := by
  unfold reallocNew realloc malloc
  split_ifs
  · cases s.allocs s.calls with
    | none => exact ⟨rfl, by simp⟩
    | some r => exact ⟨rfl, fun b' h => by cases h; rfl⟩
  · cases s.allocs s.calls with
    | none => exact ⟨rfl, by simp⟩
    | some r => exact ⟨rfl, fun b' h => by cases h; rfl⟩

lemma lockCap_buf {initialCap : ℕ} (hsize : (s.buf i).buf.size = initialCap)
    (hcap : (s.buf i).flags.lockSize = false → (s.buf i).cap = initialCap) (h : lockCap E i initialCap s = (true, t)) :
    ∃ b, t.buf i = { s.buf i with buf := b } ∧ (s.buf i).cap ≤ b.size := by
  unfold lockCap at h
  simp only at h
  split_ifs at h with h1 h2
  · cases h
    refine ⟨(s.buf i).buf, rfl, ?_⟩
    rcases h1 with h1 | h1
    · exact (hcap h1).trans hsize.symm |>.le
    · exact (h1.trans hsize.symm).le
  · -- the buffer grows to the locked size
    split at h
    · cases h
    · next cfg _ =>
      have hre := reallocNew_buf (s.buf i).buf (s.buf i).cap { s with cfg }
      generalize reallocNew (s.buf i).buf (s.buf i).cap { s with cfg } = x at h hre
      obtain ⟨_ | b, u⟩ := x
      · cases h
      · cases h
        obtain ⟨hu, hb⟩ := hre
        have hu' : u.buf i = s.buf i := congrFun hu i
        refine ⟨b, ?_, (hb b rfl).ge⟩
        rw [onBuf_self, hu']
  · -- it shrinks, or stays larger than the locked size
    have hre := reallocNew_buf (s.buf i).buf (s.buf i).cap s
    generalize reallocNew (s.buf i).buf (s.buf i).cap s = x at h hre
    obtain ⟨_ | b, u⟩ := x
    · cases h
      exact ⟨(s.buf i).buf, congrFun hre.1 i, by omega⟩
    · cases h
      obtain ⟨hu, hb⟩ := hre
      have hu' : u.buf i = s.buf i := congrFun hu i
      refine ⟨b, ?_, (hb b rfl).ge⟩
      rw [onCfg_buf, onBuf_self, hu']

lemma destroy_rest (i : ℕ) (s : Sys σ) : (memBufferDestroy E i s).buf = s.buf ∧ (memBufferDestroy E i s).live = s.live.erase i ∧
      (memBufferDestroy E i s).calls = s.calls := by
  unfold memBufferDestroy
  simp only
  cases (s.buf i).poolBitmap <;> exact ⟨rfl, rfl, rfl⟩

lemma destroy_beside (h : Beside i s t) : Beside i s { memBufferDestroy E i t with live := s.live } := by
  have hlive : ∀ {u : Sys σ}, Beside i s u → Beside i s { u with live := s.live } := fun hu =>
    ⟨hu.buf, rfl, hu.pools, hu.heap, hu.allocs, hu.calls, hu.cfg⟩
  have hbuf := (h.free (cleared (t.buf i))).release (t.buf i).cap
  unfold memBufferDestroy
  simp only
  cases (t.buf i).poolBitmap with
  | none => exact hlive ((hbuf.free _).release _)
  | some b => exact hlive ((((hbuf.free _).release _).free _).release _)

def poolSize (lockSize : ℕ) (rb : MemBuffer) : ℕ := if lockSize ≠ 0 then lockSize else rb.step

def bitmapSize (blockSize : ℕ) (rb : MemBuffer) : ℕ := uadd (rb.cap / blockSize) 7 / 8

def asPool (blockSize : ℕ) (rb : MemBuffer) : MemBuffer :=
  { rb with u₀ := blockSize, u₁ := rb.cap / blockSize, poolBitmapBytes := bitmapSize blockSize rb }

lemma makePool_eq (lockSize : ℕ) : makePool E i lockSize s =
    if poolSize lockSize (s.buf i) = 0 ∨ (s.buf i).cap < poolSize lockSize (s.buf i) then (false, memBufferDestroy E i s)
    else
      match memBufferCharge (bitmapSize (poolSize lockSize (s.buf i)) (s.buf i)) s.cfg with
      | none => (false, memBufferDestroy E i (s.onBuf i (asPool (poolSize lockSize (s.buf i)))))
      | some cfg =>
        match malloc (bitmapSize (poolSize lockSize (s.buf i)) (s.buf i))
            { s.onBuf i (asPool (poolSize lockSize (s.buf i))) with cfg } with
        | (none, v) =>
          (false, memBufferDestroy E i (v.onCfg (memBufferRelease (bitmapSize (poolSize lockSize (s.buf i)) (s.buf i)))))
        | (some b, v) =>
          (true, v.onBuf i fun rb => { rb with
            poolBitmap := some { b with bytes := b.bytes.fill 0 (bitmapSize (poolSize lockSize (s.buf i)) (s.buf i)) 0 } }) := rfl

lemma makePool_cases {bs : ℕ} (hbs : bs = poolSize lockSize (s.buf i))
    (hn : n = bitmapSize bs (s.buf i)) (h : makePool E i lockSize s = (ok, t)) :
    ((bs = 0 ∨ (s.buf i).cap < bs) ∧ ok = false ∧ t = memBufferDestroy E i s) ∨
    (0 < bs ∧ bs ≤ (s.buf i).cap ∧
      ((ok = false ∧ t = memBufferDestroy E i (s.onBuf i (asPool bs))) ∨
       ∃ cfg, memBufferCharge n s.cfg = some cfg ∧
        ((ok = false ∧
            t = memBufferDestroy E i { s.onBuf i (asPool bs) with cfg := memBufferRelease n cfg, calls := s.calls + 1 }) ∨
         ∃ b : Block, b.id = s.calls ∧ b.size = n ∧ (∀ k < n, b.bytes k = 0) ∧ ok = true ∧
          t = { s.onBuf i (fun rb => { asPool bs rb with poolBitmap := some b }) with
            cfg, calls := s.calls + 1, heap := .got s.calls n :: s.heap }))) := by
  rw [makePool_eq, ← hbs, ← hn] at h
  by_cases h0 : bs = 0 ∨ (s.buf i).cap < bs
  · rw [if_pos h0] at h
    cases h
    exact .inl ⟨h0, rfl, rfl⟩
  rw [if_neg h0] at h
  refine .inr ⟨by omega, by omega, ?_⟩
  cases hcfg : memBufferCharge n s.cfg with
  | none =>
    rw [hcfg] at h
    cases h
    exact .inl ⟨rfl, rfl⟩
  | some cfg =>
    refine .inr ⟨cfg, rfl, ?_⟩
    cases hr : s.allocs s.calls with
    | none =>
      simp only [hcfg, malloc, onBuf, hr] at h
      cases h
      exact .inl ⟨rfl, rfl⟩
    | some r =>
      simp only [hcfg, malloc, onBuf, hr] at h
      cases h
      refine .inr ⟨⟨s.calls, r.base, n, r.bytes.fill 0 n 0⟩, rfl, rfl, fun k hk => ?_, rfl, ?_⟩
      · exact if_pos ⟨Nat.zero_le k, by omega⟩
      · simp only [onBuf, update_self, update_idem]

lemma makePool_beside (h : Beside i s t) (hm : makePool E i lockSize t = (ok, u)) : Beside i s { u with live := s.live } := by
  obtain ⟨-, -, rfl⟩ | ⟨-, -, ⟨-, rfl⟩ | ⟨cfg, hcfg, ⟨-, rfl⟩ | ⟨b, -, -, -, -, rfl⟩⟩⟩ := makePool_cases rfl rfl hm
  · exact destroy_beside h
  · exact destroy_beside (h.onBuf _)
  · have hrel := ((h.onBuf (asPool (poolSize lockSize (t.buf i)))).charge hcfg).release (bitmapSize (poolSize lockSize (t.buf i)) (t.buf i))
    exact destroy_beside (hrel.trans ⟨fun _ _ => rfl, rfl, rfl, rfl, rfl, Nat.le_succ _, rfl⟩)
  · have hb := (h.charge hcfg).onBuf fun rb => { asPool (poolSize lockSize (t.buf i)) rb with poolBitmap := some b }
    exact ⟨hb.buf, rfl, hb.pools, hb.heap, hb.allocs, hb.calls.trans (Nat.le_succ _), hb.cfg⟩

section Create

variable {initialCap maxCap lockSize : ℕ} {flags : Flags} {r : Option ℕ}

def begun (E : Env σ) (initialCap maxCap lockSize : ℕ) (flags : Flags) (cfg : Config) (r₀ r₁ : Raw) (s : Sys σ) : Sys σ :=
  { s with
    cfg
    calls := s.calls + 2
    heap := .got (s.calls + 1) initialCap :: .got s.calls E.structSize :: s.heap
    buf := Function.update s.buf s.calls (newBuffer cfg initialCap maxCap lockSize flags
      ⟨s.calls, r₀.base, E.structSize, r₀.bytes⟩ ⟨s.calls + 1, r₁.base, initialCap, r₁.bytes⟩) }

lemma create_cases (h : memBufferCreate E initialCap maxCap lockSize flags s = (r, t)) : (r = none ∧ t = s) ∨
    ∃ cfg, memBufferCharge (uadd E.structSize initialCap) s.cfg = some cfg ∧ s.cfg.ready = true ∧ 0 < initialCap ∧
      ((r = none ∧ t = { s with cfg := memBufferRelease (uadd E.structSize initialCap) cfg, calls := s.calls + 1 }) ∨
       (∃ b : Block, b.id = s.calls ∧ r = none ∧
          t = { s with
            cfg := memBufferRelease (uadd E.structSize initialCap) cfg, calls := s.calls + 2
            heap := .gave b :: .got s.calls E.structSize :: s.heap }) ∨
       ∃ r0 r1, s.allocs s.calls = some r0 ∧ s.allocs (s.calls + 1) = some r1 ∧
        finishCreate E s.calls initialCap lockSize (begun E initialCap maxCap lockSize flags cfg r0 r1 s) = (r, t)) := by
  unfold memBufferCreate at h
  simp only at h
  by_cases h0 : s.cfg.ready = false ∨ initialCap = 0
  · rw [if_pos h0] at h
    cases h
    exact .inl ⟨rfl, rfl⟩
  rw [if_neg h0] at h
  obtain ⟨hready, hinit⟩ := not_or.1 h0
  cases hcfg : memBufferCharge (uadd E.structSize initialCap) s.cfg with
  | none =>
    rw [hcfg] at h
    cases h
    exact .inl ⟨rfl, rfl⟩
  | some cfg =>
    rw [hcfg] at h
    refine .inr ⟨cfg, rfl, by simpa using hready, Nat.pos_of_ne_zero hinit, ?_⟩
    unfold malloc at h
    simp only at h
    cases h1 : s.allocs s.calls with
    | none =>
      rw [h1] at h
      cases h
      exact .inl ⟨rfl, rfl⟩
    | some r0 =>
      rw [h1] at h
      simp only at h
      cases h2 : s.allocs (s.calls + 1) with
      | none =>
        rw [h2] at h
        cases h
        exact .inr (.inl ⟨_, rfl, rfl, rfl⟩)
      | some r1 =>
        rw [h2] at h
        exact .inr (.inr ⟨r0, r1, rfl, rfl, h⟩)

lemma begun_beside {cfg : Config} (maxCap lockSize : ℕ) (flags : Flags) (r0 r1 : Raw)
    (hcfg : memBufferCharge (uadd E.structSize initialCap) s.cfg = some cfg) :
    Beside s.calls s (begun E initialCap maxCap lockSize flags cfg r0 r1 s) := by
  have h := (Beside.refl s.calls s).charge hcfg
  exact ⟨fun j hj => update_of_ne hj _ _, rfl, rfl, rfl, rfl, Nat.le_add_right _ _, h.cfg⟩

lemma finishCreate_beside (h : finishCreate E i initialCap lockSize s = (r, t)) :
    Beside i s { t with live := s.live } ∧ ∀ j, r = some j → j = i ∧ t.live = i :: s.live := by
  have hlock := lockCap_beside (E := E) (i := i) initialCap s
  unfold finishCreate at h
  generalize lockCap E i initialCap s = x at h hlock
  obtain ⟨ok, u⟩ := x
  have hu : Beside i s u := hlock
  cases ok with
  | false =>
    cases h
    exact ⟨⟨hu.buf, rfl, hu.pools, hu.heap, hu.allocs, hu.calls, hu.cfg⟩, by simp⟩
  | true =>
    simp only at h
    split_ifs at h
    · generalize hmake : makePool E i lockSize u = x at h
      obtain ⟨ok, v⟩ := x
      have hpool := makePool_beside hu hmake
      cases ok with
      | false =>
        cases h
        exact ⟨hpool, by simp⟩
      | true =>
        cases h
        refine ⟨hpool, fun j hj => ?_⟩
        cases hj
        refine ⟨rfl, ?_⟩
        obtain ⟨-, h, -⟩ | ⟨-, -, ⟨h, -⟩ | ⟨cfg, -, ⟨h, -⟩ | ⟨b, -, -, -, -, rfl⟩⟩⟩ := makePool_cases rfl rfl hmake
        · cases h
        · cases h
        · cases h
        · rw [← hu.live]
          rfl
    · cases h
      refine ⟨⟨hu.buf, rfl, hu.pools, hu.heap, hu.allocs, hu.calls, hu.cfg⟩, fun j hj => ?_⟩
      cases hj
      exact ⟨rfl, by rw [hu.live]⟩

lemma finishCreate_plain (hlock : (s.buf i).flags.lockSize = false) (hpool : (s.buf i).flags.mallocType = false) :
    finishCreate E i initialCap lockSize s = (some i, { s with live := i :: s.live }) := by
  have hcap : lockCap E i initialCap s = (true, s) := by
    exact if_pos (.inl hlock)
  unfold finishCreate
  rw [hcap]
  exact if_neg (by rw [hpool]; exact Bool.false_ne_true)

lemma create_none_live (h : memBufferCreate E initialCap maxCap lockSize flags s = (none, t)) :
    t.live = s.live ∨ t.live = s.live.erase s.calls := by
  obtain ⟨-, rfl⟩ | ⟨cfg, -, -, -, ⟨-, rfl⟩ | ⟨b, -, -, rfl⟩ | ⟨r0, r1, -, -, hfin⟩⟩ := create_cases h
  · exact .inl rfl
  · exact .inl rfl
  · exact .inl rfl
  have hlive : (begun E initialCap maxCap lockSize flags cfg r0 r1 s).live = s.live := rfl
  generalize begun E initialCap maxCap lockSize flags cfg r0 r1 s = v at hfin hlive
  have hlock := (lockCap_beside (E := E) (i := s.calls) initialCap v).live
  unfold finishCreate at hfin
  generalize lockCap E s.calls initialCap v = x at hfin hlock
  obtain ⟨ok, w⟩ := x
  have hw : w.live = s.live := hlock.trans hlive
  cases ok with
  | false =>
    cases hfin
    exact .inl hw
  | true =>
    simp only at hfin
    split_ifs at hfin
    · generalize hmake : makePool E s.calls lockSize w = y at hfin
      obtain ⟨_ | _, u⟩ := y
      · cases hfin
        have hdestroy := fun v : Sys σ => (destroy_rest (E := E) s.calls v).2.1
        obtain ⟨-, -, rfl⟩ | ⟨-, -, ⟨-, rfl⟩ | ⟨cfg, -, ⟨-, rfl⟩ | ⟨b, -, -, -, h, -⟩⟩⟩ := makePool_cases rfl rfl hmake
        · exact .inr ((hdestroy _).trans (by rw [hw]))
        · exact .inr ((hdestroy _).trans (congrArg (List.erase · _) hw))
        · exact .inr ((hdestroy _).trans (congrArg (List.erase · _) hw))
        · cases h
      · cases hfin
    · cases hfin

lemma create_beside (h : memBufferCreate E initialCap maxCap lockSize flags s = (r, t)) :
    Beside s.calls s { t with live := s.live } ∧ ∀ i, r = some i → i = s.calls ∧ s.calls < t.calls ∧ t.live = i :: s.live := by
  obtain ⟨rfl, rfl⟩ | ⟨cfg, hcfg, -, -, hexit⟩ := create_cases h
  · exact ⟨.refl _ _, by simp⟩
  have hrel := ((Beside.refl s.calls s).charge hcfg).release (uadd E.structSize initialCap)
  obtain ⟨rfl, rfl⟩ | ⟨b, -, rfl, rfl⟩ | ⟨r0, r1, -, -, hfin⟩ := hexit
  · exact ⟨⟨hrel.buf, rfl, rfl, rfl, rfl, Nat.le_add_right _ _, hrel.cfg⟩, by simp⟩
  · exact ⟨⟨hrel.buf, rfl, rfl, rfl, rfl, Nat.le_add_right _ _, hrel.cfg⟩, by simp⟩
  · obtain ⟨hb, hlive⟩ := finishCreate_beside hfin
    refine ⟨(begun_beside _ _ _ _ _ hcfg).trans hb, fun i hi => ?_⟩
    obtain ⟨rfl, hl⟩ := hlive i hi
    exact ⟨rfl, lt_of_lt_of_le (by simp [begun]) hb.calls, hl⟩

lemma create_buffer (h : memBufferCreate E initialCap maxCap lockSize flags s = (some i, t)) :
    0 < initialCap ∧ ∃ cfg self b, ∃ w : Sys σ,
      w.buf i = newBuffer cfg initialCap maxCap lockSize flags self b ∧ (w.buf i).cap ≤ b.size ∧
      if flags.mallocType then ∃ v, makePool E i lockSize w = (true, v) ∧ t.buf = v.buf else t.buf = w.buf := by
  obtain ⟨hr, -⟩ | ⟨cfg, -, -, hpos, ⟨hr, -⟩ | ⟨b, -, hr, -⟩ | ⟨r0, r1, -, -, hfin⟩⟩ := create_cases h
  · cases hr
  · cases hr
  · cases hr
  obtain ⟨rfl, -⟩ := (finishCreate_beside hfin).2 i rfl
  refine ⟨hpos, cfg, ?_⟩
  have hbegun : (begun E initialCap maxCap lockSize flags cfg r0 r1 s).buf s.calls = newBuffer cfg initialCap maxCap lockSize
      flags ⟨s.calls, r0.base, E.structSize, r0.bytes⟩ ⟨s.calls + 1, r1.base, initialCap, r1.bytes⟩ := update_self ..
  generalize begun E initialCap maxCap lockSize flags cfg r0 r1 s = v at hfin hbegun
  unfold finishCreate at hfin
  generalize hw : lockCap E s.calls initialCap v = x at hfin
  obtain ⟨_ | _, w⟩ := x
  · cases hfin
  obtain ⟨b, hb, hsize⟩ := lockCap_buf (by rw [hbegun]; rfl) (fun hl => by
    rw [hbegun] at hl ⊢
    have hl' : flags.lockSize = false := hl
    simp only [newBuffer, hl', Bool.false_eq_true, false_and, if_false]) hw
  have hbuf : w.buf s.calls = newBuffer cfg initialCap maxCap lockSize flags ⟨s.calls, r0.base, E.structSize, r0.bytes⟩ b := by
    rw [hb, hbegun]
    rfl
  refine ⟨⟨s.calls, r0.base, E.structSize, r0.bytes⟩, b, w, hbuf, by rw [hb]; exact hsize, ?_⟩
  have hflags : (w.buf s.calls).flags = flags := by
    rw [hbuf]
    rfl
  simp only [hflags] at hfin
  split_ifs at hfin with hm
  · rw [if_pos hm]
    generalize hmake : makePool E s.calls lockSize w = x at hfin
    obtain ⟨_ | _, v⟩ := x
    · cases hfin
    · cases hfin
      exact ⟨v, rfl, rfl⟩
  · rw [if_neg hm]
    cases hfin
    rfl

end Create

end LwftpCe.Buffer
