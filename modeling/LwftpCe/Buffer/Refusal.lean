import LwftpCe.Buffer.Growth

/-!
# Bytes that fit and are refused

A push and a reservation of no more bytes than there is space for.  `mem_buffer_maybe_grow` wants to grow from the threshold
on, and hands its failure on: the bytes are taken where the ring need not grow, or where the budget and the allocator serve
the growth (`GrowthServed`), and refused everywhere else.
-/

namespace LwftpCe.Buffer

open Lib List

variable {σ : Type} {E : Env σ} {i n newCap : ℕ} {s t : Sys σ}

/-! ### The answer -/

def Supplied (i newCap : ℕ) (s : Sys σ) : Prop :=
  (if newCap - (s.buf i).cap > 0 then memBufferCharge (newCap - (s.buf i).cap) s.cfg else some s.cfg).isSome = true ∧
    (s.allocs s.calls).isSome = true

lemma resize_ok_iff (hlock : (s.buf i).flags.lockSize = false) (hlen : (s.buf i).len ≤ newCap)
    (hmax : (s.buf i).maxCap = sizeMax ∨ newCap ≤ (s.buf i).maxCap) :
    (memBufferResize E i newCap s).1 = true ↔ newCap = (s.buf i).cap ∨ Supplied i newCap s := by
  have hs : Supplied i newCap s ↔ (charged i newCap s).isSome = true ∧ (s.allocs s.calls).isSome = true := Iff.rfl
  have hr := resize_resizes (E := E) (i := i) newCap s
  generalize memBufferResize E i newCap s = x at hr
  rw [hs]
  cases hr with
  | stays h => simp [show newCap = (s.buf i).cap by omega]
  | refused _ hne h =>
    have hcharged : charged i newCap s = none := by
      rcases h with h | h | h
      · exact absurd h (by simp [hlock])
      · omega
      · exact h
    simp [hne, hcharged]
  | failed _ hne _ ha => simp [hne, ha]
  | moved _ _ _ hcfg ha => simp [hcfg, ha]

def GrowthServed (i n : ℕ) (s : Sys σ) : Prop :=
  (s.buf i).flags.lockSize = true ∨
    (s.buf i).len + n < thresholdBytes (s.buf i).cap (s.buf i).growThresholdPct ∨
    growCap (s.buf i) ((s.buf i).len + n) = (s.buf i).cap ∨ Supplied i (growCap (s.buf i) ((s.buf i).len + n)) s

lemma maybeGrow_ok_iff (h : IsRing (s.buf i)) (hn : n ≤ memBufferSpace (s.buf i)) :
    (memBufferMaybeGrow E i n s).1 = true ↔ GrowthServed i n s := by
  have hlen := h.len_le
  have hlt := h.cap_lt
  have hroom : (s.buf i).len + n ≤ (s.buf i).cap := by
    unfold memBufferSpace at hn
    omega
  have hsum : uadd (s.buf i).len n = (s.buf i).len + n := uadd_of_lt (by omega)
  have hmax := h.cap_le
  unfold GrowthServed
  by_cases hlock : (s.buf i).flags.lockSize = true
  · unfold memBufferMaybeGrow
    simp only [hsum, hlock, if_true, if_neg (Nat.not_lt.2 hroom), true_or]
  simp only [hlock, Bool.false_eq_true, false_or]
  have hlock' : (s.buf i).flags.lockSize = false := by simpa using hlock
  by_cases hthr : (s.buf i).len + n < thresholdBytes (s.buf i).cap (s.buf i).growThresholdPct
  · rw [maybeGrow_below hlock' (by omega) (by omega)]
    simp [hthr]
  · rw [maybeGrow_above hlock' (by omega), hsum]
    have hq := reportUsage_quiet (E := E) i ((s.buf i).len + n) s
    obtain ⟨level, hl⟩ := hq.self
    generalize reportUsage E i ((s.buf i).len + n) s = u at hq hl
    have hmaxCap : (u.buf i).maxCap = (s.buf i).maxCap := by rw [hl]
    have hcap : (u.buf i).cap = (s.buf i).cap := by rw [hl]
    have hlen' : (u.buf i).len = (s.buf i).len := by rw [hl]
    have hgrow : (s.buf i).len + n ≤ growCap (s.buf i) ((s.buf i).len + n) ∧
        ((s.buf i).maxCap = sizeMax ∨ growCap (s.buf i) ((s.buf i).len + n) ≤ (s.buf i).maxCap) := by
      have hle : (s.buf i).len + n ≤ growTarget (s.buf i) ((s.buf i).len + n) := (growTarget_bounds hlt (by omega)).1
      unfold growCap
      split_ifs with hl'
      · exact ⟨by omega, .inr le_rfl⟩
      · exact ⟨hle, by omega⟩
    have hres : (memBufferResize E i (growCap (s.buf i) ((s.buf i).len + n)) u).1 = true ↔ _ :=
      resize_ok_iff (by rw [hl]; exact hlock') (by omega) (by rw [hmaxCap]; exact hgrow.2)
    have hsup : Supplied i (growCap (s.buf i) ((s.buf i).len + n)) u ↔ Supplied i (growCap (s.buf i) ((s.buf i).len + n)) s := by
      unfold Supplied
      rw [hcap, hq.cfg, hq.allocs, hq.calls]
    rw [growTo_eq hmaxCap (by omega), eq_false hthr, false_or, ← hsup, ← hcap, ← hres]
    generalize memBufferResize E i (growCap (s.buf i) ((s.buf i).len + n)) u = x
    obtain ⟨_ | _, t⟩ := x
    · rfl
    · rfl

lemma reserve_ok_iff (h : IsRing (s.buf i)) (h0 : 0 < n) (hn : n ≤ memBufferSpace (s.buf i)) :
    (memBufferReserve E i n s).1 = true ↔ GrowthServed i n s := by
  unfold memBufferReserve
  rw [if_neg (by simp [h.ring]; omega)]
  exact maybeGrow_ok_iff h hn

lemma push_ok_iff {data : Bytes} (h : IsRing (s.buf i)) (h0 : data ≠ []) (hn : data.length ≤ memBufferSpace (s.buf i)) :
    (memBufferPush E i data s).1 = true ↔ GrowthServed i data.length s := by
  have hgrow := maybeGrow_ok_iff (E := E) h hn
  unfold memBufferPush
  rw [if_neg (by simp [h.ring, h0]), ← hgrow]
  generalize memBufferMaybeGrow E i data.length s = x
  obtain ⟨_ | _, t⟩ := x
  · rfl
  · rfl

/-! ### Reachable rings -/

def argsFit : RingOp σ → Bool
  | .push data => data.length < uintRange
  | .reserve len => len < uintRange
  | .setMaxSize maxCap => maxCap < uintRange
  | _ => true

lemma play_isRing (op : RingOp σ) (h : IsRing (s.buf i)) (hok : argsFit op) : IsRing ((play E i s op).2.buf i) := by
  cases op with
  | push data =>
    simp only [argsFit, decide_eq_true_eq] at hok
    simp only [play, memBufferPush, h.ring, or_false, Bool.false_eq_true]
    by_cases h0 : data = []
    · rw [if_pos h0]
      exact h
    rw [if_neg h0]
    have hgrow := maybeGrow_grown (E := E) h (length_pos_iff.2 h0) hok
    generalize memBufferMaybeGrow E i data.length s = x at hgrow
    obtain ⟨ok, t⟩ := x
    have hk : Kept (s.buf i) (t.buf i) := hgrow.1
    cases ok with
    | false => exact hk.isRing
    | true =>
      have hroom : uadd (t.buf i).len data.length ≤ (t.buf i).cap := by
        rw [hk.len]
        exact hgrow.2 rfl
      simp only [Sys.onBuf_self]
      exact hk.isRing.setRing _ hroom hk.isRing.head_lt
  | pop n =>
    simp only [play, memBufferPop]
    split_ifs with h0
    · exact h
    · have hpop : IsRing ((s.onBuf i (popBytes n)).buf i) := by
        rw [Sys.onBuf_self]
        exact h.setRing _ (Nat.le_trans (Nat.sub_le ..) h.len_le) (Nat.mod_lt _ h.cap_pos)
      generalize decide (uadd (s.buf i).head n ≥ (s.buf i).cap) = wrapped
      have hshrink := maybeShrink_kept (E := E) wrapped hpop
      exact ((quiet_maybeClear i _).kept hshrink.isRing).isRing
  | peek offset n => exact h
  | reserve n =>
    simp only [argsFit, decide_eq_true_eq] at hok
    simp only [play, memBufferReserve, h.ring, Bool.false_eq_true, or_false]
    by_cases h0 : n = 0
    · rw [if_pos h0]
      exact h
    · rw [if_neg h0]
      exact (maybeGrow_grown h (Nat.pos_of_ne_zero h0) hok).1.isRing
  | setGrow _ _ | setShrink _ _ => exact (play_serves _ h rfl).1
  | setMaxSize maxCap =>
    have hsum : sumsFit i s (.setMaxSize maxCap) := hok
    exact (play_serves _ h hsum).1
  | elsewhere t => exact (play_serves _ h rfl).1

/-- **Bytes that fit are taken where the ring need not grow, or the growth is served**, and nowhere else: by a push and by a
reservation, in every state of every run of a ring. -/
theorem fitting_taken_iff (E : Env σ) (initialCap maxCap lockSize : ℕ) (flags : Flags) (s t : Sys σ) (i : ℕ)
    (hring : flags.mallocType = false) (hinit : initialCap < uintRange) (hmax : maxCap < uintRange)
    (hlock : lockSize < uintRange) (hcreate : memBufferCreate E initialCap maxCap lockSize flags s = (some i, t))
    (ops : List (RingOp σ)) (m : Log σ) (h : run (guarded (fun _ => argsFit) (Log.step E i)) ⟨t, []⟩ ops = some m)
    (data : Bytes) (h0 : 1 ≤ data.length) (hfit : data.length ≤ memBufferSpace (m.s.buf i)) :
    ((memBufferPush E i data m.s).1 = true ∧ (memBufferReserve E i data.length m.s).1 = true) ↔ GrowthServed i data.length m.s := by
  have hinv : IsRing (m.s.buf i) := by
    refine run_inv (fun m => IsRing (m.s.buf i)) ?_ (create_ring hring hinit hmax hlock hcreate).1 h
    intro m op m' hr hstep
    obtain ⟨hok, hstep⟩ := guarded_some.1 hstep
    cases hstep
    exact play_isRing _ hr hok
  rw [push_ok_iff hinv (ne_nil_of_length_pos h0) hfit, reserve_ok_iff hinv h0 hfit, and_self]

theorem fitting_taken_below : ∃ t m, memBufferCreate plainEnv 8 16 0 {} (started 0 plenty) = (some 0, t) ∧
    run (guarded (fun _ => argsFit) (Log.step plainEnv 0)) ⟨t, []⟩ [.setGrow 50 4, .push [1]] = some m ∧
    (memBufferPush plainEnv 0 [2, 3] m.s).1 = true ∧ (memBufferReserve plainEnv 0 2 m.s).1 = true :=
  ⟨_, _, rfl, rfl, (fitting_taken_iff plainEnv 8 16 0 {} (started 0 plenty) _ 0 rfl (by decide) (by decide) (by decide) rfl
    [.setGrow 50 4, .push [1]] _ rfl [2, 3] (by decide) (by decide +kernel)).2 (.inr (.inl (by decide +kernel)))⟩

def twoBlocks (n : ℕ) : Option Raw := if n < 2 then plenty n else none

/-- The same ring without memory to grow: five bytes, for which there is space, are refused. -/
theorem fitting_refused : ∃ t m, memBufferCreate plainEnv 8 16 0 {} (started 0 twoBlocks) = (some 0, t) ∧
    run (guarded (fun _ => argsFit) (Log.step plainEnv 0)) ⟨t, []⟩ [.setGrow 50 4] = some m ∧
    memBufferSpace (m.s.buf 0) = 8 ∧ (memBufferPush plainEnv 0 [1, 2, 3, 4, 5] m.s).1 = false ∧
    (memBufferReserve plainEnv 0 5 m.s).1 = false :=
  ⟨_, _, rfl, rfl, by decide +kernel, by decide +kernel, by decide +kernel⟩

end LwftpCe.Buffer
