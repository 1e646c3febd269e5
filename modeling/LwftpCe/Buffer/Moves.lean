import LwftpCe.Buffer.Frame

/-!
# The moves of an operation

An operation on a buffer is a sequence of four kinds of moves: a change of the buffer that leaves its settings alone, the
bookkeeping of the budget and of the allocator, a mark of pressure, and a clearing of it.  What all of them keep, every
operation keeps (`Moves.inv`); only the last two reach the hooks.  A growth does not clear (`Grows`), and the creation of a
buffer does not reach the pressure at all (`Silent`).
-/

namespace LwftpCe.Buffer

open Lib List Function

variable {σ : Type} {E : Env σ} {i : ℕ} {s t u : Sys σ} {rb rb' rb'' : MemBuffer} {L : Level → Prop}

structure Fixed (rb rb' : MemBuffer) : Prop where
  flags : rb'.flags = rb.flags
  owner : rb'.owner = rb.owner
  maxCap : rb'.maxCap = rb.maxCap
  step : rb'.step = rb.step
  growThresholdPct : rb'.growThresholdPct = rb.growThresholdPct
  shrinkThresholdPct : rb'.shrinkThresholdPct = rb.shrinkThresholdPct

lemma Quiet.buf_other {j : ℕ} (h : Quiet i s t) (hne : j ≠ i) : t.buf j = s.buf j := by
  obtain ⟨level, hl⟩ := h.buf
  rw [hl, update_of_ne hne]

lemma Quiet.owner (h : Quiet i s t) : (t.buf i).owner = (s.buf i).owner := by
  obtain ⟨level, hl⟩ := h.self
  rw [hl]

lemma Fixed.refl (rb : MemBuffer) : Fixed rb rb := ⟨rfl, rfl, rfl, rfl, rfl, rfl⟩

lemma Fixed.trans (h : Fixed rb rb') (h' : Fixed rb' rb'') : Fixed rb rb'' :=
  ⟨h'.flags.trans h.flags, h'.owner.trans h.owner, h'.maxCap.trans h.maxCap, h'.step.trans h.step,
    h'.growThresholdPct.trans h.growThresholdPct, h'.shrinkThresholdPct.trans h.shrinkThresholdPct⟩

/-! ### Resizing -/

/-- The moves of a resizing of the buffer `i`: the pressure is not cleared, the buffer has the level that was marked last, and the
levels that are marked are among `L`. -/
inductive Raises (E : Env σ) (i : ℕ) (L : Level → Prop) (s : Sys σ) : Sys σ → Prop
  | refl : Raises E i L s s
  | onBuf {t : Sys σ} {f : MemBuffer → MemBuffer} (h : Raises E i L s t) (hf : Fixed (t.buf i) (f (t.buf i)))
      (hl : (f (t.buf i)).lastPressureLevel = (t.buf i).lastPressureLevel) : Raises E i L s (t.onBuf i f)
  | memory {t : Sys σ} (h : Raises E i L s t) (heapUsed calls : ℕ) (heap : List HeapObs) :
      Raises E i L s { t with cfg := { t.cfg with heapUsed }, calls, heap }
  | notify {t : Sys σ} {level : Level} (h : Raises E i L s t) (hl : L level) : Raises E i L s (memBufferNotifyLowmem E i level t)

namespace Raises

variable {L : Level → Prop}

lemma inv (P : Sys σ → Prop)
    (hbuf : ∀ t f, P t → Fixed (t.buf i) (f (t.buf i)) → (f (t.buf i)).lastPressureLevel = (t.buf i).lastPressureLevel →
      P (t.onBuf i f))
    (hmem : ∀ (t : Sys σ) heapUsed calls heap, P t → P { t with cfg := { t.cfg with heapUsed }, calls, heap })
    (hnotify : ∀ t level, L level → P t → P (memBufferNotifyLowmem E i level t)) (h : Raises E i L s t) (hs : P s) : P t := by
  induction h with
  | refl => exact hs
  | onBuf _ hf hl ih => exact hbuf _ _ ih hf hl
  | memory _ heapUsed calls heap ih => exact hmem _ heapUsed calls heap ih
  | notify _ hl ih => exact hnotify _ _ hl ih

section

variable (h : Raises E i L s t)

include h

lemma release (bytes : ℕ) : Raises E i L s (t.onCfg (memBufferRelease bytes)) := h.memory _ t.calls t.heap

lemma charge {bytes : ℕ} {cfg : Config} (hc : memBufferCharge bytes t.cfg = some cfg) :
    Raises E i L s { t with cfg } := by
  unfold memBufferCharge at hc
  split_ifs at hc <;> cases hc
  · exact h
  · exact h.memory _ t.calls t.heap

lemma resized (newCap shrink : ℕ) (b : Block) : Raises E i L s (resized i newCap shrink b t) := by
  have hbuf : Raises E i L s (t.onBuf i fun rb => { rb with
      buf := b, cap := newCap, u₁ := 0, shrinkHits := 0, shrinkStage := 0, shrinkHoldNext := rb.shrinkHoldBase }) :=
    h.onBuf ⟨rfl, rfl, rfl, rfl, rfl, rfl⟩ rfl
  unfold Buffer.resized
  split_ifs
  · exact hbuf.release _
  · exact hbuf

lemma giveBack (grow : ℕ) : Raises E i L s (giveBack grow t) := by
  unfold Buffer.giveBack
  split_ifs
  · exact h.release _
  · exact h

lemma called {newCap : ℕ} {cfg : Config} (hc : charged i newCap t = some cfg) (g : Mem → Mem)
    (heap : List HeapObs) : Raises E i L s (called i cfg g heap t) := by
  have hcfg : Raises E i L s { t with cfg } := by
    unfold charged at hc
    split_ifs at hc
    · exact h.charge hc
    · cases hc
      exact h
  have hbytes : Raises E i L s ({ t with cfg }.onBuf i (·.onBytes g)) := hcfg.onBuf ⟨rfl, rfl, rfl, rfl, rfl, rfl⟩ rfl
  exact hbytes.memory cfg.heapUsed _ _

end

lemma resize (hc : L .critical) (h : Raises E i L s t) (newCap : ℕ) : Raises E i L s (memBufferResize E i newCap t).2 := by
  have hr := resize_resizes (E := E) (i := i) newCap t
  generalize memBufferResize E i newCap t = x at hr
  cases hr with
  | stays | refused => exact h
  | failed _ _ hcfg _ _ hv =>
    refine giveBack ?_ _
    rcases hv with rfl | rfl
    · exact h.called hcfg _ _
    · exact (h.called hcfg _ _).notify hc
  | moved _ _ _ hcfg => exact (h.called hcfg _ _).resized newCap _ _

lemma maybeGrow (hc : L .critical) (n : ℕ) (s : Sys σ) :
    Raises E i L (reportUsage E i (uadd (s.buf i).len n) s) (memBufferMaybeGrow E i n s).2 := by
  have hg := maybeGrow_growsTo (E := E) (i := i) n s
  generalize memBufferMaybeGrow E i n s = x at hg
  cases hg with
  | refused => exact .notify .refl hc
  | stays => exact .refl
  | grown c => exact resize hc .refl c
  | failed c => exact (resize hc .refl c).notify hc

lemma maybeShrink (hc : L .critical) (h : Raises E i L s t) (wrapped : Bool) :
    Raises E i L s (memBufferMaybeShrink E i wrapped t) := by
  unfold memBufferMaybeShrink
  simp only
  split_ifs
  · exact h
  · exact h
  · exact h
  · exact h.onBuf ⟨rfl, rfl, rfl, rfl, rfl, rfl⟩ rfl
  · exact h
  · exact h.onBuf ⟨rfl, rfl, rfl, rfl, rfl, rfl⟩ rfl
  · have hhit : Raises E i L s (t.onBuf i fun rb => { rb with shrinkHits := rb.shrinkHits + 1 }) :=
      h.onBuf ⟨rfl, rfl, rfl, rfl, rfl, rfl⟩ rfl
    exact (resize hc hhit _).onBuf ⟨rfl, rfl, rfl, rfl, rfl, rfl⟩ rfl

lemma shrinkPool (hc : L .critical) (h : Raises E i L s t) : Raises E i L s (shrinkPool E i t) := by
  unfold Buffer.shrinkPool
  simp only
  have hhit : Raises E i L s (t.onBuf i fun rb => { rb with shrinkHits := rb.shrinkHits + 1 }) :=
    h.onBuf ⟨rfl, rfl, rfl, rfl, rfl, rfl⟩ rfl
  split_ifs
  · exact h
  · exact h.onBuf ⟨rfl, rfl, rfl, rfl, rfl, rfl⟩ rfl
  · exact h
  · exact hhit
  · exact hhit
  · have hres := resize hc hhit (usub (t.buf i).cap (poolStep (t.buf i)))
    generalize memBufferResize E i _ _ = x at hres
    obtain ⟨ok, v⟩ := x
    have hv : Raises E i L s v := hres
    cases ok with
    | false => exact hv
    | true => exact hv.onBuf ⟨rfl, rfl, rfl, rfl, rfl, rfl⟩ rfl

end Raises

/-! ### Growth -/

/-- The moves of a growth of the buffer `i`: the pressure is not cleared, and the levels that are marked are among `L`. -/
inductive Grows (E : Env σ) (i : ℕ) (L : Level → Prop) (s : Sys σ) : Sys σ → Prop
  | refl : Grows E i L s s
  | onBuf {t : Sys σ} {f : MemBuffer → MemBuffer} (h : Grows E i L s t) (hf : Fixed (t.buf i) (f (t.buf i))) :
      Grows E i L s (t.onBuf i f)
  | memory {t : Sys σ} (h : Grows E i L s t) (heapUsed calls : ℕ) (heap : List HeapObs) :
      Grows E i L s { t with cfg := { t.cfg with heapUsed }, calls, heap }
  | mark {t : Sys σ} {level : Level} (h : Grows E i L s t) (hl : L level) : Grows E i L s (memPressureMark E i level t)

namespace Grows

variable {L : Level → Prop}

lemma inv (P : Sys σ → Prop) (hbuf : ∀ t f, P t → Fixed (t.buf i) (f (t.buf i)) → P (t.onBuf i f))
    (hmem : ∀ (t : Sys σ) heapUsed calls heap, P t → P { t with cfg := { t.cfg with heapUsed }, calls, heap })
    (hmark : ∀ t level, L level → P t → P (memPressureMark E i level t)) (h : Grows E i L s t) (hs : P s) : P t := by
  induction h with
  | refl => exact hs
  | onBuf _ hf ih => exact hbuf _ _ ih hf
  | memory _ heapUsed calls heap ih => exact hmem _ heapUsed calls heap ih
  | mark _ hl ih => exact hmark _ _ hl ih

lemma trans (h : Grows E i L s t) (h' : Grows E i L t u) : Grows E i L s u :=
  h'.inv (Grows E i L s) (fun _ _ hm hf => hm.onBuf hf) (fun _ heapUsed calls heap hm => hm.memory heapUsed calls heap)
    (fun _ _ hl hm => hm.mark hl) h

lemma notify (h : Grows E i L s t) {level : Level} (hl : L level) : Grows E i L s (memBufferNotifyLowmem E i level t) :=
  (h.mark hl).onBuf ⟨rfl, rfl, rfl, rfl, rfl, rfl⟩

end Grows

lemma Raises.grows (h : Raises E i L s t) : Grows E i L s t :=
  h.inv (Grows E i L s) (fun _ _ hm hf _ => hm.onBuf hf) (fun _ heapUsed calls heap hm => hm.memory heapUsed calls heap)
    (fun _ _ hl hm => hm.notify hl) .refl

namespace Grows

variable {L : Level → Prop} {n : ℕ}

lemma resize (hc : L .critical) (h : Grows E i L s t) (newCap : ℕ) : Grows E i L s (memBufferResize E i newCap t).2 :=
  h.trans (Raises.resize hc .refl newCap).grows

/-! ### Growing -/

def reported (s : Sys σ) (i needed : ℕ) : Level := memPressureLevelFromUsage (memBufferUsagePct s.cfg (s.buf i) needed)

lemma reportUsage (h : Grows E i L s t) {needed : ℕ} (hl : reported t i needed ≠ .none → L (reported t i needed)) :
    Grows E i L s (reportUsage E i needed t) := by
  unfold Buffer.reportUsage
  simp only
  split_ifs with hnone
  · exact h.notify (hl hnone.1)
  · exact h

lemma maybeGrow (hc : L .critical) (h : Grows E i L s t)
    (hl : reported t i (uadd (t.buf i).len n) ≠ .none → L (reported t i (uadd (t.buf i).len n))) :
    Grows E i L s (memBufferMaybeGrow E i n t).2 :=
  (h.reportUsage hl).trans (Raises.maybeGrow hc n t).grows

lemma setRing (h : Grows E i L s t) (f : MemBuffer → MemBuffer) (g : Mem → Mem) {head len : ℕ}
    (hf : f (t.buf i) = (t.buf i).setRing g head len) : Grows E i L s (t.onBuf i f) :=
  h.onBuf (by rw [hf]; exact ⟨rfl, rfl, rfl, rfl, rfl, rfl⟩)

lemma reserve (hc : L .critical) (hl : reported s i (uadd (s.buf i).len n) ≠ .none → L (reported s i (uadd (s.buf i).len n))) :
    Grows E i L s (memBufferReserve E i n s).2 := by
  unfold memBufferReserve
  split_ifs
  · exact .refl
  · exact maybeGrow hc .refl hl

lemma push (data : Bytes) (hc : L .critical)
    (hl : reported s i (uadd (s.buf i).len data.length) ≠ .none → L (reported s i (uadd (s.buf i).len data.length))) :
    Grows E i L s (memBufferPush E i data s).2 := by
  have hgrow := maybeGrow (E := E) hc (.refl) hl
  unfold memBufferPush
  split_ifs
  · exact .refl
  · generalize memBufferMaybeGrow E i data.length s = x at hgrow
    obtain ⟨_ | _, t⟩ := x
    · exact hgrow
    · exact Grows.setRing hgrow _ _ rfl

end Grows

/-! ### Moves -/

/-- The state `t` comes from `s` by moves of the buffer `i`. -/
inductive Moves (E : Env σ) (i : ℕ) (s : Sys σ) : Sys σ → Prop
  | refl : Moves E i s s
  | onBuf {t : Sys σ} {f : MemBuffer → MemBuffer} (h : Moves E i s t) (hf : Fixed (t.buf i) (f (t.buf i))) :
      Moves E i s (t.onBuf i f)
  | memory {t : Sys σ} (h : Moves E i s t) (heapUsed calls : ℕ) (heap : List HeapObs) :
      Moves E i s { t with cfg := { t.cfg with heapUsed }, calls, heap }
  | mark {t : Sys σ} (h : Moves E i s t) (level : Level) : Moves E i s (memPressureMark E i level t)
  | clear {t : Sys σ} (h : Moves E i s t) : Moves E i s (memPressureMaybeClear E i t)

namespace Moves

lemma inv (P : Sys σ → Prop) (hbuf : ∀ t f, P t → Fixed (t.buf i) (f (t.buf i)) → P (t.onBuf i f))
    (hmem : ∀ (t : Sys σ) heapUsed calls heap, P t → P { t with cfg := { t.cfg with heapUsed }, calls, heap })
    (hmark : ∀ t level, P t → P (memPressureMark E i level t)) (hclear : ∀ t, P t → P (memPressureMaybeClear E i t))
    (h : Moves E i s t) (hs : P s) : P t := by
  induction h with
  | refl => exact hs
  | onBuf _ hf ih => exact hbuf _ _ ih hf
  | memory _ heapUsed calls heap ih => exact hmem _ heapUsed calls heap ih
  | mark _ level ih => exact hmark _ level ih
  | clear _ ih => exact hclear _ ih

lemma trans (h : Moves E i s t) (h' : Moves E i t u) : Moves E i s u :=
  h'.inv (Moves E i s) (fun _ _ hm hf => hm.onBuf hf) (fun _ heapUsed calls heap hm => hm.memory heapUsed calls heap)
    (fun _ level hm => hm.mark level) (fun _ hm => hm.clear) h

end Moves

lemma Grows.moves (h : Grows E i L s t) : Moves E i s t :=
  h.inv (Moves E i s) (fun _ _ hm hf => hm.onBuf hf) (fun _ heapUsed calls heap hm => hm.memory heapUsed calls heap)
    (fun _ level _ hm => hm.mark level) .refl

namespace Moves

lemma resize (h : Moves E i s t) (newCap : ℕ) : Moves E i s (memBufferResize E i newCap t).2 :=
  h.trans (Grows.resize (L := fun _ => True) trivial .refl newCap).moves

lemma maybeGrow (h : Moves E i s t) (n : ℕ) : Moves E i s (memBufferMaybeGrow E i n t).2 :=
  h.trans (Grows.maybeGrow (L := fun _ => True) trivial .refl fun _ => trivial).moves

lemma reserve (n : ℕ) (s : Sys σ) : Moves E i s (memBufferReserve E i n s).2 :=
  (Grows.reserve (L := fun _ => True) trivial fun _ => trivial).moves

lemma push (data : Bytes) (s : Sys σ) : Moves E i s (memBufferPush E i data s).2 :=
  (Grows.push (L := fun _ => True) data trivial fun _ => trivial).moves

lemma fixed (h : Moves E i s t) : Fixed (s.buf i) (t.buf i) := by
  have hquiet : ∀ {u v : Sys σ}, Fixed (s.buf i) (u.buf i) → Quiet i u v → Fixed (s.buf i) (v.buf i) := by
    intro u v hu hq
    obtain ⟨level, hl⟩ := hq.self
    rw [hl]
    exact hu.trans ⟨rfl, rfl, rfl, rfl, rfl, rfl⟩
  refine h.inv (fun t => Fixed (s.buf i) (t.buf i)) ?_ ?_ ?_ ?_ (.refl _)
  · intro t f ht hf
    rw [Sys.onBuf_self]
    exact ht.trans hf
  · intro t _ _ _ ht
    exact ht
  · intro t level ht
    exact hquiet ht (quiet_mark i level t)
  · intro t ht
    exact hquiet ht (quiet_maybeClear i t)

/-! ### Rings -/

lemma maybeShrink (h : Moves E i s t) (wrapped : Bool) : Moves E i s (memBufferMaybeShrink E i wrapped t) :=
  h.trans (Raises.maybeShrink (L := fun _ => True) trivial .refl wrapped).grows.moves

lemma popped (n : ℕ) (s : Sys σ) : Moves E i s (s.onBuf i (popBytes n)) := by
  have hgrows : Grows E i (fun _ => True) s (s.onBuf i (popBytes n)) := Grows.refl.setRing _ _ rfl
  exact hgrows.moves

lemma pop (n : ℕ) (s : Sys σ) : Moves E i s (memBufferPop E i n s).2 := by
  unfold memBufferPop
  simp only
  split_ifs
  · exact .refl
  · exact ((popped n s).maybeShrink _).clear

end Moves

/-! ### Shrinking -/

/-- The budget is not charged, and the level of the buffer stays, unless critical pressure has been marked. -/
structure Lessens (E : Env σ) (i : ℕ) (s t : Sys σ) : Prop where
  used : t.cfg.heapUsed ≤ s.cfg.heapUsed
  level : (t.buf i).lastPressureLevel = (s.buf i).lastPressureLevel ∨
    ∃ u, Moves E i s u ∧ t.prs = (memPressureMark E i .critical u).prs

namespace Lessens

lemma refl (s : Sys σ) : Lessens E i s s := ⟨le_rfl, .inl rfl⟩

lemma congr (h : Lessens E i s t) (hused : u.cfg.heapUsed ≤ t.cfg.heapUsed)
    (hlast : (u.buf i).lastPressureLevel = (t.buf i).lastPressureLevel) (hprs : u.prs = t.prs) : Lessens E i s u := by
  refine ⟨hused.trans h.used, h.level.imp hlast.trans ?_⟩
  rintro ⟨v, hm, hv⟩
  exact ⟨v, hm, hprs.trans hv⟩

lemma onBuf (h : Lessens E i s t) {f : MemBuffer → MemBuffer}
    (hf : (f (t.buf i)).lastPressureLevel = (t.buf i).lastPressureLevel) : Lessens E i s (t.onBuf i f) :=
  h.congr le_rfl (by rw [Sys.onBuf_self, hf]) rfl

lemma notify (h : Lessens E i s t) (hm : Moves E i s t) : Lessens E i s (memBufferNotifyLowmem E i .critical t) := by
  refine ⟨?_, .inr ⟨t, hm, rfl⟩⟩
  rw [(quiet_notify i .critical t).cfg]
  exact h.used

lemma resized (h : Lessens E i s t) (newCap shrink : ℕ) (b : Block) : Lessens E i s (resized i newCap shrink b t) := by
  have hbuf : Lessens E i s (t.onBuf i fun rb => { rb with
      buf := b, cap := newCap, u₁ := 0, shrinkHits := 0, shrinkStage := 0, shrinkHoldNext := rb.shrinkHoldBase }) := h.onBuf rfl
  unfold Buffer.resized
  simp only
  split_ifs
  · refine hbuf.congr ?_ rfl rfl
    unfold Sys.onCfg memBufferRelease
    split_ifs
    · exact Nat.sub_le ..
    · exact Nat.zero_le _
  · exact hbuf

lemma resize {newCap : ℕ} (h : Lessens E i s t) (hm : Moves E i s t) (hcap : newCap ≤ (t.buf i).cap) :
    Lessens E i s (memBufferResize E i newCap t).2 := by
  have hgrow : newCap - (t.buf i).cap = 0 := Nat.sub_eq_zero_of_le hcap
  have hcalled : ∀ {cfg g heap}, charged i newCap t = some cfg → Lessens E i s (called i cfg g heap t) := by
    intro cfg g heap hcfg
    rw [charged, hgrow] at hcfg
    cases hcfg
    exact h.congr le_rfl (by rw [called_buf]; rfl) rfl
  have hr := resize_resizes (E := E) (i := i) newCap t
  generalize memBufferResize E i newCap t = x at hr
  cases hr with
  | stays | refused => exact h
  | @failed _ g _ _ _ hcfg _ _ hv =>
    rw [hgrow]
    rcases hv with rfl | rfl
    · exact hcalled hcfg
    · have hmoves := (Raises.called (E := E) (L := fun _ => True) .refl hcfg g t.heap).grows.moves
      exact (hcalled hcfg).notify (hm.trans hmoves)
  | moved _ _ _ hcfg => exact (hcalled hcfg).resized newCap _ _

lemma maybeShrink (h : Lessens E i s t) (hm : Moves E i s t) (wrapped : Bool) (hlen : (t.buf i).len ≤ (t.buf i).cap) :
    Lessens E i s (memBufferMaybeShrink E i wrapped t) := by
  unfold memBufferMaybeShrink
  simp only
  split_ifs
  · exact h
  · exact h
  · exact h
  · exact h.onBuf rfl
  · exact h
  · exact h.onBuf rfl
  · refine Lessens.onBuf (Lessens.resize (h.onBuf rfl) (hm.onBuf ⟨rfl, rfl, rfl, rfl, rfl, rfl⟩) ?_) rfl
    rw [Sys.onBuf_self]
    exact max_le (Nat.sub_le ..) hlen

end Lessens

namespace Moves

/-! ### Pools -/

lemma setPool (h : Moves E i s t) (f : MemBuffer → MemBuffer) (g g' : Mem → Mem) {used : ℕ}
    (hf : f (t.buf i) = (t.buf i).setPool g g' used) : Moves E i s (t.onBuf i f) :=
  h.onBuf (by rw [hf]; exact ⟨rfl, rfl, rfl, rfl, rfl, rfl⟩)

lemma poolMalloc (size : ℕ) (s : Sys σ) : Moves E i s (memBufferMalloc i size s).2 := by
  unfold memBufferMalloc
  simp only
  split_ifs
  · exact .refl
  · exact .refl
  · split
    · exact .refl
    · exact Moves.refl.setPool _ _ _ rfl

lemma shrinkPool (h : Moves E i s t) : Moves E i s (shrinkPool E i t) :=
  h.trans (Raises.shrinkPool (L := fun _ => True) trivial .refl).grows.moves

lemma given (start blocks : ℕ) (s : Sys σ) : Moves E i s (s.onBuf i (giveRun start blocks)) := by
  refine Moves.refl.onBuf ?_
  exact ⟨rfl, rfl, rfl, rfl, rfl, rfl⟩

lemma poolFree (ptr : ℕ) (s : Sys σ) : Moves E i s (memBufferFree E i ptr s) := by
  unfold memBufferFree
  simp only
  split_ifs
  · exact .refl
  · exact .refl
  · exact .refl
  · exact .refl
  · exact (given _ _ s).shrinkPool.clear

end Moves

/-! ### What the hooks keep -/

section World

variable {P : σ → Prop}

lemma updateEffective_world (heth : ∀ level w, P w → P (E.ethRxThrottle level w))
    (htls : ∀ level w, P w → P (E.tlsRxThrottle level w)) (hs : P s.world) : P (memPressureUpdateEffective E s).world := by
  have h1 : P (updateEthEffective E s).world := by
    unfold updateEthEffective
    simp only
    split_ifs
    · exact heth _ _ hs
    · exact hs
    · exact hs
  unfold memPressureUpdateEffective updateTlsEffective
  simp only
  split_ifs
  · exact htls _ _ h1
  · exact h1
  · exact h1

lemma Moves.world (heth : ∀ level w, P w → P (E.ethRxThrottle level w)) (htls : ∀ level w, P w → P (E.tlsRxThrottle level w))
    (h : Moves E i s t) (hs : P s.world) : P t.world := by
  refine h.inv (fun t => P t.world) ?_ ?_ ?_ ?_ hs
  · intro t f ht _
    exact ht
  · intro t _ _ _ ht
    exact ht
  · intro t level ht
    unfold memPressureMark
    split_ifs
    · exact ht
    · exact updateEffective_world heth htls ht
  · intro t ht
    unfold memPressureMaybeClear
    split_ifs
    · exact ht
    · simp only
      split
      · exact updateEffective_world heth htls ht
      · exact updateEffective_world heth htls ht
      · exact updateEffective_world heth htls ht
      · exact ht

end World

/-! ### Creation -/

def Silent (s t : Sys σ) : Prop := t.prs = s.prs ∧ t.world = s.world

namespace Silent

variable {lockSize : ℕ}

lemma refl (s : Sys σ) : Silent s s := ⟨rfl, rfl⟩

lemma trans (h : Silent s t) (h' : Silent t u) : Silent s u := ⟨h'.1.trans h.1, h'.2.trans h.2⟩

lemma malloc (size : ℕ) (s : Sys σ) : Silent s (malloc size s).2 := by
  unfold Buffer.malloc
  split <;> exact ⟨rfl, rfl⟩

lemma realloc (b : Block) (size : ℕ) (s : Sys σ) : Silent s (realloc b size s).2 := by
  unfold Buffer.realloc
  split <;> exact ⟨rfl, rfl⟩

lemma reallocNew (b : Block) (size : ℕ) (s : Sys σ) : Silent s (reallocNew b size s).2 := by
  have hm := malloc size s
  unfold Buffer.reallocNew
  split_ifs
  · exact realloc b size s
  · generalize Buffer.malloc size s = x at hm
    obtain ⟨_ | b', t⟩ := x
    · exact hm
    · exact ⟨hm.1, hm.2⟩

lemma lockCap (initialCap : ℕ) (s : Sys σ) : Silent s (lockCap E i initialCap s).2 := by
  unfold Buffer.lockCap
  simp only
  split_ifs
  · exact refl s
  · split
    · exact ⟨rfl, rfl⟩
    · next cfg _ =>
      have hre := reallocNew (s.buf i).buf (s.buf i).cap { s with cfg }
      generalize Buffer.reallocNew (s.buf i).buf (s.buf i).cap { s with cfg } = x at hre
      obtain ⟨_ | b, t⟩ := x
      · exact ⟨hre.1, hre.2⟩
      · exact ⟨hre.1, hre.2⟩
  · have hre := reallocNew (s.buf i).buf (s.buf i).cap s
    generalize Buffer.reallocNew (s.buf i).buf (s.buf i).cap s = x at hre
    obtain ⟨_ | b, t⟩ := x
    · exact hre
    · exact ⟨hre.1, hre.2⟩

lemma destroy (i : ℕ) (s : Sys σ) : Silent s (memBufferDestroy E i s) := by
  unfold memBufferDestroy
  simp only
  split <;> exact ⟨rfl, rfl⟩

lemma makePool {ok : Bool} (h : makePool E i lockSize s = (ok, t)) : Silent s t := by
  -- the last changes of the buffer do not reach the pressure
  have hthen : ∀ {u : Sys σ}, u.prs = s.prs → u.world = s.world → Silent s (memBufferDestroy E i u) :=
    fun hp hw => Silent.trans ⟨hp, hw⟩ (destroy i _)
  obtain ⟨-, -, rfl⟩ | ⟨-, -, ⟨-, rfl⟩ | ⟨cfg, -, ⟨-, rfl⟩ | ⟨b, -, -, -, -, rfl⟩⟩⟩ := makePool_cases rfl rfl h
  · exact hthen rfl rfl
  · exact hthen rfl rfl
  · exact hthen rfl rfl
  · exact ⟨rfl, rfl⟩

lemma create {initialCap maxCap : ℕ} {flags : Flags} {r : Option ℕ}
    (h : memBufferCreate E initialCap maxCap lockSize flags s = (r, t)) : Silent s t := by
  obtain ⟨-, rfl⟩ | ⟨cfg, -, -, -, ⟨-, rfl⟩ | ⟨b, -, -, rfl⟩ | ⟨r0, r1, -, -, hfin⟩⟩ := create_cases h
  · exact refl _
  · exact ⟨rfl, rfl⟩
  · exact ⟨rfl, rfl⟩
  have hbegun : Silent s (begun E initialCap maxCap lockSize flags cfg r0 r1 s) := ⟨rfl, rfl⟩
  refine hbegun.trans ?_
  generalize begun E initialCap maxCap lockSize flags cfg r0 r1 s = v at hfin
  have hlock := lockCap (E := E) (i := s.calls) initialCap v
  unfold finishCreate at hfin
  generalize Buffer.lockCap E s.calls initialCap v = x at hfin hlock
  obtain ⟨_ | _, w⟩ := x
  · cases hfin
    exact hlock
  have hw : Silent v w := hlock
  refine hw.trans ?_
  simp only at hfin
  split_ifs at hfin
  · generalize hmake : Buffer.makePool E s.calls lockSize w = y at hfin
    obtain ⟨_ | _, u⟩ := y
    · cases hfin
      exact makePool hmake
    · cases hfin
      exact ⟨(makePool hmake).1, (makePool hmake).2⟩
  · cases hfin
    exact ⟨rfl, rfl⟩

end Silent

/-! ### The pools of lwIP -/

lemma initPools_silent (cfgs : List PoolCfg) (s : Sys σ) : Silent s (memBufferLwipInitPools E cfgs s).2 := by
  have hpool : ∀ (cfgs : List PoolCfg) (t : Sys σ), Silent s t → Silent s (cfgs.foldl (initPool E) t) := by
    intro cfgs
    induction cfgs with
    | nil => exact fun _ ht => ht
    | cons c cfgs ih =>
      intro t ht
      refine ih _ ?_
      unfold initPool
      by_cases hempty : c.blockSize = 0 ∨ c.blockCount = 0
      · rw [if_pos hempty]
        exact ht
      · rw [if_neg hempty]
        dsimp only
        generalize hc : memBufferCreate E _ _ _ _ t = x
        obtain ⟨_ | j, u⟩ := x
        · exact ht.trans (Silent.create hc)
        · exact ⟨(Silent.create hc).1.trans ht.1, (Silent.create hc).2.trans ht.2⟩
  have hfold := hpool (cfgs.take 6) { s with lwipPools := [] } ⟨rfl, rfl⟩
  unfold memBufferLwipInitPools
  split_ifs
  · exact .refl s
  · dsimp only
    split_ifs
    · exact hfold
    · exact ⟨hfold.1, hfold.2⟩

section Pools

variable {P : Sys σ → Prop} {Q : ℕ → Prop} (hP : ∀ i s t, Q i → Moves E i s t → Beside i s t → P s → P t)

include hP

lemma poolMalloc_inv (size : ℕ) (hi : Q i) (hs : P s) :
    P (memBufferMalloc i size s).2 ∧ ∀ q, (memBufferMalloc i size s).1 = some q → Q q.pool := by
  refine ⟨hP i _ _ hi (Moves.poolMalloc size s) (poolMalloc_beside size s) hs, fun q hq => ?_⟩
  unfold memBufferMalloc at hq
  dsimp only at hq
  split_ifs at hq
  split at hq
  · cases hq
  · cases hq
    exact hi

lemma tryLarge_inv (size needed : ℕ) : ∀ (pools : List ℕ) (preferred : Option ℕ) (s : Sys σ),
    (∀ i ∈ pools, Q i) → (∀ i, preferred = some i → Q i) → P s →
    P (tryLarge E size needed pools preferred s).2 ∧
      (∀ q, (tryLarge E size needed pools preferred s).1.1 = some q → Q q.pool) ∧
      ∀ i, (tryLarge E size needed pools preferred s).1.2 = some i → Q i := by
  intro pools
  induction pools with
  | nil => exact fun _ _ _ hpref hs => ⟨hs, nofun, hpref⟩
  | cons i pools ih =>
    intro preferred s hpools hpref hs
    have hi := hpools i mem_cons_self
    have hrest : ∀ j ∈ pools, Q j := fun j hj => hpools j (mem_cons_of_mem i hj)
    have hfirst : ∀ j, preferred.or (some i) = some j → Q j := by
      intro j hj
      cases preferred with
      | none =>
        cases hj
        exact hi
      | some p => exact hpref j hj
    unfold tryLarge
    split_ifs
    · exact ih preferred s hrest hpref hs
    · have hrep := hP i _ (reportUsage E i (s.buf i).poolUsedBytes s) hi
        (Grows.reportUsage (L := fun _ => True) .refl fun _ => trivial).moves
        ((Beside.refl i s).quiet (reportUsage_quiet i _ s)) hs
      have hm := poolMalloc_inv hP size hi hrep
      generalize memBufferMalloc i size (reportUsage E i (s.buf i).poolUsedBytes s) = x at hm
      obtain ⟨_ | q, u⟩ := x
      · exact ih _ u hrest hfirst hm.1
      · exact ⟨hm.1, hm.2, hfirst⟩

lemma trySmall_inv (size needed : ℕ) : ∀ (pools : List ℕ) (s : Sys σ), (∀ i ∈ pools, Q i) → P s →
    P (trySmall size needed pools s).2 ∧ ∀ q, (trySmall size needed pools s).1 = some q → Q q.pool := by
  intro pools
  induction pools with
  | nil => exact fun _ _ hs => ⟨hs, nofun⟩
  | cons i pools ih =>
    intro s hpools hs
    have hrest : ∀ j ∈ pools, Q j := fun j hj => hpools j (mem_cons_of_mem i hj)
    unfold trySmall
    split_ifs
    · exact ih s hrest hs
    · have hm := poolMalloc_inv hP size (hpools i mem_cons_self) hs
      generalize memBufferMalloc i size s = x at hm
      obtain ⟨_ | q, u⟩ := x
      · exact ih u hrest hm.1
      · exact hm

variable (hQ : ∀ i, i ∈ s.lwipPools ∨ s.lwipHeap = some i → Q i)

include hQ

lemma customMalloc_inv (size : ℕ) (hs : P s) :
    P (memBufferCustomMalloc E size s).2 ∧ ∀ q, (memBufferCustomMalloc E size s).1 = some q → Q q.pool := by
  -- the pools are the same behind the first pass
  have hP' : ∀ i u v, Q i → Moves E i u v → Beside i u v →
      P u ∧ u.lwipPools = s.lwipPools → P v ∧ v.lwipPools = s.lwipPools :=
    fun i u v hi hm hb hu => ⟨hP i u v hi hm hb hu.1, hb.pools.trans hu.2⟩
  unfold memBufferCustomMalloc
  split_ifs
  · split
    · exact ⟨hs, nofun⟩
    · next i hheap => exact poolMalloc_inv hP size (hQ i (.inr hheap)) hs
  · exact ⟨hs, nofun⟩
  · obtain ⟨hl, hq, hpref⟩ :=
      tryLarge_inv hP' size (size + 2) s.lwipPools none s (fun i hi => hQ i (.inl hi)) nofun ⟨hs, rfl⟩
    dsimp only
    generalize tryLarge E size (size + 2) s.lwipPools none s = x at hl hq hpref
    obtain ⟨⟨_ | q, preferred⟩, u⟩ := x
    · have hn : P (notifyPreferred E preferred u) ∧ (notifyPreferred E preferred u).lwipPools = s.lwipPools := by
        cases preferred with
        | none => exact hl
        | some i =>
          exact hP' i _ _ (hpref i rfl) (Grows.notify (L := fun _ => True) .refl trivial).moves
            ((Beside.refl i u).quiet (quiet_notify i .critical u)) hl
      exact trySmall_inv hP size _ _ _ (fun i hi => hQ i (.inl (hn.2 ▸ hi))) hn.1
    · exact ⟨hl.1, hq⟩

lemma customFree_inv (ptr : ℕ) (hs : P s) : P (memBufferCustomFree E ptr s) := by
  unfold memBufferCustomFree
  split_ifs
  · exact hs
  · dsimp only
    split
    · next i hfind =>
      exact hP i _ _ (hQ i (.inl (mem_of_find?_eq_some hfind))) (Moves.poolFree ptr s) (poolFree_beside ptr s) hs
    · split
      · exact hs
      · next i hheap => exact hP i _ _ (hQ i (.inr hheap)) (Moves.poolFree ptr s) (poolFree_beside ptr s) hs

lemma customCalloc_inv (count size : ℕ) (hs : P s) : P (memBufferCustomCalloc E count size s).2 := by
  unfold memBufferCustomCalloc
  split_ifs
  · exact hs
  · exact hs
  · have hm := customMalloc_inv hP hQ (umul count size) hs
    dsimp only
    generalize memBufferCustomMalloc E (umul count size) s = x at hm
    obtain ⟨_ | q, u⟩ := x
    · exact hm.1
    · exact hP q.pool _ _ (hm.2 q rfl) (.onBuf .refl ⟨rfl, rfl, rfl, rfl, rfl, rfl⟩) ((Beside.refl _ u).onBuf _) hm.1

end Pools

end LwftpCe.Buffer
