import LwftpCe.Buffer.Hooks
import Mathlib.Data.List.MinMax

/-!
# Pressure and relief over whole runs
-/

namespace LwftpCe.Buffer

open Lib List Sys Nat

variable {σ : Type} {E : Env σ} {i j n : ℕ} {s t u : Sys σ} {owner : Owner} {p q : Pressure}

instance : OrderBot Level where
  bot := .none
  bot_le := Level.none_le

lemma Moves.clearPct (h : Moves E i s t) (hs : Settled s.prs) : t.prs.clearPct = s.prs.clearPct := by
  refine (h.inv (fun t => Settled t.prs ∧ t.prs.clearPct = s.prs.clearPct) ?_ ?_ ?_ ?_ ⟨hs, rfl⟩).2
  · exact fun _ _ ht _ => ht
  · exact fun _ _ _ _ ht => ht
  · intro t level ht
    refine ⟨ht.1.mark level, ?_⟩
    by_cases hl : level = .none
    · rw [memPressureMark, if_pos hl]
      exact ht.2
    · rw [mark_prs ht.1 hl]
      cases hown : (t.buf i).owner <;> exact ht.2
  · intro t ht
    refine ⟨ht.1.clear, ?_⟩
    by_cases hpct : t.prs.clearPct ≤ 100
    · rw [clear_prs ht.1 hpct]
      cases hown : (t.buf i).owner <;> exact ht.2
    · rw [memPressureMaybeClear, if_pos (not_le.1 hpct)]
      exact ht.2

/-! ### The receive rings -/

def liveLevel (s : Sys σ) : Level := (s.live.map fun j => (s.buf j).lastPressureLevel).foldr max ⊥

/-- The level of the receive side is the largest of the live buffers. -/
structure Mirrors (s : Sys σ) : Prop where
  settled : Settled s.prs
  clearPct : s.prs.clearPct ≤ 100
  active : s.prs.ethActive = true → s.prs.ethLevel ≠ .none
  le : ∀ j ∈ s.live, (s.buf j).lastPressureLevel ≤ s.prs.ethLevel
  attained : s.prs.ethLevel = .none ∨ ∃ j ∈ s.live, (s.buf j).lastPressureLevel = s.prs.ethLevel

namespace Mirrors

section

variable (h : Mirrors s)

include h

lemma liveLevel_eq : liveLevel s = s.prs.ethLevel := by
  apply le_antisymm
  · apply max_le_of_forall_le
    intro l hl
    obtain ⟨j, hj, rfl⟩ := mem_map.1 hl
    exact h.le j hj
  · rcases h.attained with hnone | ⟨j, hj, hlevel⟩
    · rw [hnone]
      exact Level.none_le _
    · exact le_max_of_le (mem_map.2 ⟨j, hj, rfl⟩) hlevel.ge

lemma active_iff : s.prs.ethActive = true ↔ s.prs.ethLevel ≠ .none := by
  refine ⟨h.active, fun hne => ?_⟩
  by_contra hact
  exact hne (h.settled.levels.eth (by simpa using hact))

lemma congr (hprs : t.prs = s.prs) (hlive : t.live = s.live)
    (hlast : ∀ j ∈ s.live, (t.buf j).lastPressureLevel = (s.buf j).lastPressureLevel) : Mirrors t := by
  refine ⟨hprs ▸ h.settled, hprs ▸ h.clearPct, hprs ▸ h.active, ?_, ?_⟩
  · rw [hprs, hlive]
    exact fun j hj => (hlast j hj).trans_le (h.le j hj)
  · rw [hprs, hlive]
    refine h.attained.imp_right ?_
    rintro ⟨j, hj, hlevel⟩
    exact ⟨j, hj, (hlast j hj).trans hlevel⟩

lemma onBuf {f : MemBuffer → MemBuffer} (hf : (f (s.buf i)).lastPressureLevel = (s.buf i).lastPressureLevel) :
    Mirrors (s.onBuf i f) := by
  refine h.congr rfl rfl fun j _ => ?_
  rcases eq_or_ne j i with rfl | hne
  · rw [onBuf_self, hf]
  · rw [onBuf_other hne]

lemma notify (hi : i ∈ s.live) (hown : (s.buf i).owner = .ethRx) {level : Level} (hne : level ≠ .none)
    (hkept : (s.buf i).lastPressureLevel ≤ level ∨
      ∃ j ∈ s.live, j ≠ i ∧ (s.buf i).lastPressureLevel ≤ (s.buf j).lastPressureLevel) :
    Mirrors (memBufferNotifyLowmem E i level s) := by
  have hprs : (memBufferNotifyLowmem E i level s).prs = (s.prs.raise .ethRx level).updated := by
    rw [← hown]
    exact mark_prs h.settled hne
  have hlive : (memBufferNotifyLowmem E i level s).live = s.live := (quiet_notify i level s).live
  have hself : ((memBufferNotifyLowmem E i level s).buf i).lastPressureLevel = level := by
    rw [memBufferNotifyLowmem, onBuf_self]
  have hother : ∀ j, j ≠ i → (memBufferNotifyLowmem E i level s).buf j = s.buf j :=
    fun j hj => (quiet_notify i level s).buf_other hj
  generalize memBufferNotifyLowmem E i level s = t at hprs hlive hself hother
  have hlevel : t.prs.ethLevel = max s.prs.ethLevel level := by
    rw [hprs]
    rfl
  refine ⟨?_, ?_, ?_, ?_, ?_⟩
  · rw [hprs]
    exact (h.settled.levels.raise _ _).updated
  · rw [hprs]
    exact h.clearPct
  · intro _ hnone
    rw [hlevel] at hnone
    exact hne (le_antisymm ((le_max_right _ _).trans hnone.le) (Level.none_le _))
  · rw [hlive, hlevel]
    intro j hj
    rcases eq_or_ne j i with rfl | hji
    · exact hself.trans_le (le_max_right _ _)
    · rw [hother j hji]
      exact (h.le j hj).trans (le_max_left _ _)
  · rw [hlive, hlevel]
    right
    by_cases hlt : s.prs.ethLevel ≤ level
    · exact ⟨i, hi, hself.trans (max_eq_right hlt).symm⟩
    · rw [not_le] at hlt
      rw [max_eq_left hlt.le]
      -- the level of the side is that of a ring, and not only of this one
      obtain ⟨j, hj, hmax⟩ := h.attained.resolve_left fun hnone => absurd (hnone ▸ hlt) (not_lt.2 (Level.none_le _))
      rcases eq_or_ne j i with rfl | hji
      · obtain ⟨j', hj', hne', hle'⟩ := hkept.resolve_left (by rw [hmax]; exact not_le.2 hlt)
        refine ⟨j', hj', ?_⟩
        rw [hother j' hne']
        exact le_antisymm (h.le j' hj') (hmax ▸ hle')
      · exact ⟨j, hj, by rw [hother j hji, hmax]⟩

lemma raises (hi : i ∈ s.live) (hown : (s.buf i).owner = .ethRx)
    (hr : Raises E i (· = .critical) s t) : Mirrors t := by
  refine (hr.inv (fun t => Mirrors t ∧ i ∈ t.live ∧ (t.buf i).owner = .ethRx) ?_ ?_ ?_ ⟨h, hi, hown⟩).1
  · rintro t f ⟨hm, hit, hot⟩ hf hl
    refine ⟨hm.onBuf hl, hit, ?_⟩
    rw [onBuf_self, hf.owner]
    exact hot
  · rintro t heapUsed calls heap ⟨hm, hit, hot⟩
    exact ⟨hm.congr rfl rfl fun _ _ => rfl, hit, hot⟩
  · rintro t level rfl ⟨hm, hit, hot⟩
    refine ⟨hm.notify hit hot (by decide) (.inl (Level.le_critical _)), ?_, ?_⟩
    · rw [(quiet_notify i .critical t).live]
      exact hit
    · rw [(quiet_notify i .critical t).owner]
      exact hot

end

lemma clear (hs : Settled s.prs) (hpct : s.prs.clearPct ≤ 100) (hi : i ∈ s.live) (hown : (s.buf i).owner = .ethRx)
    (hothers : ∀ j ∈ s.live, j ≠ i → (s.buf j).lastPressureLevel = .none) : Mirrors (memPressureMaybeClear E i s) := by
  have hprs : (memPressureMaybeClear E i s).prs = (s.prs.setLevel .ethRx (relieved s i)).updated := by
    rw [clear_prs hs hpct, clearedLevel, hown, if_neg (by decide)]
  have hself : ((memPressureMaybeClear E i s).buf i).lastPressureLevel = relieved s i := maybeClear_level hpct
  have hq := quiet_maybeClear (E := E) i s
  have hlive := hq.live
  have hother : ∀ j, j ≠ i → (memPressureMaybeClear E i s).buf j = s.buf j := fun j hj => hq.buf_other hj
  generalize memPressureMaybeClear E i s = t at hprs hself hlive hother
  have hlevel : t.prs.ethLevel = relieved s i := by
    rw [hprs]
    rfl
  refine ⟨?_, ?_, ?_, ?_, ?_⟩
  · rw [hprs]
    exact (hs.levels.setLevel _ _).updated
  · rw [hprs]
    exact hpct
  · rw [hprs]
    exact of_decide_eq_true
  · rw [hlive, hlevel]
    intro j hj
    rcases eq_or_ne j i with rfl | hji
    · exact hself.le
    · rw [hother j hji, hothers j hj hji]
      exact Level.none_le _
  · rw [hlive, hlevel]
    exact .inr ⟨i, hi, hself⟩

end Mirrors

/-! ### Runs of receive rings -/

inductive RxOp where
  | create (initialCap maxCap lockSize : ℕ) (flags : Flags)
  | destroy (i : ℕ)
  | push (i : ℕ) (data : Bytes)
  | reserve (i len : ℕ)
  | pop (i len : ℕ)
  | setGrow (i thresholdPct step : ℕ)
  | setShrink (i thresholdPct step : ℕ)
  | setMaxSize (i maxCap : ℕ)

def createRx (E : Env σ) (initialCap maxCap lockSize : ℕ) (flags : Flags) (s : Sys σ) : Sys σ :=
  match memBufferCreate E initialCap maxCap lockSize { flags with mallocType := false } s with
  | (none, s) => s
  | (some i, s) => s.onBuf i (memBufferSetOwner .ethRx)

def RxOp.target : RxOp → Option ℕ
  | .create .. => none
  | .destroy i | .push i _ | .reserve i _ | .pop i _ => some i
  | .setGrow i .. | .setShrink i .. | .setMaxSize i _ => some i

def performRx (E : Env σ) (s : Sys σ) : RxOp → Sys σ
  | .create initialCap maxCap lockSize flags => createRx E initialCap maxCap lockSize flags s
  | .destroy i => memBufferDestroy E i s
  | .push i data => (memBufferPush E i data s).2
  | .reserve i len => (memBufferReserve E i len s).2
  | .pop i len => (memBufferPop E i len s).2
  | .setGrow i thresholdPct step => s.onBuf i (memBufferSetGrow thresholdPct step)
  | .setShrink i thresholdPct step => s.onBuf i (memBufferSetShrink thresholdPct step)
  | .setMaxSize i maxCap => s.onBuf i (memBufferSetMaxSize maxCap)

def rxStep (E : Env σ) : Sys σ → RxOp → Option (Sys σ) :=
  guarded (fun s op => op.target.all (· ∈ s.live)) fun s op => some (performRx E s op)

def Outdone (s : Sys σ) (i : ℕ) : Prop := ∃ j ∈ s.live, j ≠ i ∧ (s.buf i).lastPressureLevel ≤ (s.buf j).lastPressureLevel

def reportUpholds (s : Sys σ) (i n : ℕ) : Prop :=
  Grows.reported s i (uadd (s.buf i).len n) = .none ∨
    (s.buf i).lastPressureLevel ≤ Grows.reported s i (uadd (s.buf i).len n) ∨ Outdone s i

def upholds (s : Sys σ) : RxOp → Prop
  | .destroy i => (s.buf i).lastPressureLevel = .none ∨ Outdone s i
  | .push i data => data = [] ∨ reportUpholds s i data.length
  | .reserve i len => len = 0 ∨ reportUpholds s i len
  | .pop i len => len = 0 ∨ (s.buf i).len < len ∨ ∀ j ∈ s.live, j ≠ i → (s.buf j).lastPressureLevel = .none
  | _ => True

structure RxRings (s : Sys σ) : Prop where
  nodup : s.live.Nodup
  fresh : ∀ j ∈ s.live, j < s.calls
  owner : ∀ j ∈ s.live, (s.buf j).owner = .ethRx

lemma RxRings.beside (h : RxRings s) (hb : Beside i s t) (hown : (t.buf i).owner = (s.buf i).owner) : RxRings t := by
  refine ⟨hb.live ▸ h.nodup, ?_, ?_⟩
  · rw [hb.live]
    exact fun j hj => (h.fresh j hj).trans_le hb.calls
  · rw [hb.live]
    intro j hj
    rcases eq_or_ne j i with rfl | hne
    · exact hown.trans (h.owner j hj)
    · rw [hb.buf j hne]
      exact h.owner j hj

lemma create_level {initialCap maxCap lockSize : ℕ} {flags : Flags} (hring : flags.mallocType = false)
    (h : memBufferCreate E initialCap maxCap lockSize flags s = (some i, t)) : (t.buf i).lastPressureLevel = .none := by
  obtain ⟨-, cfg, self, b, w, hw, -, hbuf⟩ := create_buffer h
  rw [hring] at hbuf
  rw [hbuf, hw]
  rfl

structure RxInv (s : Sys σ) : Prop where
  rings : RxRings s
  mirrors : Mirrors s

namespace RxInv

variable {f : MemBuffer → MemBuffer}

variable (h : RxInv s)

include h

lemma create (initialCap maxCap lockSize : ℕ) (flags : Flags) :
    RxInv (createRx E initialCap maxCap lockSize flags s) := by
  unfold createRx
  generalize hc : memBufferCreate E initialCap maxCap lockSize { flags with mallocType := false } s = x
  obtain ⟨r, t⟩ := x
  obtain ⟨hb, hnew⟩ := create_beside hc
  have hprs : t.prs = s.prs := (Silent.create hc).1
  have hnotin : s.calls ∉ s.live := fun hm => lt_irrefl _ (h.rings.fresh _ hm)
  have hold : ∀ j ∈ s.live, j ≠ s.calls ∧ t.buf j = s.buf j := fun j hj =>
    have hne : j ≠ s.calls := fun he => hnotin (he ▸ hj)
    ⟨hne, hb.buf j hne⟩
  have hcalls : s.calls ≤ t.calls := hb.calls
  cases r with
  | none =>
    have hlive : t.live = s.live := by
      rcases create_none_live hc with hl | hl
      · exact hl
      · rw [hl, erase_of_not_mem hnotin]
    refine ⟨⟨hlive ▸ h.rings.nodup, ?_, ?_⟩, h.mirrors.congr hprs hlive fun j hj => by rw [(hold j hj).2]⟩
    · rw [hlive]
      exact fun j hj => (h.rings.fresh j hj).trans_le hcalls
    · rw [hlive]
      exact fun j hj => (hold j hj).2 ▸ h.rings.owner j hj
  | some i =>
    obtain ⟨hi, hlt, hlive⟩ := hnew i rfl
    subst hi
    have hother : ∀ j ∈ s.live, ((t.onBuf s.calls (memBufferSetOwner .ethRx)).buf j) = s.buf j := fun j hj => by
      rw [onBuf_other (hold j hj).1, (hold j hj).2]
    have hlast : ((t.onBuf s.calls (memBufferSetOwner .ethRx)).buf s.calls).lastPressureLevel = .none := by
      rw [onBuf_self]
      exact create_level rfl hc
    have hown : ((t.onBuf s.calls (memBufferSetOwner .ethRx)).buf s.calls).owner = .ethRx := by
      rw [onBuf_self]
      rfl
    have hprs' : (t.onBuf s.calls (memBufferSetOwner .ethRx)).prs = s.prs := hprs
    have hlive' : (t.onBuf s.calls (memBufferSetOwner .ethRx)).live = s.calls :: s.live := hlive
    have hcalls' : s.calls < (t.onBuf s.calls (memBufferSetOwner .ethRx)).calls := hlt
    refine ⟨⟨?_, ?_, ?_⟩, ⟨?_, ?_, ?_, ?_, ?_⟩⟩
    · rw [hlive']
      exact nodup_cons.2 ⟨hnotin, h.rings.nodup⟩
    · rw [hlive']
      exact forall_mem_cons.2 ⟨hcalls', fun j hj => (h.rings.fresh j hj).trans hcalls'⟩
    · rw [hlive']
      refine forall_mem_cons.2 ⟨hown, fun j hj => ?_⟩
      rw [hother j hj]
      exact h.rings.owner j hj
    · rw [hprs']
      exact h.mirrors.settled
    · rw [hprs']
      exact h.mirrors.clearPct
    · rw [hprs']
      exact h.mirrors.active
    · rw [hlive', hprs']
      refine forall_mem_cons.2 ⟨hlast.trans_le (Level.none_le _), fun j hj => ?_⟩
      rw [hother j hj]
      exact h.mirrors.le j hj
    · rw [hlive', hprs']
      refine h.mirrors.attained.imp_right ?_
      rintro ⟨j, hj, hlevel⟩
      exact ⟨j, mem_cons_of_mem _ hj, by rw [hother j hj, hlevel]⟩

lemma destroy (hi : i ∈ s.live) (hup : upholds s (.destroy i)) : RxInv (memBufferDestroy E i s) := by
  obtain ⟨hbuf, hlive, hcalls⟩ := destroy_rest i s
  have hprs : (memBufferDestroy E i s).prs = s.prs := (Silent.destroy i s).1
  generalize memBufferDestroy E i s = t at hbuf hlive hcalls hprs
  have hmem : ∀ j, j ∈ t.live ↔ j ≠ i ∧ j ∈ s.live := by
    rw [hlive]
    exact fun j => List.Nodup.mem_erase_iff h.rings.nodup
  refine ⟨⟨?_, ?_, ?_⟩, ⟨hprs ▸ h.mirrors.settled, hprs ▸ h.mirrors.clearPct, hprs ▸ h.mirrors.active, ?_, ?_⟩⟩
  · rw [hlive]
    exact h.rings.nodup.erase i
  · rw [hcalls]
    exact fun j hj => h.rings.fresh j ((hmem j).1 hj).2
  · rw [hbuf]
    exact fun j hj => h.rings.owner j ((hmem j).1 hj).2
  · rw [hbuf, hprs]
    exact fun j hj => h.mirrors.le j ((hmem j).1 hj).2
  · rw [hbuf, hprs]
    rcases h.mirrors.attained with hnone | ⟨j, hj, hlevel⟩
    · exact .inl hnone
    · rcases eq_or_ne j i with rfl | hne
      · rcases hup with hnone | ⟨j', hj', hne', hle'⟩
        · exact .inl (hlevel ▸ hnone)
        · exact .inr ⟨j', (hmem j').2 ⟨hne', hj'⟩, le_antisymm (h.mirrors.le j' hj') (hlevel ▸ hle')⟩
      · exact .inr ⟨j, (hmem j).2 ⟨hne, hj⟩, hlevel⟩

lemma reportUsage (hi : i ∈ s.live) (hup : reportUpholds s i n) :
    Mirrors (reportUsage E i (uadd (s.buf i).len n) s) := by
  unfold Buffer.reportUsage
  dsimp only
  split_ifs with hrep
  · exact h.mirrors.notify hi (h.rings.owner i hi) hrep.1 (hup.resolve_left hrep.1)
  · exact h.mirrors

lemma maybeGrow (hi : i ∈ s.live) (hup : reportUpholds s i n) : RxInv (memBufferMaybeGrow E i n s).2 := by
  have hq := reportUsage_quiet (E := E) i (uadd (s.buf i).len n) s
  have hm := Mirrors.raises (h.reportUsage hi hup) (hq.live ▸ hi) (hq.owner.trans (h.rings.owner i hi))
    (Raises.maybeGrow (L := (· = .critical)) rfl n s)
  exact ⟨h.rings.beside (maybeGrow_beside (.refl i s) n) (Moves.maybeGrow .refl n).fixed.owner, hm⟩

lemma reserve (hi : i ∈ s.live) (hup : upholds s (.reserve i n)) : RxInv (memBufferReserve E i n s).2 := by
  unfold memBufferReserve
  split_ifs with h0
  · exact h
  · exact h.maybeGrow hi (hup.resolve_left (not_or.1 h0).1)

lemma set (hown : (f (s.buf i)).owner = (s.buf i).owner)
    (hl : (f (s.buf i)).lastPressureLevel = (s.buf i).lastPressureLevel) : RxInv (s.onBuf i f) :=
  ⟨h.rings.beside ((Beside.refl i s).onBuf f) (by rw [onBuf_self, hown]), h.mirrors.onBuf hl⟩

lemma setRing {g : Mem → Mem} {head len : ℕ}
    (hf : f (s.buf i) = (s.buf i).setRing g head len) : RxInv (s.onBuf i f) := by
  refine h.set ?_ ?_
  · rw [hf]
    rfl
  · rw [hf]
    rfl

lemma push (hi : i ∈ s.live) {data : Bytes} (hup : upholds s (.push i data)) : RxInv (memBufferPush E i data s).2 := by
  unfold memBufferPush
  split_ifs with h0
  · exact h
  · have hgrow := h.maybeGrow (E := E) hi (hup.resolve_left (not_or.1 h0).1)
    generalize memBufferMaybeGrow E i data.length s = x at hgrow
    obtain ⟨ok, t⟩ := x
    have hinv : RxInv t := hgrow
    cases ok with
    | false => exact hinv
    | true =>
      exact hinv.setRing rfl

lemma pop (hi : i ∈ s.live) (hup : upholds s (.pop i n)) : RxInv (memBufferPop E i n s).2 := by
  refine ⟨h.rings.beside (pop_beside n s) (Moves.pop n s).fixed.owner, ?_⟩
  unfold memBufferPop
  dsimp only
  split_ifs with h0
  · exact h.mirrors
  · rw [not_or, not_or] at h0
    have hothers := (hup.resolve_left h0.1).resolve_left h0.2.1
    generalize decide (uadd (s.buf i).head n ≥ (s.buf i).cap) = wrapped
    have hm : Moves E i s (memBufferMaybeShrink E i wrapped (s.onBuf i (popBytes n))) := (Moves.popped n s).maybeShrink wrapped
    have hb : Beside i s (memBufferMaybeShrink E i wrapped (s.onBuf i (popBytes n))) :=
      maybeShrink_beside ((Beside.refl i s).onBuf _) wrapped
    refine Mirrors.clear (h.mirrors.settled.moves hm) ?_ (hb.live ▸ hi) (hm.fixed.owner.trans (h.rings.owner i hi)) ?_
    · rw [hm.clearPct h.mirrors.settled]
      exact h.mirrors.clearPct
    · intro j hj hne
      rw [hb.buf j hne]
      exact hothers j (hb.live ▸ hj) hne

lemma step {op : RxOp} (hup : upholds s op) (hstep : rxStep E s op = some t) : RxInv t := by
  obtain ⟨htarget, hstep⟩ := guarded_some.1 hstep
  cases hstep
  cases op with
  | create initialCap maxCap lockSize flags => exact h.create initialCap maxCap lockSize flags
  | destroy i => exact h.destroy (of_decide_eq_true htarget) hup
  | push i data => exact h.push (of_decide_eq_true htarget) hup
  | reserve i len => exact h.reserve (of_decide_eq_true htarget) hup
  | pop i len => exact h.pop (of_decide_eq_true htarget) hup
  | setGrow i pct step => refine h.set ?_ ?_ <;> unfold memBufferSetGrow <;> split_ifs <;> rfl
  | setShrink i pct step => refine h.set ?_ ?_ <;> unfold memBufferSetShrink <;> split_ifs <;> rfl
  | setMaxSize i maxCap => refine h.set ?_ ?_ <;> unfold memBufferSetMaxSize <;> split_ifs <;> rfl

end RxInv

/-- **The level of the receive side is the largest of its live rings**, in every run of which no step hides one. -/
theorem rx_level_mirrors (E : Env σ) (maxHeap : ℕ) (hasRealloc : Bool) (allocs : ℕ → Option Raw) (w : σ) (ops : List RxOp)
    (s : Sys σ) (hup : Along upholds (rxStep E) (memInit maxHeap hasRealloc { allocs, world := w }) ops)
    (h : run (rxStep E) (memInit maxHeap hasRealloc { allocs, world := w }) ops = some s) :
    s.prs.ethLevel = liveLevel s ∧ (s.prs.ethActive = true ↔ liveLevel s ≠ .none) := by
  have hinv : RxInv s := by
    refine run_inv_along RxInv ?_ ?_ hup h
    · exact fun _ _ _ hs hc hstep => hs.step hc hstep
    · exact ⟨⟨nodup_nil, nofun, nofun⟩,
        ⟨⟨⟨fun _ => rfl, fun _ => rfl, fun _ => rfl⟩, rfl, rfl⟩, le_of_ble_eq_true rfl, nofun, nofun, .inl rfl⟩⟩
  rw [hinv.mirrors.liveLevel_eq]
  exact ⟨rfl, hinv.mirrors.active_iff⟩

theorem rx_level_mirrors_one : ∃ s, run (rxStep plainEnv) (memInit 0 true { allocs := plenty, world := () })
      [.create 10 10 0 {}, .push 0 [1, 2, 3, 4, 5, 6, 7, 8, 9]] = some s ∧
    s.prs.ethLevel = .high ∧ s.prs.ethLevel = liveLevel s ∧ (s.prs.ethActive = true ↔ liveLevel s ≠ .none) := by
  refine ⟨_, rfl, by decide +kernel, rx_level_mirrors plainEnv 0 true plenty ()
    [.create 10 10 0 {}, .push 0 [1, 2, 3, 4, 5, 6, 7, 8, 9]] _ ⟨trivial, fun t ht => ⟨?_, fun _ _ => trivial⟩⟩ rfl⟩
  cases ht
  exact .inr (.inr (.inl (by decide +kernel)))

/-- The relief of a second ring hides that pressure, and the destruction of the first does not lift it. -/
theorem rx_level_hidden : (∃ s, run (rxStep plainEnv) (memInit 0 true { allocs := plenty, world := () })
        [.create 10 10 0 {}, .create 10 10 0 {}, .push 0 [1, 2, 3, 4, 5, 6, 7, 8, 9], .push 2 [1], .pop 2 1] = some s ∧
      s.prs.ethLevel = .none ∧ liveLevel s = .high) ∧
    ∃ s, run (rxStep plainEnv) (memInit 0 true { allocs := plenty, world := () })
        [.create 10 10 0 {}, .push 0 [1, 2, 3, 4, 5, 6, 7, 8, 9], .destroy 0] = some s ∧
      s.prs.ethLevel = .high ∧ liveLevel s = .none :=
  ⟨⟨_, rfl, by decide +kernel, by decide +kernel⟩, _, rfl, by decide +kernel, by decide +kernel⟩

/-! ### Tiers -/

def Tiered (s t : Sys σ) : Prop :=
  s.prs.ethEffective.rank ≤ t.prs.ethEffective.rank + 1 ∧ s.prs.tlsEffective.rank ≤ t.prs.tlsEffective.rank + 1

lemma Level.rank_max (a b : Level) : (max a b).rank = max a.rank b.rank := by
  cases a <;> cases b <;> rfl

lemma Level.le_iff_rank {a b : Level} : a ≤ b ↔ a.rank ≤ b.rank := Iff.rfl

lemma relief_rank (current : Level) (usage : ℕ) : current.rank ≤ (memPressureLevelRelief current usage).rank + 1 := by
  unfold memPressureLevelRelief
  cases current with
  | none => exact Nat.zero_le _
  | mild => exact Nat.le_add_left _ _
  | high =>
    simp only [reduceCtorEq, false_and, if_false, true_and]
    split_ifs with hlt
    · exact le_rfl
    · exact succ_le_succ (Level.le_iff_rank.1 (not_lt.1 hlt))
  | critical =>
    simp only [true_and, reduceCtorEq, false_and, if_false]
    split_ifs with hlt
    · exact le_rfl
    · exact succ_le_succ (Level.le_iff_rank.1 (not_lt.1 hlt))

lemma high_le_relief {current : Level} {usage : ℕ} (h : 85 ≤ usage ∨ current = .critical) :
    .high ≤ memPressureLevelRelief current usage := by
  rcases h with h | rfl
  · unfold memPressureLevelRelief memPressureLevelFromUsage
    rw [if_pos h]
    simp only [lt_self_iff_false, and_false, if_false]
    split_ifs with hlt
    · exact absurd hlt.2 (by decide)
    · exact le_rfl
  · exact Level.le_iff_rank.2 (le_of_succ_le_succ (relief_rank .critical usage))

def Aside (owner : Owner) (p q : Pressure) : Prop :=
  (owner ≠ .lwipPool → q.globalLevel = p.globalLevel) ∧ (owner ≠ .ethRx → q.ethLevel = p.ethLevel) ∧
    (owner ≠ .tlsRx → q.tlsLevel = p.tlsLevel)

lemma Aside.raise (h : Aside owner p q) (level : Level) : Aside owner p (q.raise owner level).updated := by
  cases owner with
  | lwipPool => exact ⟨fun hne => absurd rfl hne, h.2⟩
  | ethRx => exact ⟨h.1, fun hne => absurd rfl hne, h.2.2⟩
  | tlsRx => exact ⟨h.1, h.2.1, fun hne => absurd rfl hne⟩
  | unknown | ethTx | tlsTx => exact h

lemma Aside.setLevel (h : Aside owner p q) (level : Level) : Aside owner p (q.setLevel owner level).updated := by
  cases owner with
  | lwipPool => exact ⟨fun hne => absurd rfl hne, h.2⟩
  | ethRx => exact ⟨h.1, fun hne => absurd rfl hne, h.2.2⟩
  | tlsRx => exact ⟨h.1, h.2.1, fun hne => absurd rfl hne⟩
  | unknown | ethTx | tlsTx => exact h

lemma Raises.aside (hr : Raises E i (· = .critical) s t) (hs : Settled s.prs) :
    Settled t.prs ∧ Aside (s.buf i).owner s.prs t.prs ∧ (s.buf i).lastPressureLevel ≤ (t.buf i).lastPressureLevel := by
  have h : Settled t.prs ∧ Aside (s.buf i).owner s.prs t.prs ∧ (s.buf i).lastPressureLevel ≤ (t.buf i).lastPressureLevel ∧
      (t.buf i).owner = (s.buf i).owner := by
    refine hr.inv (fun t => Settled t.prs ∧ Aside (s.buf i).owner s.prs t.prs ∧
      (s.buf i).lastPressureLevel ≤ (t.buf i).lastPressureLevel ∧ (t.buf i).owner = (s.buf i).owner) ?_ ?_ ?_ ?_
    · rintro t f ⟨hst, ha, hl, ho⟩ hf hlf
      refine ⟨hst, ha, ?_, ?_⟩
      · rw [onBuf_self, hlf]
        exact hl
      · rw [onBuf_self, hf.owner]
        exact ho
    · exact fun _ _ _ _ ht => ht
    · rintro t level rfl ⟨hst, ha, -, ho⟩
      have hprs := mark_prs (E := E) (i := i) hst (show Level.critical ≠ .none by decide)
      refine ⟨hst.mark .critical, ?_, ?_, ?_⟩
      · have hprs' : (memBufferNotifyLowmem E i .critical t).prs = (t.prs.raise (s.buf i).owner .critical).updated := by
          rw [← ho]
          exact hprs
        rw [hprs']
        exact ha.raise .critical
      · rw [memBufferNotifyLowmem, onBuf_self]
        exact Level.le_critical _
      · rw [(quiet_notify i .critical t).owner]
        exact ho
    · exact ⟨hs, ⟨fun _ => rfl, fun _ => rfl, fun _ => rfl⟩, le_rfl, rfl⟩
  exact ⟨h.1, h.2.1, h.2.2.1⟩

/-! ### The pools -/

lemma poolUsage_withRelieved (i j : ℕ) (s : Sys σ) : poolUsage (withRelieved i s) j = poolUsage s j := by
  unfold poolUsage withRelieved
  rcases eq_or_ne j i with rfl | hne
  · rw [onBuf_self]
    rfl
  · rw [onBuf_other hne]
    rfl

lemma le_poolsLevel (hj : j ∈ s.lwipPools) :
    memPressureLevelRelief (s.buf j).lastPressureLevel (poolUsage s j) ≤ memPressurePoolsLevel s := by
  have hfold : ∀ (f : ℕ → Level) (pools : List ℕ) (l : Level),
      l ≤ pools.foldl (fun l i => max l (f i)) l ∧ ∀ j ∈ pools, f j ≤ pools.foldl (fun l i => max l (f i)) l := by
    intro f pools
    induction pools with
    | nil => exact fun l => ⟨le_rfl, nofun⟩
    | cons p pools ih =>
      intro l
      refine ⟨(le_max_left _ _).trans (ih _).1, ?_⟩
      exact forall_mem_cons.2 ⟨(le_max_right _ _).trans (ih _).1, (ih _).2⟩
  have hle := (hfold (fun i => memPressureLevelRelief (s.buf i).lastPressureLevel (poolUsage s i)) s.lwipPools .none).2 j hj
  unfold memPressurePoolsLevel
  dsimp only at hle ⊢
  split_ifs with hnone
  · rw [hnone.1] at hle
    exact hle.trans (Level.none_le _)
  · exact hle

lemma mild_le_poolsLevel (hj : j ∈ s.lwipPools) (hover : s.prs.clearPct < poolUsage s j) : .mild ≤ memPressurePoolsLevel s := by
  have hany : (s.lwipPools.any fun i => s.prs.clearPct < poolUsage s i) = true :=
    any_eq_true.2 ⟨j, hj, decide_eq_true hover⟩
  unfold memPressurePoolsLevel
  dsimp only
  split_ifs with hnone
  · exact le_rfl
  · rw [not_and_or] at hnone
    have hne := hnone.resolve_right (not_not.2 hany)
    by_contra hlt
    exact hne (Level.none_of_lt_mild (not_le.1 hlt))

/-- The level of the pools falls by at most one tier by the relief of the pool `i`, seen in the state `v` in which the bytes
are given back. -/
def poolsTiered (v : Sys σ) (i : ℕ) : Prop :=
  (∃ j ∈ v.lwipPools, v.prs.clearPct < poolUsage v j) ∧
    (v.prs.globalLevel = .critical →
      ∃ j ∈ v.lwipPools, 85 ≤ poolUsage v j ∨ j ≠ i ∧ (v.buf j).lastPressureLevel = .critical)

lemma poolsRelieved_rank (h : poolsTiered s i) : s.prs.globalLevel.rank ≤ (poolsRelieved (withRelieved i s)).rank + 1 := by
  obtain ⟨⟨j, hj, hover⟩, hcritical⟩ := h
  have hover' : (withRelieved i s).prs.clearPct < poolUsage (withRelieved i s) j := by
    rw [poolUsage_withRelieved]
    exact hover
  have hbelow : memPressurePoolsBelowClear (withRelieved i s) = false := by
    rw [memPressurePoolsBelowClear, all_eq_false]
    exact ⟨j, hj, by simpa using hover'⟩
  unfold poolsRelieved
  rw [hbelow]
  simp only [Bool.false_eq_true, and_false, if_false]
  have hmild : .mild ≤ memPressurePoolsLevel (withRelieved i s) := mild_le_poolsLevel hj hover'
  cases hl : s.prs.globalLevel with
  | none => exact Nat.zero_le _
  | mild => exact Nat.le_add_left _ _
  | high => exact succ_le_succ (Level.le_iff_rank.1 hmild)
  | critical =>
    obtain ⟨j, hj, hhigh⟩ := hcritical hl
    refine succ_le_succ (Level.le_iff_rank.1 (le_trans (high_le_relief ?_) (le_poolsLevel (s := withRelieved i s) hj)))
    rw [poolUsage_withRelieved]
    refine hhigh.imp_right ?_
    rintro ⟨hne, hlast⟩
    rw [withRelieved, onBuf_other hne]
    exact hlast

def reliefTiered (s v : Sys σ) (i : ℕ) : Prop :=
  match (s.buf i).owner with
  | .lwipPool => s.prs.globalLevel ≤ .mild ∨ (s.buf i).step = 0 ∧ poolsTiered v i
  | .ethRx => s.prs.ethLevel ≤ .mild ∨ s.prs.ethLevel ≤ (s.buf i).lastPressureLevel
  | .tlsRx => s.prs.tlsLevel ≤ .mild ∨ s.prs.tlsLevel ≤ (s.buf i).lastPressureLevel
  | _ => True

lemma clear_tiered {f : MemBuffer → MemBuffer} (hs : Settled s.prs) (hpct : s.prs.clearPct ≤ 100)
    (hf : Fixed (s.buf i) (f (s.buf i))) (hl : (f (s.buf i)).lastPressureLevel = (s.buf i).lastPressureLevel)
    (hr : Raises E i (· = .critical) (s.onBuf i f) u) (hfixed : (s.buf i).step = 0 → u = s.onBuf i f)
    (h : reliefTiered s (s.onBuf i f) i) : Tiered s (memPressureMaybeClear E i u) := by
  have hown : ((s.onBuf i f).buf i).owner = (s.buf i).owner := by
    rw [onBuf_self, hf.owner]
  have hlast : ((s.onBuf i f).buf i).lastPressureLevel = (s.buf i).lastPressureLevel := by
    rw [onBuf_self, hl]
  obtain ⟨hu, ha, hle⟩ := hr.aside hs
  have howner : (u.buf i).owner = (s.buf i).owner := hr.grows.moves.fixed.owner.trans hown
  have hpct' : u.prs.clearPct ≤ 100 := (hr.grows.moves.clearPct hs).trans_le hpct
  rw [hown] at ha
  rw [hlast] at hle
  have hrelief : (s.buf i).lastPressureLevel.rank ≤ (relieved u i).rank + 1 :=
    (Level.le_iff_rank.1 hle).trans (relief_rank _ _)
  have hprs := clear_prs (E := E) (i := i) hu hpct'
  have hset : Settled (memPressureMaybeClear E i u).prs := hu.clear
  generalize memPressureMaybeClear E i u = t at hprs hset
  rw [clearedLevel, howner] at hprs
  have haside : Aside (s.buf i).owner s.prs t.prs := by
    rw [hprs]
    exact ha.setLevel _
  -- from the levels to the effective ones
  have htiered : s.prs.globalLevel.rank ≤ t.prs.globalLevel.rank + 1 → s.prs.ethLevel.rank ≤ t.prs.ethLevel.rank + 1 →
      s.prs.tlsLevel.rank ≤ t.prs.tlsLevel.rank + 1 → Tiered s t := by
    unfold Tiered
    rw [hs.eth, hs.tls, hset.eth, hset.tls]
    simp only [Level.rank_max]
    omega
  have hsame : ∀ {a b : Level}, b = a → a.rank ≤ b.rank + 1 := fun hab => hab ▸ le_succ _
  have hmild : ∀ {a : Level} (b : Level), a ≤ .mild → a.rank ≤ b.rank + 1 :=
    fun _ ham => (Level.le_iff_rank.1 ham).trans (Nat.le_add_left _ _)
  unfold reliefTiered at h
  cases ho : (s.buf i).owner with
  | lwipPool =>
    rw [ho] at h haside hprs
    have hg : t.prs.globalLevel = poolsRelieved (withRelieved i u) := by
      rw [hprs]
      rfl
    refine htiered ?_ (hsame (haside.2.1 (by decide))) (hsame (haside.2.2 (by decide)))
    rw [hg]
    rcases h with hle | ⟨hstep, hpools⟩
    · exact hmild _ hle
    · rw [hfixed hstep]
      exact poolsRelieved_rank (s := s.onBuf i f) hpools
  | ethRx =>
    rw [ho] at h haside hprs
    have he : t.prs.ethLevel = relieved u i := by
      rw [hprs]
      rfl
    refine htiered (hsame (haside.1 (by decide))) ?_ (hsame (haside.2.2 (by decide)))
    rw [he]
    rcases h with hle | hown
    · exact hmild _ hle
    · exact (Level.le_iff_rank.1 hown).trans hrelief
  | tlsRx =>
    rw [ho] at h haside hprs
    have he : t.prs.tlsLevel = relieved u i := by
      rw [hprs]
      rfl
    refine htiered (hsame (haside.1 (by decide))) (hsame (haside.2.1 (by decide))) ?_
    rw [he]
    rcases h with hle | hown
    · exact hmild _ hle
    · exact (Level.le_iff_rank.1 hown).trans hrelief
  | unknown | ethTx | tlsTx =>
    rw [ho] at haside
    exact htiered (hsame (haside.1 (by decide))) (hsame (haside.2.1 (by decide))) (hsame (haside.2.2 (by decide)))

lemma Tiered.refl (s : Sys σ) : Tiered s s := ⟨le_succ _, le_succ _⟩

lemma pop_tiered (hs : Settled s.prs) (hpct : s.prs.clearPct ≤ 100) (h : reliefTiered s (s.onBuf i (popBytes n)) i) :
    Tiered s (memBufferPop E i n s).2 := by
  unfold memBufferPop
  dsimp only
  split_ifs
  · exact .refl s
  · generalize decide (uadd (s.buf i).head n ≥ (s.buf i).cap) = wrapped
    refine clear_tiered hs hpct ⟨rfl, rfl, rfl, rfl, rfl, rfl⟩ rfl
      (Raises.maybeShrink (L := (· = .critical)) rfl .refl wrapped) ?_ h
    intro hstep
    have hstep' : ((s.onBuf i (popBytes n)).buf i).step = 0 := by
      rw [onBuf_self]
      exact hstep
    unfold memBufferMaybeShrink
    simp only [hstep', true_or, if_true]
    split_ifs <;> rfl

def released (i ptr : ℕ) (s : Sys σ) : Sys σ :=
  s.onBuf i (giveRun ((usub ptr 2 - (s.buf i).buf.base) / (s.buf i).poolBlockSize)
    ((s.buf i).buf.bytes.word (usub ptr 2 - (s.buf i).buf.base)))

lemma free_tiered {ptr : ℕ} (hs : Settled s.prs) (hpct : s.prs.clearPct ≤ 100) (h : reliefTiered s (released i ptr s) i) :
    Tiered s (memBufferFree E i ptr s) := by
  unfold memBufferFree
  dsimp only
  unfold released at h
  generalize (usub ptr 2 - (s.buf i).buf.base) / (s.buf i).poolBlockSize = start at h
  generalize (s.buf i).buf.bytes.word (usub ptr 2 - (s.buf i).buf.base) = blocks at h
  split_ifs
  · exact .refl s
  · exact .refl s
  · exact .refl s
  · exact .refl s
  · have hgive : ∀ rb : MemBuffer, Fixed rb (giveRun start blocks rb) ∧
        (giveRun start blocks rb).lastPressureLevel = rb.lastPressureLevel := by
      intro rb
      exact ⟨⟨rfl, rfl, rfl, rfl, rfl, rfl⟩, rfl⟩
    refine clear_tiered hs hpct (hgive _).1 (hgive _).2
      (Raises.shrinkPool rfl .refl) ?_ h
    intro hstep
    have hstep' : ((s.onBuf i (giveRun start blocks)).buf i).step = 0 := by
      rw [onBuf_self]
      exact hstep
    unfold shrinkPool
    simp only [hstep', true_or, if_true]

/-! ### Runs -/

def customPool (ptr : ℕ) (s : Sys σ) : Option ℕ :=
  (s.lwipPools.find? fun i => (s.buf i).buf.base < ptr ∧ ptr < uadd (s.buf i).buf.base (s.buf i).cap).or s.lwipHeap

def stepTiered (s : Sys σ) : ModuleOp → Prop
  | .buffer (.pop i n) => reliefTiered s (s.onBuf i (popBytes n)) i
  | .buffer (.free i ptr) => reliefTiered s (released i ptr s) i
  | .customFree ptr => ∀ i, customPool ptr s = some i → reliefTiered s (released i ptr s) i
  | _ => False

lemma operate_settled {k : ℕ} {s t : Sys Delivered} {op : ModuleOp} (h : Settled s.prs ∧ s.prs.clearPct ≤ 100)
    (hstep : operate k s op = some t) : Settled t.prs ∧ t.prs.clearPct ≤ 100 := by
  have hregister : ∀ {eth tls : Bool} {w : Delivered}, Settled (memPressureUpdateEffective (hookEnv k)
        { s with prs := { s.prs with ethHook := eth, tlsHook := tls }, world := w }).prs ∧
      (memPressureUpdateEffective (hookEnv k)
        { s with prs := { s.prs with ethHook := eth, tlsHook := tls }, world := w }).prs.clearPct ≤ 100 := by
    intro eth tls w
    have hl : Levels { s.prs with ethHook := eth, tlsHook := tls } := ⟨h.1.levels.global, h.1.levels.eth, h.1.levels.tls⟩
    rw [updateEffective_prs hl]
    exact ⟨hl.updated, h.2⟩
  refine operate_inv (P := fun s => Settled s.prs ∧ s.prs.clearPct ≤ 100) ?_ ?_ ?_ ?_ h hstep
  · exact fun _ _ _ hm hs => ⟨hs.1.moves hm, (hm.clearPct hs.1).trans_le hs.2⟩
  · rintro s t ⟨hprs, -⟩ hs
    rw [hprs]
    exact hs
  · intro pct u hu
    unfold memSetPressureClearPct
    split_ifs with hle
    · exact ⟨hu.1.clearPct pct, hle⟩
    · exact hu
  · rintro t (rfl | rfl) ht
    · cases ht
      exact hregister
    · cases ht
      exact hregister

/-- **Relief is tiered** in every state of every run, for the steps that no other pool or ring decides. -/
theorem relief_tiered (k : ℕ) (allocs : ℕ → Option Raw) (ops : List ModuleOp) (s t : Sys Delivered) (op : ModuleOp)
    (h : run (operate k) { allocs, world := {} } ops = some s) (hop : stepTiered s op) (hstep : operate k s op = some t) :
    Tiered s t := by
  have hinv : Settled s.prs ∧ s.prs.clearPct ≤ 100 := by
    refine run_inv (fun s : Sys Delivered => Settled s.prs ∧ s.prs.clearPct ≤ 100) ?_ ?_ h
    · exact fun _ _ _ hs hstep => operate_settled hs hstep
    · exact ⟨⟨⟨fun _ => rfl, fun _ => rfl, fun _ => rfl⟩, rfl, rfl⟩, le_of_ble_eq_true rfl⟩
  obtain ⟨hs, hpct⟩ := hinv
  cases op with
  | buffer op =>
    cases hstep
    cases op with
    | pop i n => exact pop_tiered hs hpct hop
    | free i ptr => exact free_tiered hs hpct hop
    | create | destroy | push | reserve | malloc | setOwner | setGrow | setShrink | setMaxSize => exact hop.elim
  | customFree ptr =>
    cases hstep
    unfold stepTiered customPool at hop
    unfold memBufferCustomFree
    dsimp only
    split_ifs
    · exact .refl s
    · cases hfind : s.lwipPools.find? fun i => (s.buf i).buf.base < ptr ∧ ptr < uadd (s.buf i).buf.base (s.buf i).cap with
      | some i => exact free_tiered hs hpct (hop i (by rw [hfind]; rfl))
      | none =>
        cases hheap : s.lwipHeap with
        | none => exact .refl s
        | some i => exact free_tiered hs hpct (hop i (by rw [hfind, hheap]; rfl))
  | memInit | setClearPct | setLwipHeap | initPools | customMalloc | customCalloc | registerEth | registerTls => exact hop.elim

theorem relief_tiered_ring : ∃ s t, run (operate 48) { allocs := plenty, world := {} }
      (fillRing ++ [.buffer (.push 0 [9])]) = some s ∧
    operate 48 s (.buffer (.pop 0 9)) = some t ∧ s.prs.ethEffective = .high ∧ t.prs.ethEffective = .mild ∧ Tiered s t :=
  ⟨_, _, rfl, rfl, by decide +kernel, by decide +kernel, relief_tiered 48 plenty (fillRing ++ [.buffer (.push 0 [9])]) _ _
    (.buffer (.pop 0 9)) rfl (.inr (by decide +kernel)) rfl⟩

/-- A pool of two blocks that are one chunk: the next request is refused, and behind the free nothing is left of the
critical pressure. -/
theorem relief_at_once : ∃ s t, run (operate 48) { allocs := plenty, world := {} }
      [.registerEth, .memInit 0 true, .initPools [⟨16, 2, 0, {}, .unknown⟩], .customMalloc 20, .customMalloc 10] = some s ∧
    operate 48 s (.customFree 1002) = some t ∧ s.world.eth = .critical ∧ t.world.eth = .none ∧
    s.prs.ethEffective = .critical ∧ t.prs.ethEffective = .none :=
  ⟨_, _, rfl, rfl, by decide +kernel, by decide +kernel, by decide +kernel, by decide +kernel⟩

end LwftpCe.Buffer
