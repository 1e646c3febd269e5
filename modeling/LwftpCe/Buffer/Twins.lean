import LwftpCe.Buffer.Levels
import LwftpCe.Buffer.Refusal
import LwftpCe.Buffer.Shrink
import LwftpCe.Lib.Cases

/-!
# Rings with other bytes in them

Two states of the module that differ in the bytes that are stored in a buffer, and in nothing else (`Twin`).  The operations on a
ring in secure mode take twins to twins, unless `realloc_fn` moves a queue (`reallocates`).
-/

namespace LwftpCe.Buffer

open Lib List Function Sys Ring

variable {σ : Type} {E : Env σ} {i : ℕ} {s t : Sys σ} {rb rb' : MemBuffer} {m m' : Mem} {f : Sys σ → Sys σ} {n : ℕ}
  {needed : ℕ} {data data' : Bytes}

/-! ### Functions that do not look at the bytes -/

def Sys.withBytes (i : ℕ) (m : Mem) (s : Sys σ) : Sys σ := s.onBuf i (·.onBytes fun _ => m)

namespace Sys

lemma withBytes_self (i : ℕ) (m : Mem) (s : Sys σ) : (s.withBytes i m).buf i = (s.buf i).onBytes fun _ => m := onBuf_self ..

@[simp] lemma withBytes_cfg (i : ℕ) (m : Mem) (s : Sys σ) : (s.withBytes i m).cfg = s.cfg := rfl
@[simp] lemma withBytes_prs (i : ℕ) (m : Mem) (s : Sys σ) : (s.withBytes i m).prs = s.prs := rfl
@[simp] lemma withBytes_allocs (i : ℕ) (m : Mem) (s : Sys σ) : (s.withBytes i m).allocs = s.allocs := rfl
@[simp] lemma withBytes_calls (i : ℕ) (m : Mem) (s : Sys σ) : (s.withBytes i m).calls = s.calls := rfl
@[simp] lemma withBytes_heap (i : ℕ) (m : Mem) (s : Sys σ) : (s.withBytes i m).heap = s.heap := rfl

lemma withBytes_same (i : ℕ) (s : Sys σ) : s.withBytes i (s.buf i).buf.bytes = s := by
  unfold withBytes onBuf MemBuffer.onBytes
  rw [update_eq_self]

lemma onBuf_onBuf (i : ℕ) (f g : MemBuffer → MemBuffer) (s : Sys σ) : (s.onBuf i f).onBuf i g = s.onBuf i (g ∘ f) := by
  unfold onBuf
  simp only [update_self, update_idem, comp]

lemma withBytes_buf (i j : ℕ) (m : Mem) (s : Sys σ) :
    (s.withBytes i m).buf j = (s.buf j).onBytes fun b => if j = i then m else b := by
  by_cases hj : j = i
  · subst hj
    rw [withBytes_self]
    simp only [if_true]
  · rw [withBytes, onBuf_other hj]
    simp only [if_neg hj]
    rfl

end Sys

/-- The function neither reads nor writes the bytes of the buffer `i`, and leaves the buffer where it is. -/
structure Blind (i : ℕ) (f : Sys σ → Sys σ) : Prop where
  comm : ∀ m s, f (s.withBytes i m) = (f s).withBytes i m
  alike : ∀ s, Alike (s.buf i) ((f s).buf i)

lemma Blind.comp {g : Sys σ → Sys σ} (hf : Blind i f) (hg : Blind i g) : Blind i fun s => g (f s) :=
  ⟨fun m s => by rw [hf.comm, hg.comm], fun s => (hf.alike s).trans (hg.alike (f s))⟩

lemma Blind.onBuf {f : MemBuffer → MemBuffer} (hf : ∀ m rb, f (rb.onBytes fun _ => m) = (f rb).onBytes fun _ => m)
    (ha : ∀ rb, Alike rb (f rb)) : Blind i (onBuf (σ := σ) i f) := by
  refine ⟨fun m s => ?_, fun s => by rw [onBuf_self]; exact ha _⟩
  unfold withBytes
  rw [onBuf_onBuf, onBuf_onBuf]
  exact congrArg (s.onBuf i) (funext (hf m))

lemma Blind.beside (hbuf : ∀ s, (f s).buf = s.buf) (hf : ∀ s b, f { s with buf := b } = { f s with buf := b }) : Blind i f := by
  refine ⟨fun m s => ?_, fun s => by rw [hbuf]; exact .refl _⟩
  unfold Sys.withBytes Sys.onBuf
  rw [hf, hbuf]

lemma Blind.of_quiet (hq : ∀ s, Quiet i s (f s)) (hf : ∀ m s, f (s.withBytes i m) = (f s).withBytes i m) : Blind i f :=
  ⟨hf, fun s => .quiet (hq s)⟩

lemma withBytes_owner (i j : ℕ) (m : Mem) (s : Sys σ) : ((s.withBytes i m).buf j).owner = (s.buf j).owner := by
  rw [withBytes_buf]
  rfl

lemma withBytes_level (i j : ℕ) (m : Mem) (s : Sys σ) :
    ((s.withBytes i m).buf j).lastPressureLevel = (s.buf j).lastPressureLevel := by
  rw [withBytes_buf]
  rfl

lemma withBytes_usage (i j : ℕ) (m : Mem) (s : Sys σ) (used : ℕ) :
    memBufferUsagePct s.cfg ((s.withBytes i m).buf j) used = memBufferUsagePct s.cfg (s.buf j) used := by
  rw [withBytes_buf]
  rfl

lemma withBytes_poolUsage (i j : ℕ) (m : Mem) (s : Sys σ) : poolUsage (s.withBytes i m) j = poolUsage s j := by
  unfold poolUsage
  rw [withBytes_buf]
  rfl

lemma withBytes_relieved (i : ℕ) (m : Mem) (s : Sys σ) : relieved (s.withBytes i m) i = relieved s i := by
  unfold relieved
  rw [withBytes_self]
  rfl

lemma withBytes_poolsRelieved (i : ℕ) (m : Mem) (s : Sys σ) : poolsRelieved (s.withBytes i m) = poolsRelieved s := by
  unfold poolsRelieved memPressurePoolsBelowClear memPressurePoolsLevel
  simp only [withBytes_poolUsage, withBytes_level]
  rfl

lemma blind_updateEffective : Blind i (memPressureUpdateEffective E) := by
  have heth : ∀ s b, updateEthEffective E { s with buf := b } = { updateEthEffective E s with buf := b } := by
    intro s b
    unfold updateEthEffective
    dsimp only
    split_ifs <;> rfl
  have htls : ∀ s b, updateTlsEffective E { s with buf := b } = { updateTlsEffective E s with buf := b } := by
    intro s b
    unfold updateTlsEffective
    dsimp only
    split_ifs <;> rfl
  refine .beside updateEffective_buf fun s b => ?_
  unfold memPressureUpdateEffective
  rw [heth, htls]

lemma blind_level (level : Level) : Blind (σ := σ) i (onBuf i fun rb => { rb with lastPressureLevel := level }) :=
  .onBuf (fun _ _ => rfl) fun _ => ⟨rfl, rfl, rfl, rfl, rfl, rfl, rfl, rfl, rfl⟩

lemma blind_notify (level : Level) : Blind i (memBufferNotifyLowmem E i level) := by
  have hmark : Blind i (memPressureMark E i level) := by
    refine .of_quiet (quiet_mark i level) fun m s => ?_
    by_cases hl : level = .none
    · unfold memPressureMark
      rw [if_pos hl, if_pos hl]
    · rw [mark_eq hl, mark_eq hl, withBytes_owner]
      exact blind_updateEffective.comm m { s with prs := s.prs.raise (s.buf i).owner level }
  exact hmark.comp (blind_level level)

lemma withBytes_withRelieved (i : ℕ) (m : Mem) (s : Sys σ) : withRelieved i (s.withBytes i m) = (withRelieved i s).withBytes i m := by
  unfold withRelieved
  rw [withBytes_relieved]
  exact (blind_level _).comm m s

lemma blind_maybeClear : Blind i (memPressureMaybeClear E i) := by
  refine .of_quiet (quiet_maybeClear i) fun m s => ?_
  by_cases hpct : s.prs.clearPct ≤ 100
  · have hlevel : clearedLevel (s.withBytes i m) i = clearedLevel s i := by
      unfold clearedLevel
      rw [withBytes_withRelieved, withBytes_poolsRelieved, withBytes_relieved, withBytes_owner]
    rw [maybeClear_eq (s := s.withBytes i m) hpct, maybeClear_eq hpct, hlevel, withBytes_owner, withBytes_withRelieved]
    have hupdate := (blind_updateEffective (E := E) (i := i)).comm m
      { withRelieved i s with prs := s.prs.setLevel (s.buf i).owner (clearedLevel s i) }
    split
    · exact hupdate
    · exact hupdate
    · exact hupdate
    · rfl
  · have hnone : ∀ s : Sys σ, ¬ s.prs.clearPct ≤ 100 → memPressureMaybeClear E i s = s := fun s h => if_pos (not_le.1 h)
    rw [hnone s hpct, hnone (s.withBytes i m) hpct]

lemma blind_reportUsage (needed : ℕ) : Blind i (reportUsage E i needed) := by
  refine .of_quiet (reportUsage_quiet i needed) fun m s => ?_
  unfold reportUsage
  simp only [withBytes_cfg, withBytes_usage, withBytes_level]
  split_ifs
  · exact (blind_notify _).comm m s
  · rfl

lemma blind_giveBack (grow : ℕ) : Blind (σ := σ) i (giveBack grow) := by
  refine .beside (giveBack_buf grow) fun s b => ?_
  unfold giveBack
  split_ifs <;> rfl

/-! ### Twins -/

def Twin (used : ℕ → Prop) (i : ℕ) (s t : Sys σ) : Prop :=
  ∃ m : Mem, t = s.withBytes i m ∧ ∀ k, ¬ used k → m k = (s.buf i).buf.bytes k

namespace Twin

variable {used used' : ℕ → Prop}

lemma refl (used : ℕ → Prop) (i : ℕ) (s : Sys σ) : Twin used i s s := ⟨_, (withBytes_same i s).symm, fun _ _ => rfl⟩

lemma self (h : Twin used i s t) : ∃ m, t.buf i = (s.buf i).onBytes fun _ => m := by
  obtain ⟨m, rfl, -⟩ := h
  exact ⟨m, withBytes_self ..⟩

lemma beside (h : Twin used i s t) : t.cfg = s.cfg ∧ t.allocs = s.allocs ∧ t.calls = s.calls := by
  obtain ⟨m, rfl, -⟩ := h
  exact ⟨rfl, rfl, rfl⟩

lemma mono (h : Twin used i s t) (hu : ∀ k, used k → used' k) : Twin used' i s t := by
  obtain ⟨m, rfl, hm⟩ := h
  exact ⟨m, rfl, fun k hk => hm k fun hk' => hk (hu k hk')⟩

lemma eq_of_unused (h : Twin used i s t) (hu : ∀ k, ¬ used k) : t = s := by
  obtain ⟨m, rfl, hm⟩ := h
  rw [funext fun k => hm k (hu k), withBytes_same]

lemma blind {f : Sys σ → Sys σ} (hf : Blind i f) (h : Twin used i s t) : Twin used i (f s) (f t) := by
  obtain ⟨m, rfl, hm⟩ := h
  exact ⟨m, hf.comm m s, fun k hk => by rw [(hf.alike s).buf, hm k hk]⟩

lemma onBytes {f : Mem → Mem} (hf : ∀ m m' k, m k = m' k → f m k = f m' k) (h : Twin used i s t) :
    Twin used i (s.onBuf i (·.onBytes f)) (t.onBuf i (·.onBytes f)) := by
  obtain ⟨m, rfl, hm⟩ := h
  refine ⟨f m, ?_, fun k hk => ?_⟩
  · unfold withBytes
    rw [onBuf_onBuf, onBuf_onBuf]
    rfl
  · rw [onBuf_self]
    exact hf _ _ k (hm k hk)

end Twin

/-! ### Resizing a ring -/

def inQueue (rb : MemBuffer) (k : ℕ) : Prop := ∃ j < rb.len, k = (rb.head + j) % rb.cap

lemma inQueue_alike (h : Alike rb rb') : inQueue rb' = inQueue rb := by
  unfold inQueue MemBuffer.len MemBuffer.head
  rw [h.blockSize, h.count, h.cap]

lemma inQueue.lt {k : ℕ} (h : inQueue rb k) (hr : IsRing rb) : k < rb.cap := by
  obtain ⟨j, -, rfl⟩ := h
  exact Nat.mod_lt _ hr.cap_pos

def RingTwin (i : ℕ) (s t : Sys σ) : Prop := Twin (inQueue (s.buf i)) i s t

lemma RingTwin.blind (hf : Blind i f) (h : RingTwin i s t) : RingTwin i (f s) (f t) := by
  unfold RingTwin
  rw [inQueue_alike (hf.alike s)]
  exact Twin.blind hf h

lemma RingTwin.eq_of_empty (h : RingTwin i s t) (hlen : (s.buf i).len = 0) : t = s := by
  refine Twin.eq_of_unused h fun k hk => ?_
  obtain ⟨j, hj, -⟩ := hk
  omega

def Twins (i : ℕ) (x y : Bool × Sys σ) : Prop := y.1 = x.1 ∧ RingTwin i x.2 y.2

lemma Twins.of_eq (h : RingTwin i s t) (ok : Bool) : Twins i (ok, s) (ok, t) := ⟨rfl, h⟩

def reallocates (i newCap : ℕ) (s : Sys σ) : Bool :=
  s.cfg.hasRealloc = true ∧ (s.buf i).head = 0 ∧ 0 < (s.buf i).len ∧ (s.buf i).len ≤ newCap ∧ newCap ≠ (s.buf i).cap ∧
    (s.buf i).flags.lockSize = false ∧ ((s.buf i).maxCap = sizeMax ∨ newCap ≤ (s.buf i).maxCap) ∧
    (if newCap - (s.buf i).cap > 0 then memBufferCharge (newCap - (s.buf i).cap) s.cfg else some s.cfg).isSome = true ∧
    (s.allocs s.calls).isSome = true

lemma reallocates_quiet (hq : Quiet i s t) (newCap : ℕ) : reallocates i newCap t = reallocates i newCap s := by
  obtain ⟨level, hl⟩ := hq.self
  unfold reallocates
  rw [hl, hq.cfg, hq.allocs, hq.calls]

section Resize

variable {newCap grow shrink : ℕ}

lemma copyRing_behind (rb : MemBuffer) {b : Block} {k : ℕ} (hk : rb.len ≤ k) : (copyRing rb b).bytes k = b.bytes k := by
  unfold copyRing
  split_ifs
  · dsimp only
    rw [Mem.write_behind k (by rw [Mem.length_read]; omega), Mem.write_behind k (by rw [Mem.length_read]; omega)]
  · rfl

lemma copyRing_eq (rb rb' : MemBuffer) (b : Block) : copyRing rb' b = { copyRing rb b with bytes := (copyRing rb' b).bytes } := by
  unfold copyRing
  split_ifs <;> rfl

lemma cleared_withBytes (rb : MemBuffer) (hsec : rb.flags.secureMode = true) (hm : ∀ k, rb.cap ≤ k → m k = rb.buf.bytes k) :
    cleared (rb.onBytes fun _ => m) = cleared rb := by
  have hfill : m.fill 0 rb.cap 0 = rb.buf.bytes.fill 0 rb.cap 0 := by
    funext k
    unfold Mem.fill
    split_ifs with hk
    · rfl
    · exact hm k (by omega)
  calc cleared (rb.onBytes fun _ => m)
    _ = { rb.buf with bytes := m.fill 0 rb.cap 0 } := if_pos hsec
    _ = { rb.buf with bytes := rb.buf.bytes.fill 0 rb.cap 0 } := by rw [hfill]
    _ = cleared rb := (if_pos hsec).symm

lemma resized_withBytes (m m' : Mem) (b : Block) (s : Sys σ) :
    resized i newCap shrink { b with bytes := m' } (s.withBytes i m) = (resized i newCap shrink b s).withBytes i m' := by
  have hcfg : ∀ (f : MemBuffer → MemBuffer) (g : Config → Config) (s : Sys σ), (s.onCfg g).onBuf i f = (s.onBuf i f).onCfg g :=
    fun _ _ _ => rfl
  unfold resized withBytes
  dsimp only
  split_ifs
  · rw [hcfg, onBuf_onBuf, onBuf_onBuf]
    rfl
  · rw [onBuf_onBuf, onBuf_onBuf]
    rfl

lemma resizeByCopy_twin (h : IsRing (s.buf i)) (hsec : (s.buf i).flags.secureMode = true) (hlen : (s.buf i).len ≤ newCap)
    (ht : RingTwin i s t) : Twins i (resizeByCopy i newCap grow shrink s) (resizeByCopy i newCap grow shrink t) := by
  cases hr : s.allocs s.calls with
  | none =>
    have hcalls : Blind (σ := σ) i fun s => { s with calls := s.calls + 1 } := .beside (fun _ => rfl) fun _ _ => rfl
    obtain ⟨-, hallocs, hcalls'⟩ := ht.beside
    rw [resizeByCopy_none hr, resizeByCopy_none (by rw [hallocs, hcalls', hr])]
    exact .of_eq ((ht.blind hcalls).blind (blind_giveBack grow)) false
  | some r =>
    obtain ⟨m, rfl, hm⟩ := ht
    rw [resizeByCopy_some hr, resizeByCopy_some (s := s.withBytes i m) hr, withBytes_self]
    have hout : ∀ k, (s.buf i).cap ≤ k → m k = (s.buf i).buf.bytes k := fun k hk => hm k fun hq => by
      have := hq.lt h
      omega
    rw [cleared_withBytes _ hsec hout]
    change Twins i (true, resized i newCap shrink (copyRing (s.buf i) ⟨s.calls, r.base, newCap, r.bytes⟩) (free (cleared (s.buf i))
        { s with calls := s.calls + 1, heap := .got s.calls newCap :: s.heap }))
      (true, resized i newCap shrink (copyRing ((s.buf i).onBytes fun _ => m) ⟨s.calls, r.base, newCap, r.bytes⟩)
        ((free (cleared (s.buf i)) { s with calls := s.calls + 1, heap := .got s.calls newCap :: s.heap }).withBytes i m))
    have hcopy : ∀ k, (s.buf i).len ≤ k →
        (copyRing ((s.buf i).onBytes fun _ => m) ⟨s.calls, r.base, newCap, r.bytes⟩).bytes k =
          (copyRing (s.buf i) ⟨s.calls, r.base, newCap, r.bytes⟩).bytes k := fun k hk =>
      (copyRing_behind ((s.buf i).onBytes fun _ => m) hk).trans (copyRing_behind _ hk).symm
    have hblock := copyRing_eq (s.buf i) ((s.buf i).onBytes fun _ => m) ⟨s.calls, r.base, newCap, r.bytes⟩
    generalize copyRing (s.buf i) ⟨s.calls, r.base, newCap, r.bytes⟩ = c at hcopy hblock
    generalize copyRing ((s.buf i).onBytes fun _ => m) ⟨s.calls, r.base, newCap, r.bytes⟩ = c' at hcopy hblock
    have hlen' : ((free (cleared (s.buf i)) { s with calls := s.calls + 1, heap := .got s.calls newCap :: s.heap }).buf i).u₀ =
      (s.buf i).len := rfl
    generalize free (cleared (s.buf i)) { s with calls := s.calls + 1, heap := .got s.calls newCap :: s.heap } = v at hlen'
    refine ⟨rfl, c'.bytes, ?_, fun k hk => ?_⟩
    · rw [hblock]
      exact resized_withBytes m _ c v
    · rw [resized_buf] at hk ⊢
      refine hcopy k (not_lt.1 fun hlt => hk ⟨k, ?_, ?_⟩)
      · change k < (v.buf i).u₀
        rwa [hlen']
      · change k = (0 + k) % newCap
        rw [Nat.zero_add, Nat.mod_eq_of_lt (hlt.trans_le hlen)]

lemma resizeInPlace_none (h : s.allocs s.calls = none) : resizeInPlace E i newCap grow shrink s =
    (false, giveBack grow (memBufferNotifyLowmem E i .critical
      { (if (s.buf i).flags.secureMode = true ∧ shrink > 0 then s.onBuf i (·.onBytes (·.fill newCap shrink 0)) else s) with
        calls := s.calls + 1 })) := by
  unfold resizeInPlace realloc
  dsimp only
  split_ifs
  · rw [show (s.onBuf i (·.onBytes (·.fill newCap shrink 0))).allocs (s.onBuf i (·.onBytes (·.fill newCap shrink 0))).calls = none
      from h]
    rfl
  · rw [h]

lemma resizeInPlace_twin (hnone : s.allocs s.calls = none) (ht : RingTwin i s t) :
    Twins i (resizeInPlace E i newCap grow shrink s) (resizeInPlace E i newCap grow shrink t) := by
  obtain ⟨-, hallocs, hcalls⟩ := ht.beside
  obtain ⟨m, hbuf⟩ := ht.self
  have hflags : (t.buf i).flags = (s.buf i).flags := by rw [hbuf]; rfl
  have hset : Blind (σ := σ) i fun u => { u with calls := s.calls + 1 } := .beside (fun _ => rfl) fun _ _ => rfl
  have hfill : ∀ (m m' : Mem) (k : ℕ), m k = m' k → m.fill newCap shrink 0 k = m'.fill newCap shrink 0 k := by
    intro m m' k hk
    unfold Mem.fill
    rw [hk]
  rw [resizeInPlace_none hnone, resizeInPlace_none (by rw [hallocs, hcalls, hnone]), hflags, hcalls]
  refine .of_eq (((RingTwin.blind hset ?_).blind (blind_notify .critical)).blind (blind_giveBack grow)) false
  split_ifs
  · unfold RingTwin
    rw [onBuf_self]
    exact Twin.onBytes hfill ht
  · exact ht

lemma resize_twin (h : IsRing (s.buf i)) (hsec : (s.buf i).flags.secureMode = true) (hstay : reallocates i newCap s = false)
    (ht : RingTwin i s t) : Twins i (memBufferResize E i newCap s) (memBufferResize E i newCap t) := by
  by_cases hempty : (s.buf i).len = 0
  · rw [ht.eq_of_empty hempty]
    exact ⟨rfl, .refl ..⟩
  obtain ⟨m, hbuf⟩ := ht.self
  unfold memBufferResize
  dsimp only
  rw [hbuf, ht.beside.1]
  refine rel_ite Iff.rfl (fun _ => .of_eq ht _) fun h1 => rel_ite Iff.rfl (fun _ => .of_eq ht _) fun h2 =>
    rel_ite Iff.rfl (fun _ => .of_eq ht _) fun h3 => ?_
  have hcap : ((s.buf i).onBytes fun _ => m).cap = (s.buf i).cap := rfl
  rw [hcap]
  cases hcharged : (if newCap - (s.buf i).cap > 0 then memBufferCharge (newCap - (s.buf i).cap) s.cfg else some s.cfg) with
  | none => exact .of_eq ht _
  | some cfg =>
    have htwin : RingTwin i { s with cfg } { t with cfg } := by
      obtain ⟨m, rfl, hm⟩ := ht
      exact ⟨m, rfl, hm⟩
    refine rel_ite Iff.rfl (fun hre => resizeInPlace_twin ?_ htwin) fun _ => resizeByCopy_twin (s := { s with cfg }) h hsec ?_ htwin
    · -- the allocator has failed
      have hreal : s.cfg.hasRealloc = true := by
        rw [← hre.1]
        split_ifs at hcharged
        · unfold memBufferCharge at hcharged
          split_ifs at hcharged <;> cases hcharged <;> rfl
        · cases hcharged
          rfl
      by_contra hsome
      refine Bool.eq_false_iff.1 hstay ?_
      simp only [reallocates, decide_eq_true_eq, hcharged, Option.isSome_some, true_and]
      exact ⟨hreal, hre.2.1, by omega, by omega, by omega, by simpa using h2, by omega, Option.isSome_iff_ne_none.2 hsome⟩
    · exact not_lt.1 fun hlt => h1 (.inl hlt)

end Resize

/-! ### Growing and shrinking a ring -/

def growthMoves (i n : ℕ) (s : Sys σ) : Bool :=
  ¬ ((s.buf i).len + n ≤ (s.buf i).cap ∧ (s.buf i).len + n < thresholdBytes (s.buf i).cap (s.buf i).growThresholdPct) ∧
    (s.buf i).len + n ≤ (s.buf i).maxCap ∧ reallocates i (growCap (s.buf i) ((s.buf i).len + n)) s = true

def shrinkMoves (i : ℕ) (wrapped : Bool) (s : Sys σ) : Bool :=
  (s.buf i).step ≠ 0 ∧ (s.buf i).step < (s.buf i).cap ∧ wrapped = true ∧
    (s.buf i).len ≤ thresholdBytes (s.buf i).cap (s.buf i).shrinkThresholdPct ∧ (s.buf i).shrinkHoldCount ≠ 0 ∧
    (s.buf i).shrinkHoldNext ≤ (s.buf i).shrinkHits + 1 ∧
    reallocates i (max ((s.buf i).cap - (s.buf i).step) (s.buf i).len) s = true

lemma blind_hit : Blind (σ := σ) i (onBuf i fun rb => { rb with shrinkHits := rb.shrinkHits + 1 }) :=
  .onBuf (fun _ _ => rfl) fun _ => ⟨rfl, rfl, rfl, rfl, rfl, rfl, rfl, rfl, rfl⟩

lemma blind_restartShrink : Blind (σ := σ) i (onBuf i restartShrink) :=
  .onBuf (fun _ _ => rfl) fun _ => ⟨rfl, rfl, rfl, rfl, rfl, rfl, rfl, rfl, rfl⟩

lemma blind_nextStage : Blind (σ := σ) i (onBuf i nextStage) :=
  .onBuf (fun _ _ => rfl) fun _ => ⟨rfl, rfl, rfl, rfl, rfl, rfl, rfl, rfl, rfl⟩

lemma Twins.orNotify {x y : Bool × Sys σ} : Twins i x y →
    Twins i (match x with | (true, s) => (true, s) | (false, s) => (false, memBufferNotifyLowmem E i .critical s))
      (match y with | (true, s) => (true, s) | (false, s) => (false, memBufferNotifyLowmem E i .critical s)) := by
  intro h
  obtain ⟨a, u⟩ := x
  obtain ⟨b, v⟩ := y
  obtain ⟨rfl, ht⟩ : b = a ∧ RingTwin i u v := h
  cases b with
  | true => exact .of_eq ht true
  | false => exact .of_eq (ht.blind (blind_notify .critical)) false

lemma growTo_twin {target : ℕ} (h : IsRing (s.buf i)) (hsec : (s.buf i).flags.secureMode = true) (hn : needed ≤ target)
    (htarget : target < uintRange)
    (hstay : needed ≤ (s.buf i).maxCap → reallocates i (if (s.buf i).maxCap ≠ sizeMax ∧ target > (s.buf i).maxCap
      then (s.buf i).maxCap else target) s = false) (ht : RingTwin i s t) :
    Twins i (growTo E i needed target s) (growTo E i needed target t) := by
  obtain ⟨m, hbuf⟩ := ht.self
  have hmax : (t.buf i).maxCap = (s.buf i).maxCap := by rw [hbuf]; rfl
  have hsize : sizeMax = uintRange - 1 := rfl
  unfold growTo
  simp only [hmax]
  refine rel_ite Iff.rfl (fun _ => .of_eq (ht.blind (blind_notify .critical)) false) fun hlim => ?_
  exact (resize_twin h hsec (hstay (by omega)) ht).orNotify

lemma maybeGrow_twin (h : IsRing (s.buf i)) (hsec : (s.buf i).flags.secureMode = true)
    (hsum : (s.buf i).len + n < uintRange) (hstay : growthMoves i n s = false) (ht : RingTwin i s t) :
    Twins i (memBufferMaybeGrow E i n s) (memBufferMaybeGrow E i n t) := by
  have hq := reportUsage_quiet (E := E) i ((s.buf i).len + n) s
  have hrep := ht.blind (blind_reportUsage (E := E) ((s.buf i).len + n))
  obtain ⟨m, hbuf⟩ := ht.self
  unfold memBufferMaybeGrow
  dsimp only
  rw [hbuf, show ((s.buf i).onBytes fun _ => m).len = (s.buf i).len from rfl, uadd_of_lt hsum]
  refine rel_ite Iff.rfl (fun _ => rel_ite Iff.rfl (fun _ => .of_eq (hrep.blind (blind_notify .critical)) false) fun _ =>
    .of_eq hrep true) fun _ => rel_ite Iff.rfl (fun _ => .of_eq hrep true) fun hroom => ?_
  obtain ⟨hle, hlt⟩ := growTarget_bounds h.cap_lt hsum
  obtain ⟨level, hl⟩ := hq.self
  refine growTo_twin (hq.kept h).isRing (by rw [hl]; exact hsec) hle hlt (fun hmax => ?_) hrep
  rw [reallocates_quiet hq, hl]
  rw [hl] at hmax
  by_contra hmoves
  refine Bool.eq_false_iff.1 hstay ?_
  simp only [growthMoves, decide_eq_true_eq]
  exact ⟨hroom, hmax, Bool.eq_true_of_not_eq_false hmoves⟩

lemma maybeShrink_twin {wrapped : Bool} (h : IsRing (s.buf i)) (hsec : (s.buf i).flags.secureMode = true)
    (hstay : shrinkMoves i wrapped s = false) (ht : RingTwin i s t) :
    RingTwin i (memBufferMaybeShrink E i wrapped s) (memBufferMaybeShrink E i wrapped t) := by
  have hhit := ht.blind blind_hit
  obtain ⟨m, hbuf⟩ := ht.self
  unfold memBufferMaybeShrink
  simp only [onBuf_self]
  rw [hbuf]
  refine rel_ite Iff.rfl (fun _ => ht) fun _ => rel_ite Iff.rfl (fun _ => ht) fun h2 => rel_ite Iff.rfl (fun _ => ht) fun h3 =>
    rel_ite Iff.rfl (fun _ => ht.blind blind_restartShrink) fun h4 => rel_ite Iff.rfl (fun _ => ht) fun h5 =>
    rel_ite Iff.rfl (fun _ => hhit) fun h6 => ?_
  refine (resize_twin (E := E) ?_ ?_ ?_ hhit).2.blind blind_nextStage
  · rw [onBuf_self]
    exact ⟨h.ring, h.len_le, h.cap_pos, h.head_lt, h.cap_le, h.maxCap_lt, h.size⟩
  · rw [onBuf_self]
    exact hsec
  · by_contra hmoves
    refine Bool.eq_false_iff.1 hstay ?_
    simp only [shrinkMoves, decide_eq_true_eq]
    refine ⟨by omega, by omega, ?_, by omega, h5, UInt16.not_lt.1 h6, ?_⟩
    · simpa using (not_or.1 h3).1
    · rw [Bool.not_eq_false, reallocates, onBuf_self] at hmoves
      exact hmoves

/-! ### The operations of a ring -/

lemma pushBytes_twin (h : IsRing (s.buf i)) (hroom : (s.buf i).len + data.length ≤ (s.buf i).cap)
    (hsum : (s.buf i).head + (s.buf i).len < uintRange) (hlen : data'.length = data.length) (ht : RingTwin i s t) :
    RingTwin i (s.onBuf i (pushBytes data)) (t.onBuf i (pushBytes data')) := by
  obtain ⟨m, rfl, hm⟩ := ht
  unfold RingTwin
  rw [onBuf_self]
  generalize hrb : s.buf i = rb at h hroom hsum hm
  have hlt := h.cap_lt
  have htail : (rb.head + rb.len) % rb.cap < rb.cap := Nat.mod_lt _ h.cap_pos
  have hput : ∀ (m : Mem) (bs : Bytes), pushBytes bs (rb.onBytes fun _ => m) =
      rb.setRing (fun _ => put m (rb.cap - (rb.head + rb.len) % rb.cap) ((rb.head + rb.len) % rb.cap) bs) rb.head
        (uadd rb.len bs.length) := by
    intro m bs
    rw [← uadd_of_lt hsum, ← usub_of_le hlt (by rw [uadd_of_lt hsum]; exact htail.le)]
    rfl
  have hself : pushBytes data rb = rb.setRing (fun _ => put rb.buf.bytes (rb.cap - (rb.head + rb.len) % rb.cap)
      ((rb.head + rb.len) % rb.cap) data) rb.head (uadd rb.len data.length) := hput rb.buf.bytes data
  refine ⟨put m (rb.cap - (rb.head + rb.len) % rb.cap) ((rb.head + rb.len) % rb.cap) data', ?_, fun k hk => ?_⟩
  · unfold withBytes
    rw [onBuf_onBuf, onBuf_onBuf]
    unfold onBuf
    rw [hrb, comp_apply, comp_apply, hself, hput m data', hlen]
    rfl
  · rw [hself] at hk
    rw [onBuf_self, hrb, hself]
    have hout : ∀ j < rb.len + data.length, k ≠ (rb.head + j) % rb.cap := fun j hj hkj => by
      refine hk ⟨j, ?_, hkj⟩
      change j < uadd rb.len data.length
      rwa [uadd_of_lt (by omega)]
    have hnew : ∀ j < data.length, k ≠ ((rb.head + rb.len) % rb.cap + j) % rb.cap := fun j hj => by
      rw [Nat.mod_add_mod, Nat.add_assoc]
      exact hout _ (by omega)
    change _ = put rb.buf.bytes (rb.cap - (rb.head + rb.len) % rb.cap) ((rb.head + rb.len) % rb.cap) data k
    rw [put_outside htail (by omega) hnew, put_outside htail (by omega) (by rw [hlen]; exact hnew)]
    refine hm k fun hq => ?_
    obtain ⟨j, hj, hkj⟩ := hq
    exact hout j (by omega) hkj

lemma popBytes_twin (h : IsRing (s.buf i)) (hsec : (s.buf i).flags.secureMode = true) (hn : n ≤ (s.buf i).len)
    (hsum : (s.buf i).head + n < uintRange) (ht : RingTwin i s t) :
    RingTwin i (s.onBuf i (popBytes n)) (t.onBuf i (popBytes n)) := by
  obtain ⟨m, rfl, hm⟩ := ht
  unfold RingTwin
  rw [onBuf_self]
  generalize hrb : s.buf i = rb at h hsec hn hsum hm
  have hlt := h.cap_lt
  have hle := h.len_le
  have hwipe : ∀ m : Mem, popBytes n (rb.onBytes fun _ => m) =
      rb.setRing (fun _ => wipe m (rb.cap - rb.head) rb.head n) (uadd rb.head n % rb.cap) (rb.len - n) := by
    intro m
    rw [← usub_of_le hlt h.head_lt.le, show wipe m (usub rb.cap rb.head) rb.head n =
      (if rb.flags.secureMode then wipe m (usub rb.cap rb.head) rb.head n else m) from (if_pos hsec).symm]
    rfl
  have hself : popBytes n rb = rb.setRing (fun _ => wipe rb.buf.bytes (rb.cap - rb.head) rb.head n)
      (uadd rb.head n % rb.cap) (rb.len - n) := hwipe rb.buf.bytes
  refine ⟨wipe m (rb.cap - rb.head) rb.head n, ?_, fun k hk => ?_⟩
  · unfold withBytes
    rw [onBuf_onBuf, onBuf_onBuf]
    unfold onBuf
    rw [hrb, comp_apply, comp_apply, hself, hwipe]
    rfl
  · rw [hself] at hk
    rw [onBuf_self, hrb, hself]
    change _ = wipe rb.buf.bytes (rb.cap - rb.head) rb.head n k
    by_cases hq : inQueue rb k
    · -- it is among the bytes that are popped
      obtain ⟨j, hj, rfl⟩ := hq
      have hjn : j < n := by
        by_contra hge
        refine hk ⟨j - n, ?_, ?_⟩
        · change j - n < rb.len - n
          omega
        · change (rb.head + j) % rb.cap = (uadd rb.head n % rb.cap + (j - n)) % rb.cap
          rw [uadd_of_lt hsum, Nat.mod_add_mod, show rb.head + n + (j - n) = rb.head + j by omega]
      rw [wipe_at h.head_lt (by omega) hjn, wipe_at h.head_lt (by omega) hjn]
    · exact wipe_congr (hm k hq)

def leavesBehind (i : ℕ) (s : Sys σ) : RingOp σ → Bool
  | .push data => data ≠ [] ∧ growthMoves i data.length s = true
  | .reserve n => n ≠ 0 ∧ growthMoves i n s = true
  | .pop n => n ≠ 0 ∧ n ≤ (s.buf i).len ∧
      shrinkMoves i (uadd (s.buf i).head n ≥ (s.buf i).cap) (s.onBuf i (popBytes n)) = true
  | _ => false

/-- The same operation, but for the bytes that are pushed. -/
inductive RingOp.Parallel : RingOp σ → RingOp σ → Prop
  | push {data data' : Bytes} (h : data'.length = data.length) : Parallel (.push data) (.push data')
  | same (op : RingOp σ) : Parallel op op

lemma push_twin (h : IsRing (s.buf i)) (hsec : (s.buf i).flags.secureMode = true)
    (hok : sumsFit i s (.push data)) (hstay : leavesBehind i s (.push data) = false) (hlen : data'.length = data.length)
    (ht : RingTwin i s t) : RingTwin i (memBufferPush E i data s).2 (memBufferPush E i data' t).2 := by
  obtain ⟨m, hbuf⟩ := ht.self
  have hnil : data = [] ↔ data' = [] := by rw [← length_eq_zero_iff, ← hlen, length_eq_zero_iff]
  simp only [sumsFit, decide_eq_true_eq] at hok
  unfold memBufferPush
  rw [hbuf, hlen]
  refine rel_ite (R := fun x y : Bool × Sys σ => RingTwin i x.2 y.2) (or_congr_left hnil) (fun _ => ht) fun h0 => ?_
  have h0 := (not_or.1 h0).1
  have hmoves : growthMoves i data.length s = false := by
    simpa [leavesBehind, h0] using hstay
  have hgrow := maybeGrow_kept (E := E) h (length_pos_iff.2 h0) hok.1
  have htwin := maybeGrow_twin (E := E) h hsec hok.1 hmoves ht
  generalize memBufferMaybeGrow E i data.length s = x at hgrow htwin
  generalize memBufferMaybeGrow E i data.length t = y at htwin
  obtain ⟨a, u⟩ := x
  obtain ⟨b, v⟩ := y
  obtain ⟨rfl, huv⟩ : b = a ∧ RingTwin i u v := htwin
  have hk : Kept (s.buf i) (u.buf i) := hgrow.1
  cases b with
  | false => exact huv
  | true =>
    have hroom : (u.buf i).len + data.length ≤ (u.buf i).cap := by
      rw [hk.len]
      exact hgrow.2 rfl
    have hsum : (u.buf i).head + (u.buf i).len < uintRange := by
      have hlt := hk.isRing.cap_lt
      have hlen := hk.isRing.len_le
      have hsame := hk.len
      rcases hk.head with hh | hh <;> omega
    exact pushBytes_twin hk.isRing hroom hsum hlen huv

lemma pop_twin (h : IsRing (s.buf i)) (hsec : (s.buf i).flags.secureMode = true) (hok : sumsFit i s (.pop n))
    (hstay : leavesBehind i s (.pop n) = false) (ht : RingTwin i s t) :
    RingTwin i (memBufferPop E i n s).2 (memBufferPop E i n t).2 := by
  obtain ⟨m, hbuf⟩ := ht.self
  simp only [sumsFit, decide_eq_true_eq] at hok
  unfold memBufferPop
  dsimp only
  rw [hbuf]
  refine rel_ite (R := fun x y : Bytes × Sys σ => RingTwin i x.2 y.2) Iff.rfl (fun _ => ht) fun h0 => ?_
  obtain ⟨hn, hle, -⟩ := not_or.1 h0 |>.imp_right not_or.1
  have hmoves : shrinkMoves i (uadd (s.buf i).head n ≥ (s.buf i).cap) (s.onBuf i (popBytes n)) = false := by
    simpa [leavesBehind, hn, Nat.le_of_not_lt hle] using hstay
  have hpop := popBytes_twin h hsec (Nat.le_of_not_lt hle) hok ht
  have hring := (popBytes_queue h (Nat.le_of_not_lt hle) hok).1
  refine (maybeShrink_twin (E := E) ?_ ?_ hmoves hpop).blind blind_maybeClear
  · rw [onBuf_self]
    exact hring
  · rw [onBuf_self]
    exact hsec

lemma reserve_twin (h : IsRing (s.buf i)) (hsec : (s.buf i).flags.secureMode = true) (hok : sumsFit i s (.reserve n))
    (hstay : leavesBehind i s (.reserve n) = false) (ht : RingTwin i s t) :
    RingTwin i (memBufferReserve E i n s).2 (memBufferReserve E i n t).2 := by
  obtain ⟨m, hbuf⟩ := ht.self
  simp only [sumsFit, decide_eq_true_eq] at hok
  unfold memBufferReserve
  rw [hbuf]
  refine rel_ite (R := fun x y : Bool × Sys σ => RingTwin i x.2 y.2) Iff.rfl (fun _ => ht) fun h0 => ?_
  have hmoves : growthMoves i n s = false := by
    simpa [leavesBehind, (not_or.1 h0).1] using hstay
  exact (maybeGrow_twin h hsec hok hmoves ht).2

lemma blind_setGrow (pct step : ℕ) : Blind (σ := σ) i (onBuf i (memBufferSetGrow pct step)) := by
  refine .onBuf (fun m rb => ?_) fun rb => ?_
  · unfold memBufferSetGrow
    split_ifs <;> rfl
  · unfold memBufferSetGrow
    split_ifs <;> exact ⟨rfl, rfl, rfl, rfl, rfl, rfl, rfl, rfl, rfl⟩

lemma blind_setShrink (pct step : ℕ) : Blind (σ := σ) i (onBuf i (memBufferSetShrink pct step)) := by
  refine .onBuf (fun m rb => ?_) fun rb => ?_
  · unfold memBufferSetShrink
    split_ifs <;> rfl
  · unfold memBufferSetShrink
    split_ifs <;> exact ⟨rfl, rfl, rfl, rfl, rfl, rfl, rfl, rfl, rfl⟩

lemma blind_setMaxSize (maxCap : ℕ) : Blind (σ := σ) i (onBuf i (memBufferSetMaxSize maxCap)) := by
  refine .onBuf (fun m rb => ?_) fun rb => ?_
  · have hcap : (rb.onBytes fun _ => m).cap = rb.cap := rfl
    unfold memBufferSetMaxSize
    rw [hcap]
    split_ifs <;> rfl
  · unfold memBufferSetMaxSize
    split_ifs <;> exact ⟨rfl, rfl, rfl, rfl, rfl, rfl, rfl, rfl, rfl⟩

lemma blind_elsewhere (f : Sys σ → Sys σ) (hf : ∀ s b, f { s with buf := b } = f s) :
    Blind i fun s => { f s with buf := update (f s).buf i (s.buf i) } := by
  refine ⟨fun m s => ?_, fun s => ?_⟩
  · unfold withBytes onBuf
    dsimp only
    rw [hf, update_self, update_self, update_idem]
  · dsimp only
    rw [update_self]
    exact .refl _

lemma play_twin {op op' : RingOp σ} (h : IsRing (s.buf i)) (hsec : (s.buf i).flags.secureMode = true) (hok : sumsFit i s op)
    (hstay : leavesBehind i s op = false) (hop : op.Parallel op') (ht : RingTwin i s t) :
    RingTwin i (play E i s op).2 (play E i t op').2 := by
  cases hop with
  | push hlen => exact push_twin h hsec hok hstay hlen ht
  | same =>
    cases op with
    | push data => exact push_twin h hsec hok hstay rfl ht
    | pop n => exact pop_twin h hsec hok hstay ht
    | peek offset n => exact ht
    | reserve n => exact reserve_twin h hsec hok hstay ht
    | setGrow pct step => exact ht.blind (blind_setGrow pct step)
    | setShrink pct step => exact ht.blind (blind_setShrink pct step)
    | setMaxSize maxCap => exact ht.blind (blind_setMaxSize maxCap)
    | elsewhere v => exact ht.blind (blind_elsewhere (fun _ => v) fun _ _ => rfl)

lemma play_flags (op : RingOp σ) : ((play E i s op).2.buf i).flags = (s.buf i).flags := by
  cases op with
  | push data => exact (Moves.push data s).fixed.flags
  | pop n => exact (Moves.pop n s).fixed.flags
  | peek offset n => rfl
  | reserve n => exact (Moves.reserve n s).fixed.flags
  | setGrow pct step => exact ((blind_setGrow pct step).alike s).flags
  | setShrink pct step => exact ((blind_setShrink pct step).alike s).flags
  | setMaxSize maxCap => exact ((blind_setMaxSize maxCap).alike s).flags
  | elsewhere v => exact ((blind_elsewhere (fun _ => v) fun _ _ => rfl).alike s).flags

end LwftpCe.Buffer
