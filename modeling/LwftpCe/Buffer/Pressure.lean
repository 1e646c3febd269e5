import LwftpCe.Buffer.Defs

/-!
# Memory buffers: the pressure

The part of `drivers/mem.c` that turns the usage of buffers into pressure levels and tells the throttle hooks.
-/

namespace LwftpCe.Buffer

open Lib Function

variable {σ : Type} (E : Env σ)

/-! ### Levels -/

def memBufferUsagePct (cfg : Config) (rb : MemBuffer) (usedBytes : ℕ) : ℕ :=
  if rb.cap = 0 then 0
  else
    let limit := if rb.maxCap ≠ sizeMax ∧ rb.maxCap > 0 then max rb.maxCap rb.cap else rb.cap
    let bufPct := umul (min usedBytes limit) 100 / limit % 256
    let heapPct := if cfg.maxHeap > 0 then umul (min cfg.heapUsed cfg.maxHeap) 100 / cfg.maxHeap % 256 else 0
    max heapPct bufPct

def memPressureLevelFromUsage (usagePct : ℕ) : Level :=
  if 85 ≤ usagePct then .high else if 70 ≤ usagePct then .mild else .none

def memPressureLevelRelief (current : Level) (usagePct : ℕ) : Level :=
  let level := memPressureLevelFromUsage usagePct
  if current = .critical ∧ level < .high then .high
  else if current = .high ∧ level < .mild then .mild
  else level

/-! ### The hooks -/

def Pressure.effective (p : Pressure) (active : Bool) (own : Level) : Level :=
  let effective := if p.globalActive then p.globalLevel else own
  if active ∧ own > effective then own else effective

lemma Pressure.effective_eq_max (p : Pressure) {active : Bool} {own : Level} (h : active = false → own = .none) :
    p.effective active own = max (if p.globalActive then p.globalLevel else .none) own := by
  unfold effective
  cases p.globalActive with
  | false => simp [max_eq_right (Level.none_le _)]
  | true =>
    cases active with
    | false => simp [h rfl, max_eq_left (Level.none_le _)]
    | true =>
      simp only [if_true, true_and]
      split_ifs with hlt
      · exact (max_eq_right hlt.le).symm
      · exact (max_eq_left (not_lt.1 hlt)).symm

def updateEthEffective (s : Sys σ) : Sys σ :=
  let level := s.prs.effective s.prs.ethActive s.prs.ethLevel
  if level ≠ s.prs.ethEffective then
    { s with
      world := if s.prs.ethHook then E.ethRxThrottle level s.world else s.world
      prs := { s.prs with ethEffective := level } }
  else s

def updateTlsEffective (s : Sys σ) : Sys σ :=
  let level := s.prs.effective s.prs.tlsActive s.prs.tlsLevel
  if level ≠ s.prs.tlsEffective then
    { s with
      world := if s.prs.tlsHook then E.tlsRxThrottle level s.world else s.world
      prs := { s.prs with tlsEffective := level } }
  else s

def memPressureUpdateEffective (s : Sys σ) : Sys σ := updateTlsEffective E (updateEthEffective E s)

def memRegisterPressureHookEthRx (s : Sys σ) : Sys σ :=
  memPressureUpdateEffective E { s with prs := { s.prs with ethHook := true } }
def memRegisterPressureHookTlsRx (s : Sys σ) : Sys σ :=
  memPressureUpdateEffective E { s with prs := { s.prs with tlsHook := true } }

def memSetPressureClearPct (pct : ℕ) (s : Sys σ) : Sys σ :=
  if pct ≤ 100 then { s with prs := { s.prs with clearPct := pct } } else s

/-! ### Pressure and relief -/

def poolUsage (s : Sys σ) (i : ℕ) : ℕ := memBufferUsagePct s.cfg (s.buf i) (s.buf i).poolUsedBytes

def memPressurePoolsBelowClear (s : Sys σ) : Bool := s.lwipPools.all fun i => poolUsage s i ≤ s.prs.clearPct

def memPressurePoolsLevel (s : Sys σ) : Level :=
  let level := s.lwipPools.foldl
    (fun level i => max level (memPressureLevelRelief (s.buf i).lastPressureLevel (poolUsage s i))) .none
  if level = .none ∧ s.lwipPools.any (fun i => s.prs.clearPct < poolUsage s i) then .mild else level

def memPressureMark (i : ℕ) (level : Level) (s : Sys σ) : Sys σ :=
  if level = .none then s
  else
    memPressureUpdateEffective E { s with
      prs :=
        match (s.buf i).owner with
        | .lwipPool => { s.prs with globalActive := true, globalLevel := max s.prs.globalLevel level }
        | .ethRx => { s.prs with ethActive := true, ethLevel := max s.prs.ethLevel level }
        | .tlsRx => { s.prs with tlsActive := true, tlsLevel := max s.prs.tlsLevel level }
        | _ => s.prs }

def usedBytes (rb : MemBuffer) : ℕ := if rb.flags.mallocType then rb.poolUsedBytes else rb.len

def memPressureMaybeClear (i : ℕ) (s : Sys σ) : Sys σ :=
  if s.prs.clearPct > 100 then s
  else
    let rb := s.buf i
    let level := memPressureLevelRelief rb.lastPressureLevel (memBufferUsagePct s.cfg rb (usedBytes rb))
    let s := s.onBuf i fun rb => { rb with lastPressureLevel := level }
    match rb.owner with
    | .lwipPool =>
      let pool := if s.prs.globalActive ∧ memPressurePoolsBelowClear s then .none else memPressurePoolsLevel s
      memPressureUpdateEffective E { s with prs := { s.prs with globalActive := pool ≠ .none, globalLevel := pool } }
    | .ethRx => memPressureUpdateEffective E { s with prs := { s.prs with ethActive := level ≠ .none, ethLevel := level } }
    | .tlsRx => memPressureUpdateEffective E { s with prs := { s.prs with tlsActive := level ≠ .none, tlsLevel := level } }
    | _ => s

def memBufferNotifyLowmem (i : ℕ) (level : Level) (s : Sys σ) : Sys σ :=
  (memPressureMark E i level s).onBuf i fun rb => { rb with lastPressureLevel := level }

/-! ### What they leave alone -/

structure Quiet (i : ℕ) (s t : Sys σ) : Prop where
  cfg : t.cfg = s.cfg
  live : t.live = s.live
  lwipHeap : t.lwipHeap = s.lwipHeap
  lwipPools : t.lwipPools = s.lwipPools
  allocs : t.allocs = s.allocs
  calls : t.calls = s.calls
  heap : t.heap = s.heap
  buf : ∃ level, t.buf = Function.update s.buf i { s.buf i with lastPressureLevel := level }

variable {E} {i : ℕ} {s t u : Sys σ}

lemma Quiet.self (h : Quiet i s t) : ∃ level, t.buf i = { s.buf i with lastPressureLevel := level } := by
  obtain ⟨level, hl⟩ := h.buf
  exact ⟨level, by rw [hl, update_self]⟩

lemma Quiet.refl (i : ℕ) (s : Sys σ) : Quiet i s s :=
  ⟨rfl, rfl, rfl, rfl, rfl, rfl, rfl, (s.buf i).lastPressureLevel, (update_eq_self i s.buf).symm⟩

lemma Quiet.trans (h : Quiet i s t) (h' : Quiet i t u) : Quiet i s u := by
  obtain ⟨l, hl⟩ := h.buf
  obtain ⟨l', hl'⟩ := h'.buf
  refine ⟨h'.cfg.trans h.cfg, h'.live.trans h.live, h'.lwipHeap.trans h.lwipHeap, h'.lwipPools.trans h.lwipPools,
    h'.allocs.trans h.allocs, h'.calls.trans h.calls, h'.heap.trans h.heap, l', ?_⟩
  rw [hl', hl]
  simp

lemma Quiet.of_eq (i : ℕ) (prs : Pressure) (world : σ) : Quiet i s { s with prs, world } :=
  ⟨rfl, rfl, rfl, rfl, rfl, rfl, rfl, (s.buf i).lastPressureLevel, (update_eq_self i s.buf).symm⟩

lemma Quiet.level (i : ℕ) (s : Sys σ) (level : Level) : Quiet i s (s.onBuf i fun rb => { rb with lastPressureLevel := level }) :=
  ⟨rfl, rfl, rfl, rfl, rfl, rfl, rfl, level, rfl⟩

lemma updateEffective_buf (s : Sys σ) : (memPressureUpdateEffective E s).buf = s.buf := by
  have heth : (updateEthEffective E s).buf = s.buf := by
    unfold updateEthEffective
    simp only
    split_ifs <;> rfl
  unfold memPressureUpdateEffective updateTlsEffective
  simp only
  split_ifs <;> exact heth

lemma quiet_updateEffective (i : ℕ) (s : Sys σ) : Quiet i s (memPressureUpdateEffective E s) := by
  have heth : Quiet i s (updateEthEffective E s) := by
    unfold updateEthEffective
    simp only
    split_ifs
    · exact .of_eq i _ _
    · exact .of_eq i _ _
    · exact .refl i s
  refine heth.trans ?_
  unfold memPressureUpdateEffective updateTlsEffective
  simp only
  split_ifs
  · exact .of_eq i _ _
  · exact .of_eq i _ _
  · exact .refl i _

lemma quiet_mark (i : ℕ) (level : Level) (s : Sys σ) : Quiet i s (memPressureMark E i level s) := by
  unfold memPressureMark
  split_ifs
  · exact .refl i s
  · exact (Quiet.of_eq i _ s.world).trans (quiet_updateEffective i _)

lemma quiet_notify (i : ℕ) (level : Level) (s : Sys σ) : Quiet i s (memBufferNotifyLowmem E i level s) :=
  (quiet_mark i level s).trans (.level i _ level)

lemma quiet_maybeClear (i : ℕ) (s : Sys σ) : Quiet i s (memPressureMaybeClear E i s) := by
  unfold memPressureMaybeClear
  split_ifs
  · exact .refl i s
  · simp only
    split
    · exact (Quiet.level i s _).trans ((Quiet.of_eq i _ _).trans (quiet_updateEffective i _))
    · exact (Quiet.level i s _).trans ((Quiet.of_eq i _ _).trans (quiet_updateEffective i _))
    · exact (Quiet.level i s _).trans ((Quiet.of_eq i _ _).trans (quiet_updateEffective i _))
    · exact .level i s _

lemma maybeClear_level (h : s.prs.clearPct ≤ 100) : ((memPressureMaybeClear E i s).buf i).lastPressureLevel =
    memPressureLevelRelief (s.buf i).lastPressureLevel (memBufferUsagePct s.cfg (s.buf i) (usedBytes (s.buf i))) := by
  have hupdate : ∀ {u : Sys σ} {level : Level}, u.buf = (s.onBuf i fun rb => { rb with lastPressureLevel := level }).buf →
      (u.buf i).lastPressureLevel = level := by
    intro u level hu
    rw [hu, Sys.onBuf_self]
  unfold memPressureMaybeClear
  rw [if_neg (not_lt.2 h)]
  dsimp only
  split
  · exact hupdate (updateEffective_buf _)
  · exact hupdate (updateEffective_buf _)
  · exact hupdate (updateEffective_buf _)
  · exact hupdate rfl

end LwftpCe.Buffer
